import MergeDecoration.Fault
import MergeDecoration.Number.Numeral

/-!
Numbers from values. What is no number and no numeral is a misuse; a numeral that cannot be read
is invalid.
-/
namespace MergeDecoration

/-- The integer that a text denotes. -/
def integerOfText (s : String) : Except Invalid Int :=
  match Numeral.readInt s.toList with
  | .value i => .ok i
  | .malformed => .error (.integer s)
  | .tooLong n => .error (.tooManyDigits n)

/-- Bytes of ASCII as a text. -/
def asciiText? (bs : List UInt8) : Option String :=
  if bs.all (·.toNat < 0x80) then some (String.ofList (bs.map fun b => Char.ofNat b.toNat))
  else none

namespace Value

/-- The integer part of a number, or the integer that a text denotes. -/
def toInt (v : Value) : Except Fault Int :=
  match v with
  | .bool b => .ok (cond b 1 0)
  | .int i => .ok i
  | .float x =>
    if x.isNaN then .error (.invalid .notANumber)
    else if x.isInfinite then .error .outOfRange
    else .ok x.truncate
  | .text s => (integerOfText s).mapError .invalid
  | .bytes bs => match asciiText? bs with
    | some s => (integerOfText s).mapError .invalid
    | none => .error (.invalid (.integer (v.quoted)))
  | v => .error (.misuse (.numberFrom v.kind))

/-- The double nearest to a number, or the one that a text denotes. -/
def toReal (v : Value) : Except Fault Binary64 :=
  let ofInt (i : Int) := match Binary64.ofInt? i with
    | some x => .ok x
    | none => .error .outOfRange
  match v with
  | .bool b => ofInt (cond b 1 0)
  | .int i => ofInt i
  | .float x => .ok x
  | .text s => match Numeral.readReal? s.toList with
    | some x => .ok x
    | none => .error (.invalid (.real s))
  | v => .error (.misuse (.numberFrom v.kind))

/-- The text itself; nothing else can be used as one. -/
def asText : Value → Except Fault String
  | .text s => .ok s
  | v => .error (.misuse (.textOf v.kind))

/-- The text itself, where a text's own operation is called on the value. -/
def textOperand : Value → Except Fault String
  | .text s => .ok s
  | .bytes _ => .error (.misuse .textFromBytes)
  | _ => .error .noOperation

/-- The entries of a mapping, where a field that may be missing is looked up. -/
def mapOperand : Value → Except Fault (List (Value × Value))
  | .map es => .ok es
  | _ => .error .noOperation

/-- The values that a value runs over: the characters of a text, the keys of a mapping. -/
def items : Value → Except Fault (List Value)
  | .list xs | .set xs => .ok xs
  | .pair a b => .ok [a, b]
  | .text s => .ok (s.toList.map fun c => .text (String.ofList [c]))
  | .bytes bs => .ok (bs.map fun b => .int b.toNat)
  | .map es => .ok (es.map (·.1))
  | v => .error (.misuse (.itemsOf v.kind))

/-- A field that has to be there. -/
def require (v : Value) (name : String) : Except Fault Value :=
  match v with
  | .map es => match field? es name with
    | some w => .ok w
    | none => .error (.missingField name)
  | .text _ => .error (.misuse .fieldOfText)
  | .list _ => .error (.misuse .fieldOfList)
  | v => .error (.misuse (.fieldOf v.kind))

end Value
end MergeDecoration
