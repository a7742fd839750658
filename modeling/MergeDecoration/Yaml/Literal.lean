import MergeDecoration.Text.Base64
import MergeDecoration.Text.Case
import MergeDecoration.Text.Cut
import MergeDecoration.Value.Convert
import MergeDecoration.Yaml.Plain

/-!
What the text of a scalar denotes under its tag: integers to four bases, doubles, dates, bytes.
-/
namespace MergeDecoration.Yaml.Literal

/-- The integer that digits to a base denote; the mark of the base may stand in front. -/
def basedInteger (base : Nat) (digits : List Char) : Except Fault Int :=
  match Numeral.readBased? base digits with
  | some i => .ok i
  | none => .error (.invalid (.basedInteger base (String.ofList digits)))

/-- A sign, and a text whose first character the sign would be. -/
private def signOf : List Char → Except Fault (Bool × List Char)
  | [] => .error .outOfBounds
  | '-' :: rest => .ok (true, rest)
  | '+' :: rest => .ok (false, rest)
  | s => .ok (false, s)

/-- An integer: binary after `0b`, hexadecimal after `0x`, octal after `0`, to the base sixty
between colons. -/
def integer (text : String) : Except Fault Int := do
  let (negative, s) ← signOf (text.toList.filter (· != '_'))
  let n ← match s with
    | [] => throw .outOfBounds
    | ['0'] => pure 0
    | '0' :: 'b' :: ds => basedInteger 2 ds
    | '0' :: 'x' :: ds => basedInteger 16 ds
    | '0' :: _ => basedInteger 8 s
    | _ => do
      let parts ← (Text.pieces ':' s).mapM fun p =>
        (integerOfText (String.ofList p)).mapError Fault.invalid
      pure (parts.foldl (fun n d => 60 * n + d) 0)
  return if negative then -n else n

/-- The sum of products with rising powers of sixty, from the last part on. All powers have to be
in the range of doubles. -/
private def sixtieths (power : Nat) (sum : Binary64) : List Binary64 → Except Fault Binary64
  | [] => .ok sum
  | x :: rest => match Binary64.ofInt? power with
    | some factor => sixtieths (60 * power) (sum.add (x.mul factor)) rest
    | none => .error .outOfRange

/-- A double: a decimal, `.inf`, `.nan`, or to the base sixty between colons. All `.nan` are one
and the same; whatever else is no number is told apart by the `serial` of its scalar. -/
def real (serial : Nat) (text : String) : Except Fault Binary64 := do
  let (negative, s) ← signOf ((Text.lower text).toList.filter (· != '_'))
  let x ← match String.ofList s with
    | ".inf" => pure (Binary64.infinity false)
    | ".nan" => return .nan
    | t => do
      match Text.pieces ':' s with
      | [_] => (Value.text t).toReal
      | parts => do
        let xs ← parts.mapM fun p => (Value.text (String.ofList p)).toReal
        sixtieths 1 (.zero false) xs.reverse
  if x.isNaN then return .nanNumbered (serial + 1)
  return if negative then x.negate else x

/-- The number of days of a month. -/
def monthLength (year month : Nat) : Nat :=
  if month = 2 then if year % 4 = 0 ∧ (year % 100 ≠ 0 ∨ year % 400 = 0) then 29 else 28
  else if [4, 6, 9, 11].contains month then 30 else 31

def checkDate (d : Date) : Except CalendarFault PUnit := do
  if d.year < 1 ∨ 9999 < d.year then throw (.year d.year)
  if d.month < 1 ∨ 12 < d.month then throw .month
  if d.day < 1 ∨ monthLength d.year d.month < d.day then throw .day

private def numberOf (ds : List Char) : Nat := Numeral.ofDigits ds

/-- The seconds that a zone is ahead of universal time, less than a day. -/
private def offset : Zone → Except CalendarFault (Option Int)
  | .unknown => .ok none
  | .universal => .ok (some 0)
  | .shifted west hours minutes =>
    let n : Int := 60 * (60 * numberOf hours + numberOf minutes : Nat)
    let n := if west then -n else n
    if n.natAbs < 86400 then .ok (some n) else .error (.offset (n.fdiv 86400) (n.fmod 86400))

/-- The date or the moment of a timestamp. -/
def moment (t : Timestamp) : Except CalendarFault Value := do
  let date : Date := ⟨numberOf t.year, numberOf t.month, numberOf t.day⟩
  match t.time with
  | none =>
    checkDate date
    return .date date
  | some (hour, minute, second, fraction) =>
    let offset ← offset t.zone
    checkDate date
    if 24 ≤ numberOf hour then throw .hour
    if 60 ≤ numberOf minute then throw .minute
    if 60 ≤ numberOf second then throw .second
    let micro := fraction.take 6 ++ List.replicate (6 - fraction.length) '0'
    return .moment ⟨date, numberOf hour, numberOf minute, numberOf second, numberOf micro, offset⟩

def timestamp (text : String) : Except Fault Value :=
  match Timestamp.read? text.toList with
  | none => .error .noOperation
  | some t => (moment t).mapError fun f => .invalid (.calendar f)

private def words : List (String × Bool) :=
  [("yes", true), ("no", false), ("true", true), ("false", false), ("on", true), ("off", false)]

/-- The value of the scalar with a serial number and a tag. -/
def value (serial : Nat) (tag : Tag) (text : String) : Except Fault Value :=
  match tag with
  | .null => .ok .null
  | .bool => match words.lookup (Text.lower text) with
    | some b => .ok (.bool b)
    | none => .error (.missingField (Text.lower text))
  | .int => (integer text).map .int
  | .float => (real serial text).map .float
  | .text => .ok (.text text)
  | .bytes => match Text.Base64.decode text.toList with
    | some bs => .ok (.bytes bs)
    | none => .error .yaml
  | .timestamp => timestamp text
  | _ => .error .yaml

end MergeDecoration.Yaml.Literal
