import MergeDecoration.Value
import MergeDecoration.Number.Decimal
import MergeDecoration.Number.Numeral
import MergeDecoration.Text.Quoted

/-!
How values look in messages and in addresses. A text stands for itself on the outside and in
quotes inside other values.
-/
namespace MergeDecoration

private def twoDigits (n : Nat) : String := if n < 10 then s!"0{n}" else toString n

private def padded (width n : Nat) : String :=
  let ds := Nat.toDigits 10 n
  String.ofList (List.replicate (width - ds.length) '0' ++ ds)

def Date.iso (d : Date) : String :=
  padded 4 d.year ++ "-" ++ twoDigits d.month ++ "-" ++ twoDigits d.day

private def offsetText (seconds : Int) : String :=
  let n := seconds.natAbs
  let sign := if seconds < 0 then "-" else "+"
  let tail := if n % 60 = 0 then "" else ":" ++ twoDigits (n % 60)
  sign ++ twoDigits (n / 3600) ++ ":" ++ twoDigits (n / 60 % 60) ++ tail

def Moment.iso (m : Moment) (separator : String := "T") : String :=
  let time := ":".intercalate ([m.hour, m.minute, m.second].map twoDigits)
  let micro := if m.microsecond = 0 then "" else "." ++ padded 6 m.microsecond
  m.date.iso ++ separator ++ time ++ micro ++ (m.offset.map offsetText).getD ""

def Date.shown (d : Date) : String := s!"datetime.date({d.year}, {d.month}, {d.day})"

private def zoneShown (offset : Int) : String :=
  if offset = 0 then "datetime.timezone.utc"
  else
    let days := offset.fdiv 86400
    let rest := offset.fmod 86400
    let parts := (if days = 0 then [] else [s!"days={days}"]) ++
      (if rest = 0 then [] else [s!"seconds={rest}"])
    "datetime.timezone(datetime.timedelta(" ++ ", ".intercalate parts ++ "))"

def Moment.shown (m : Moment) : String :=
  let fields := [m.date.year, m.date.month, m.date.day, m.hour, m.minute] ++
    (if m.microsecond ≠ 0 then [m.second, m.microsecond]
      else if m.second ≠ 0 then [m.second] else [])
  let zone := (m.offset.map fun o => ", tzinfo=" ++ zoneShown o).getD ""
  "datetime.datetime(" ++ ", ".intercalate (fields.map toString) ++ zone ++ ")"

namespace Value

private def bytesShown (bs : List UInt8) : String :=
  let cs := bs.map fun b => Char.ofNat b.toNat
  let q := if cs.contains '\'' && !cs.contains '"' then '"' else '\''
  let one (c : Char) : List Char :=
    if c.toNat < 0x80 then Text.escapeIn q c else '\\' :: 'x' :: Text.hexDigits 2 c.toNat
  String.ofList ('b' :: q :: cs.flatMap one ++ [q])

mutual

/-- A value as it looks inside other values. -/
def quoted : Value → String
  | .null => "None"
  | .bool b => if b then "True" else "False"
  | .int i => toString i
  | .float x => x.toText
  | .text s => Text.quoted s
  | .bytes bs => bytesShown bs
  | .date d => d.shown
  | .moment m => m.shown
  | .list xs => "[" ++ ", ".intercalate (quotedItems xs) ++ "]"
  | .pair a b => "(" ++ a.quoted ++ ", " ++ b.quoted ++ ")"
  | .set [] => "set()"
  | .set (x :: xs) => "\x7b" ++ ", ".intercalate (quotedItems (x :: xs)) ++ "\x7d"
  | .map es => "\x7b" ++ ", ".intercalate (quotedEntries es) ++ "\x7d"
  | .itself isMap => if isMap then "\x7b...\x7d" else "[...]"

def quotedItems : List Value → List String
  | [] => []
  | x :: xs => x.quoted :: quotedItems xs

def quotedEntries : List (Value × Value) → List String
  | [] => []
  | (k, v) :: es => (k.quoted ++ ": " ++ v.quoted) :: quotedEntries es

end

/-- Whether an integer has no more digits than can be written. -/
def isWritableInt (i : Int) : Bool := i.natAbs < Nat.pow 10 Numeral.digitLimit

mutual

/-- Whether all integers in a value can be written. -/
def isWritable : Value → Bool
  | .int i => isWritableInt i
  | .list xs | .set xs => areWritable xs
  | .pair a b => a.isWritable && b.isWritable
  | .map es => entriesWritable es
  | _ => true

def areWritable : List Value → Bool
  | [] => true
  | x :: xs => x.isWritable && areWritable xs

def entriesWritable : List (Value × Value) → Bool
  | [] => true
  | (k, v) :: es => k.isWritable && v.isWritable && entriesWritable es

end

/-- A value as it looks by itself. -/
def shown : Value → String
  | .text s => s
  | .date d => d.iso
  | .moment m => m.iso " "
  | v => v.quoted

@[simp] theorem shown_text (s : String) : shown (.text s) = s := rfl

end Value
end MergeDecoration
