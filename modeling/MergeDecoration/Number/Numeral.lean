import MergeDecoration.Number.Binary64
import MergeDecoration.Text.Blank
import MergeDecoration.Text.Digit
import MergeDecoration.Text.Hex

/-!
Numerals in free text: decimal digits of any script, single underscores between digits, white
space around the whole. Integers have at most 4300 digits.
-/
namespace MergeDecoration.Numeral

/-- White space of ASCII, the separators U+001C to U+001F excluded. -/
def isAsciiBlank (c : Char) : Bool := c == ' ' || (9 ≤ c.toNat && c.toNat ≤ 13)

/-- Digits of every script as ASCII digits, and white space beyond ASCII as spaces. -/
def plain (c : Char) : Char :=
  if c.toNat < 0x80 then c
  else if Text.isBlank c then ' '
  else match Text.digitValue? c with
    | some d => Char.ofNat (48 + d)
    | none => c

/-- The digits of groups that single underscores join. -/
def joinGroups (afterDigit : Bool) : List Char → Option (List Char)
  | [] => if afterDigit then some [] else none
  | c :: rest =>
    if c = '_' then if afterDigit then joinGroups false rest else none
    else if c.isDigit then (joinGroups true rest).map (c :: ·)
    else none

/-- The number that ASCII digits denote. -/
def ofDigits (ds : List Char) : Nat := ds.foldl (fun n c => 10 * n + (c.toNat - 48)) 0

/-- Split off a sign; true for a minus. -/
def splitSign : List Char → Bool × List Char
  | '-' :: rest => (true, rest)
  | '+' :: rest => (false, rest)
  | s => (false, s)

def signed (negative : Bool) (n : Nat) : Int := if negative then -n else n

def digitLimit : Nat := 4300

inductive IntResult
  | value (i : Int)
  | malformed
  | tooLong (digits : Nat)
  deriving DecidableEq

/-- Read an integer numeral. The length counts before what follows the digits does. -/
def readInt (s : List Char) : IntResult :=
  let (negative, body) := splitSign ((s.map plain).dropWhile isAsciiBlank)
  let isPart (c : Char) : Bool := c.isDigit || c == '_'
  match joinGroups false (body.takeWhile isPart) with
  | none => .malformed
  | some ds =>
    if digitLimit < ds.length then .tooLong ds.length
    else if (body.dropWhile isPart).all isAsciiBlank then .value (signed negative (ofDigits ds))
    else .malformed

/-- The mark that may stand between a zero and the digits to a base. -/
def baseMark (base : Nat) : Char := if base = 2 then 'b' else if base = 8 then 'o' else 'x'

/-- Read an integer numeral to the base 2, 8 or 16 that has no underscores. -/
def readBased? (base : Nat) (s : List Char) : Option Int :=
  let digit? (c : Char) : Option Nat :=
    (Text.hexValue? c).bind fun d => if d < base then some d else none
  let (negative, body) := splitSign ((s.map plain).dropWhile isAsciiBlank)
  let body := match body with
    | '0' :: c :: rest => if c.toLower = baseMark base then rest else body
    | _ => body
  let ds := body.takeWhile fun c => (digit? c).isSome
  if ds.isEmpty || !(body.drop ds.length).all isAsciiBlank then none
  else some (signed negative ((ds.filterMap digit?).foldl (fun n d => base * n + d) 0))

/-- Remove underscores, each of which has to stand between two digits. -/
def dropUnderscores (afterDigit : Bool) : List Char → Option (List Char)
  | [] => some []
  | ['_'] => none
  | '_' :: c :: rest =>
    if afterDigit && c.isDigit then (dropUnderscores true rest).map (c :: ·) else none
  | c :: rest => (dropUnderscores c.isDigit rest).map (c :: ·)

/-- The exponent after its mark: a sign if any, and digits to the end. -/
def readPower (s : List Char) : Option Int :=
  let (negative, ds) := splitSign s
  if ds.isEmpty || !ds.all Char.isDigit then none else some (signed negative (ofDigits ds))

/-- What follows the digits of a decimal: nothing, or an exponent. -/
def readExponent : List Char → Option Int
  | [] => some 0
  | c :: rest => if c = 'e' ∨ c = 'E' then readPower rest else none

/-- The digits after the point, if there is one, and what follows them. -/
def splitPlaces : List Char → List Char × List Char
  | '.' :: rest => (rest.takeWhile Char.isDigit, rest.dropWhile Char.isDigit)
  | rest => ([], rest)

/-- Digits with an optional point and an optional exponent, as digits times a power of ten. -/
def readDecimal (s : List Char) : Option (Nat × Int) :=
  let whole := s.takeWhile Char.isDigit
  let (places, rest) := splitPlaces (s.dropWhile Char.isDigit)
  if whole.isEmpty && places.isEmpty then none
  else (readExponent rest).map fun e => (ofDigits (whole ++ places), e - places.length)

/-- Remove underscores, if there are any. -/
def readUnderscored (s : List Char) : Option (List Char) :=
  if s.contains '_' then dropUnderscores false s else some s

/-- Read the numeral of a double: a decimal, `inf`, `infinity` or `nan` in any case. -/
def readReal? (s : List Char) : Option Binary64 := do
  let s ← readUnderscored (Text.trimWhile isAsciiBlank (s.map plain))
  let (negative, body) := splitSign s
  let word := body.map Char.toLower
  if word = ['i', 'n', 'f'] ∨ word = ['i', 'n', 'f', 'i', 'n', 'i', 't', 'y'] then
    return .infinity negative
  if word = ['n', 'a', 'n'] then return .nan
  let (digits, power) ← readDecimal body
  return .ofDecimal negative digits power

end MergeDecoration.Numeral
