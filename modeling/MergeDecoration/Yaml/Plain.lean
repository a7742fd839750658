import MergeDecoration.Text.Hex

/-!
What plain scalars stand for, and the tags that say so. A plain scalar that is neither null, nor a
truth value, a number or a date is a text.
-/
namespace MergeDecoration.Yaml

inductive Tag
  | null
  | bool
  | int
  | float
  | text
  | bytes
  | timestamp
  | orderedMap
  | pairs
  | set
  | sequence
  | mapping
  /-- The key whose mappings are taken over. -/
  | merge
  /-- The key of a mapping's own value. -/
  | default
  | unknown
  deriving DecidableEq

/-- The tags of the standard, by the names below their common stem. -/
def Tag.names : List (String × Tag) :=
  [("null", null), ("bool", bool), ("int", int), ("float", float), ("str", text),
    ("binary", bytes), ("timestamp", timestamp), ("omap", orderedMap), ("pairs", pairs),
    ("set", set), ("seq", sequence), ("map", mapping), ("merge", merge), ("value", default)]

def Tag.stem : String := "tag:yaml.org,2002:"

def Tag.ofName (name : String) : Tag :=
  ((Tag.names.find? fun t => Tag.stem ++ t.1 == name).map (·.2)).getD .unknown

namespace Plain

def nulls : List String := ["", "~", "null", "Null", "NULL"]

def truths : List (String × Bool) :=
  [("yes", true), ("Yes", true), ("YES", true), ("no", false), ("No", false), ("NO", false),
    ("true", true), ("True", true), ("TRUE", true), ("false", false), ("False", false),
    ("FALSE", false), ("on", true), ("On", true), ("ON", true), ("off", false), ("Off", false),
    ("OFF", false)]

def dropSign : List Char → List Char
  | '-' :: rest | '+' :: rest => rest
  | s => s

def isDigitOrUnderscore (c : Char) : Bool := c.isDigit || c == '_'

/-- A colon and one digit, or two of which the first is below six; once or more, up to `ends`. -/
def areSixtieths (ends : List Char → Bool) : List Char → Bool
  | ':' :: a :: rest =>
    a.isDigit && match rest with
      | b :: rest =>
        if b.isDigit then a.toNat < 54 && (ends rest || areSixtieths ends rest)
        else ends (b :: rest) || areSixtieths ends (b :: rest)
      | [] => ends []
  | _ => false

/-- Binary, octal, decimal, hexadecimal, or digits to the base sixty between colons. -/
def isInt (s : List Char) : Bool :=
  match dropSign s with
  | '0' :: 'b' :: ds => !ds.isEmpty && ds.all fun c => c == '0' || c == '1' || c == '_'
  | '0' :: 'x' :: ds => !ds.isEmpty && ds.all fun c => Text.isHexDigit c || c == '_'
  | '0' :: ds => ds.all fun c => c == '_' || ('0' ≤ c && c ≤ '7')
  | c :: ds => c.isDigit && (ds.dropWhile isDigitOrUnderscore).isEmpty ||
      c.isDigit && areSixtieths (·.isEmpty) (ds.dropWhile isDigitOrUnderscore)
  | [] => false

/-- Nothing, or an exponent with its sign. -/
def isExponent : List Char → Bool
  | [] => true
  | e :: sign :: ds =>
    (e == 'e' || e == 'E') && (sign == '-' || sign == '+') && !ds.isEmpty && ds.all Char.isDigit
  | _ => false

/-- A point and digits after it, with nothing else. -/
def isPlainFraction : List Char → Bool
  | '.' :: ds => ds.all isDigitOrUnderscore
  | _ => false

def isInfinity (s : List Char) : Bool := [".inf", ".Inf", ".INF"].contains (String.ofList s)

def isNotANumber (s : List Char) : Bool := [".nan", ".NaN", ".NAN"].contains (String.ofList s)

/-- A number with a point, or one of the words for infinity and for no number. -/
def isFloat (s : List Char) : Bool :=
  isInfinity (dropSign s) || isNotANumber s ||
    match s with
    | '.' :: c :: rest => c.isDigit && isExponent (rest.dropWhile isDigitOrUnderscore)
    | _ => match dropSign s with
      | c :: rest =>
        c.isDigit && match rest.dropWhile isDigitOrUnderscore with
          | '.' :: rest => isExponent (rest.dropWhile isDigitOrUnderscore)
          | rest => areSixtieths isPlainFraction rest
      | [] => false

end Plain

/-- A text without the line feed at its end, if it has one. -/
def dropLineFeed (s : List Char) : List Char :=
  if s.getLast? == some '\n' then s.dropLast else s

/-- What stands behind a time: nothing, the mark of universal time, or a distance from it. -/
inductive Zone
  | unknown
  | universal
  | shifted (west : Bool) (hours minutes : List Char)

/-- The parts of a date, of a time of day and of a zone as they are written. -/
structure Timestamp where
  year : List Char
  month : List Char
  day : List Char
  /-- Hour, minute, second, digits of the fraction. -/
  time : Option (List Char × List Char × List Char × List Char) := none
  zone : Zone := .unknown

namespace Timestamp

/-- Between `least` and `most` digits. -/
private def digits (least most : Nat) (s : List Char) : Option (List Char × List Char) :=
  let ds := (s.takeWhile Char.isDigit).take most
  if least ≤ ds.length then some (ds, s.drop ds.length) else none

private def after (c : Char) : List Char → Option (List Char)
  | d :: rest => if d = c then some rest else none
  | [] => none

private def isGap (c : Char) : Bool := c == ' ' || c == '\t'

/-- A zone with nothing behind it. -/
private def readZone (s : List Char) : Option Zone :=
  if s.isEmpty then some .unknown
  else match s.dropWhile isGap with
    | ['Z'] => some .universal
    | c :: rest =>
      if c = '-' ∨ c = '+' then do
        let (hours, rest) ← digits 1 2 rest
        match rest with
        | [] => return .shifted (c == '-') hours []
        | _ =>
          let (minutes, rest) ← digits 2 2 (← after ':' rest)
          if rest.isEmpty then return .shifted (c == '-') hours minutes else none
      else none
    | [] => none

/-- The time behind a date, and the zone. -/
private def readTime (t : Timestamp) (s : List Char) : Option Timestamp := do
  let start ← match s with
    | 'T' :: rest | 't' :: rest => some rest
    | c :: rest => if isGap c then some (rest.dropWhile isGap) else none
    | [] => none
  let (hour, rest) ← digits 1 2 start
  let (minute, rest) ← digits 2 2 (← after ':' rest)
  let (second, rest) ← digits 2 2 (← after ':' rest)
  let (fraction, rest) := match rest with
    | '.' :: rest => (rest.takeWhile Char.isDigit, rest.dropWhile Char.isDigit)
    | _ => ([], rest)
  let zone ← readZone rest
  return { t with time := some (hour, minute, second, fraction), zone }

/-- A date of year, month and day, alone or with a time. A line break may follow. -/
def read? (text : List Char) : Option Timestamp := do
  let s := dropLineFeed text
  let (year, rest) ← digits 4 4 s
  let (month, rest) ← digits 1 2 (← after '-' rest)
  let (day, rest) ← digits 1 2 (← after '-' rest)
  let t : Timestamp := { year, month, day }
  if rest.isEmpty then return t else t.readTime rest

/-- Whether a plain scalar is one: a date alone has two digits for month and day. -/
def isPlain (s : List Char) : Bool :=
  match read? s with
  | some t => t.time.isSome || (t.month.length == 2 && t.day.length == 2)
  | none => false

end Timestamp

/-- What a plain scalar is. One line feed at its end makes no difference, unless nothing else is
there. -/
def Plain.tag (text : String) : Tag :=
  let s := dropLineFeed text.toList
  let word := String.ofList s
  if text == "\n" then .text
  else if nulls.contains word then .null
  else if (truths.lookup word).isSome then .bool
  else if isFloat s then .float
  else if isInt s then .int
  else if word == "<<" then .merge
  else if Timestamp.isPlain s then .timestamp
  else if word == "=" then .default
  else if ["!", "&", "*"].contains word then .unknown
  else .text

end MergeDecoration.Yaml
