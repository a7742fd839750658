import MergeDecoration.Value.Convert

/-!
Reading JSON. Besides the standard's values, `NaN`, `Infinity` and `-Infinity` are numbers; of two
members with one name the last counts; an integer has at most 4300 digits, and lists and objects
lie at most `depthLimit` deep inside each other. A failure names the first offset at which the text
cannot go on.
-/
namespace MergeDecoration.Json

/-- The rest of a text and its offset in the whole. -/
structure Cursor where
  offset : Nat
  rest : List Char

inductive Trouble
  | at (problem : JsonSyntax) (offset : Nat)
  | tooManyDigits (count : Nat)
  | tooDeep

/-- How deep lists and objects may lie inside each other. -/
def depthLimit : Nat := 990

def isSpace (c : Char) : Bool := c == ' ' || c == '\t' || c == '\n' || c == '\r'

/-- Move on by the first `n` characters. -/
def Cursor.skip (c : Cursor) (n : Nat) : Cursor := ⟨c.offset + n, c.rest.drop n⟩

def Cursor.skipSpace (c : Cursor) : Cursor := c.skip (c.rest.takeWhile isSpace).length

def Cursor.fail {α : Type} (c : Cursor) (problem : JsonSyntax) : Except Trouble α :=
  .error (.at problem c.offset)

private def hexUnit? (a b c d : Char) : Option Nat := do
  return (← Text.hexValue? a) * 4096 + (← Text.hexValue? b) * 256 + (← Text.hexValue? c) * 16 +
    (← Text.hexValue? d)

private def shortEscape? : Char → Option Char
  | '"' => some '"'
  | '\\' => some '\\'
  | '/' => some '/'
  | 'b' => some '\x08'
  | 'f' => some '\x0c'
  | 'n' => some '\n'
  | 'r' => some '\r'
  | 't' => some '\t'
  | _ => none

/-- The character of a unit that stands alone. Half a surrogate pair is none, and U+FFFD stands for
it; so what cannot be done with such a half, such as writing it into an address, is done with
U+FFFD. -/
private def ofUnit (n : Nat) : Char := if n.isValidChar then Char.ofNat n else '\ufffd'

/-- Characters from UTF-16 units; two surrogates that are a pair make one of them. -/
def ofUnits : List Nat → List Char
  | [] => []
  | h :: l :: rest =>
    if 0xd800 ≤ h ∧ h < 0xdc00 ∧ 0xdc00 ≤ l ∧ l < 0xe000 then
      Char.ofNat (0x10000 + (h - 0xd800) * 0x400 + (l - 0xdc00)) :: ofUnits rest
    else ofUnit h :: ofUnits (l :: rest)
  | [h] => [ofUnit h]

/-- Read a string from behind its opening quote, which is at `start`; `units` are those read so
far, last first. -/
private def readUnits (start : Nat) (units : List Nat) (offset : Nat) :
    List Char → Except Trouble (List Nat × Cursor)
  | [] => .error (.at .unterminatedString start)
  | '"' :: rest => .ok (units.reverse, ⟨offset + 1, rest⟩)
  | '\\' :: 'u' :: a :: b :: c :: d :: rest =>
    match hexUnit? a b c d, rest with
    | some n, _ :: _ => readUnits start (n :: units) (offset + 6) rest
    | _, _ => .error (.at .unicodeEscape (offset + 1))
  | '\\' :: 'u' :: _ => .error (.at .unicodeEscape (offset + 1))
  | ['\\'] => .error (.at .unterminatedString start)
  | '\\' :: c :: rest =>
    match shortEscape? c with
    | some e => readUnits start (e.toNat :: units) (offset + 2) rest
    | none => .error (.at .escape offset)
  | c :: rest =>
    if c.toNat < 32 then .error (.at .controlCharacter offset)
    else readUnits start (c.toNat :: units) (offset + 1) rest

/-- Read a string whose opening quote is the first character. -/
def readString (c : Cursor) : Except Trouble (String × Cursor) :=
  (readUnits c.offset [] (c.offset + 1) (c.rest.drop 1)).map fun (units, c) =>
    (String.ofList (ofUnits units), c)

/-- The characters of a number at the start of a text, and whether it is no integer. -/
def numberPrefix? (s : List Char) : Option (List Char × Bool) :=
  let (minus, body) := match s with
    | '-' :: rest => (['-'], rest)
    | _ => ([], s)
  let whole := match body with
    | '0' :: _ => ['0']
    | _ => body.takeWhile Char.isDigit
  if whole.isEmpty then none
  else
    let rest := body.drop whole.length
    let places := match rest with
      | '.' :: more => match more.takeWhile Char.isDigit with
        | [] => []
        | ds => '.' :: ds
      | _ => []
    let rest := rest.drop places.length
    let exponent := match rest with
      | e :: more =>
        if e = 'e' ∨ e = 'E' then
          let (sign, more) := match more with
            | '-' :: more => (['-'], more)
            | '+' :: more => (['+'], more)
            | _ => ([], more)
          match more.takeWhile Char.isDigit with
          | [] => []
          | ds => e :: sign ++ ds
        else []
      | [] => []
    some (minus ++ whole ++ places ++ exponent, !(places.isEmpty && exponent.isEmpty))

private def readNumber (c : Cursor) : Except Trouble (Value × Cursor) :=
  match numberPrefix? c.rest with
  | none => c.fail .value
  | some (cs, true) =>
    .ok (.float ((Numeral.readReal? cs).getD .nan), c.skip cs.length)
  | some (cs, false) =>
    match Numeral.readInt cs with
    | .value i => .ok (.int i, c.skip cs.length)
    | .tooLong n => .error (.tooManyDigits n)
    | .malformed => c.fail .value

private def words : List (String × Value) :=
  [("null", .null), ("true", .bool true), ("false", .bool false), ("NaN", .float .nan),
    ("Infinity", .float (.infinity false)), ("-Infinity", .float (.infinity true))]

private def readWord? (c : Cursor) : Option (Value × Cursor) :=
  (words.find? fun w => w.1.toList.isPrefixOf c.rest).map fun w => (w.2, c.skip w.1.length)

mutual

/-- Read a value that starts at the first character, inside `depth` lists and objects. The fuel
bounds the number of values and of members together. -/
def readValue (fuel depth : Nat) (c : Cursor) : Except Trouble (Value × Cursor) :=
  match fuel, c.rest with
  | 0, _ => c.fail .value
  | _ + 1, [] => c.fail .value
  | _ + 1, '"' :: _ => (readString c).map fun (s, c) => (.text s, c)
  | fuel + 1, '[' :: _ =>
    let c := (c.skip 1).skipSpace
    if depthLimit ≤ depth then .error .tooDeep
    else match c.rest with
      | ']' :: _ => .ok (.list [], c.skip 1)
      | _ => readItems fuel (depth + 1) [] c
  | fuel + 1, '{' :: _ =>
    let c := (c.skip 1).skipSpace
    if depthLimit ≤ depth then .error .tooDeep
    else match c.rest with
      | '}' :: _ => .ok (.map [], c.skip 1)
      | _ => readMembers fuel (depth + 1) [] c
  | _ + 1, _ => match readWord? c with
    | some r => .ok r
    | none => readNumber c

/-- Read the items of a list up to its bracket; `items` are those before, last first. -/
def readItems (fuel depth : Nat) (items : List Value) (c : Cursor) :
    Except Trouble (Value × Cursor) :=
  match fuel with
  | 0 => c.fail .value
  | fuel + 1 => do
    let (v, c) ← readValue fuel depth c
    let c := c.skipSpace
    match c.rest with
    | ']' :: _ => .ok (.list (v :: items).reverse, c.skip 1)
    | ',' :: _ => readItems fuel depth (v :: items) (c.skip 1).skipSpace
    | _ => c.fail .comma

def readMembers (fuel depth : Nat) (entries : List (Value × Value)) (c : Cursor) :
    Except Trouble (Value × Cursor) :=
  match fuel, c.rest with
  | fuel + 1, '"' :: _ => do
    let (name, c) ← readString c
    let c := c.skipSpace
    match c.rest with
    | ':' :: _ =>
      let (v, c) ← readValue fuel depth (c.skip 1).skipSpace
      let entries := Value.store entries (.text name) v
      let c := c.skipSpace
      match c.rest with
      | '}' :: _ => .ok (.map entries, c.skip 1)
      | ',' :: _ => readMembers fuel depth entries (c.skip 1).skipSpace
      | _ => c.fail .comma
    | _ => c.fail .colon
  | _, _ => c.fail .propertyName

end

def readWhole (s : List Char) : Except Trouble Value :=
  match s with
  | '\ufeff' :: _ => .error (.at .byteOrderMark 0)
  | _ => do
    let (v, c) ← readValue (2 * s.length + 2) 0 (Cursor.skipSpace ⟨0, s⟩)
    let c := c.skipSpace
    if c.rest.isEmpty then return v else c.fail .extraData

/-- Line and column of an offset, both from one. -/
def locate (s : List Char) (offset : Nat) : Nat × Nat :=
  let before := s.take offset
  (before.count '\n' + 1, (before.reverse.takeWhile (· != '\n')).length + 1)

/-- Read one JSON value. -/
def read (text : String) : Except Fault Value :=
  let s := text.toList
  (readWhole s).mapError fun
    | .at problem offset =>
      let (line, column) := locate s offset
      .invalid (.json ⟨problem, line, column, offset⟩)
    | .tooManyDigits count => .invalid (.tooManyDigits count)
    | .tooDeep => .tooDeep

end MergeDecoration.Json
