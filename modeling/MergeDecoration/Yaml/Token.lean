import MergeDecoration.Yaml.Scalar
import MergeDecoration.Number.Numeral
import MergeDecoration.Text.Utf8

/-!
YAML texts as tokens. Blocks have no brackets of their own: their start and end tokens come from
indentation, and a key is known as one only when its colon is found.
-/
namespace MergeDecoration.Yaml

inductive Directive
  | version (major : Nat)
  | handle (name target : String)
  | other
  deriving DecidableEq

inductive Token
  | directive (d : Directive)
  | documentStart
  | documentEnd
  | blockSequenceStart
  | blockMappingStart
  | blockEnd
  | flowSequenceStart
  | flowSequenceEnd
  | flowMappingStart
  | flowMappingEnd
  | blockEntry
  | flowEntry
  | key
  | value
  | alias (name : String)
  | anchor (name : String)
  /-- A tag below a handle, or a whole tag. -/
  | tag (handle : Option String) (suffix : String)
  | scalar (text : String) (isPlain : Bool)
  deriving DecidableEq

/-- A place where a key may have started: the number of its first token and where that stands. A
required one has to turn out to be a key. -/
structure KeyStart where
  token : Nat
  required : Bool
  index : Nat
  line : Nat
  column : Nat

/-- The state of reading tokens. -/
structure Scan where
  cursor : Cursor
  tokens : Array Token := #[]
  /-- How many flow brackets are open. -/
  depth : Nat := 0
  /-- The indentation of the innermost block, -1 outside all blocks, and those around it. -/
  indent : Int := -1
  outer : List Int := []
  keyAllowed : Bool := true
  /-- Where a key may have started, by the number of open brackets there. -/
  starts : List (Nat × KeyStart) := []

namespace Scan

def inFlow (s : Scan) : Bool := s.depth != 0

def column (s : Scan) : Int := s.cursor.column

def push (s : Scan) (t : Token) : Scan := { s with tokens := s.tokens.push t }

/-- Put a token in front of the one with the given number. -/
def insert (s : Scan) (n : Nat) (t : Token) : Scan :=
  { s with tokens := s.tokens.insertIdxIfInBounds n t }

/-- Drop the starts that can no longer be keys: a key lies on one line and has at most 1024
characters. -/
def dropStale (s : Scan) : Except Fault Scan :=
  let isStale (k : KeyStart) : Bool := k.line != s.cursor.line || 1024 < s.cursor.index - k.index
  if s.starts.any fun (_, k) => isStale k && k.required then .error .yaml
  else .ok { s with starts := s.starts.filter fun (_, k) => !isStale k }

/-- Give up the start at the current depth. -/
def dropStart (s : Scan) : Except Fault Scan :=
  if s.starts.any fun (d, k) => d == s.depth && k.required then .error .yaml
  else .ok { s with starts := s.starts.filter fun (d, _) => d != s.depth }

/-- Note that the next token may start a key. -/
def saveStart (s : Scan) : Except Fault Scan :=
  if !s.keyAllowed then .ok s
  else do
    let s ← s.dropStart
    let c := s.cursor
    let required := !s.inFlow && s.indent == s.column
    let start := ⟨s.tokens.size, required, c.index, c.line, c.column⟩
    return { s with starts := (s.depth, start) :: s.starts }

/-- Close the blocks indented by more than the column. -/
def unwind (s : Scan) (column : Int) : Scan :=
  if s.inFlow then s
  else
    let (closed, rest) := (s.indent :: s.outer).span (column < ·)
    match rest with
    | [] => s
    | indent :: outer =>
      let ends := (closed.map fun _ => Token.blockEnd).toArray
      { s with tokens := s.tokens ++ ends, indent, outer }

/-- Whether a block opens at the column, and the state inside it. -/
def indentTo (s : Scan) (column : Int) : Bool × Scan :=
  if s.indent < column then (true, { s with indent := column, outer := s.indent :: s.outer })
  else (false, s)

/-- Skip blanks, comments and line breaks up to the next token. After a line break outside flow
brackets a key may start. -/
def toNext (fuel : Nat) (s : Scan) : Scan :=
  match fuel with
  | 0 => s
  | fuel + 1 =>
    let c := s.cursor.skipSpaces.skipComment
    match c.takeBreak? with
    | some (_, c) => toNext fuel { s with cursor := c, keyAllowed := s.keyAllowed || !s.inFlow }
    | none => { s with cursor := c }

/-- One token of `n` characters. -/
def single (s : Scan) (n : Nat) (t : Token) : Scan :=
  { s.push t with cursor := s.cursor.skip n }

private def takeName (c : Cursor) : Except Fault (String × Cursor) :=
  match c.takeWhile isNameChar with
  | ([], _) => .error .yaml
  | (name, c) => .ok (String.ofList name, c)

private def isTagChar (c : Char) : Bool :=
  c.isAlphanum || "-;/?:@&=+$,_.!~*'()[]".toList.contains c

/-- The bytes of a run of percent codes, and the place behind it. -/
private def percentBytes (fuel : Nat) (bytes : List UInt8) (c : Cursor) :
    Except Fault (List UInt8 × Cursor) :=
  match fuel, c.rest with
  | fuel + 1, '%' :: rest =>
    match rest with
    | a :: b :: _ =>
      match Text.hexValue? a, Text.hexValue? b with
      | some a, some b => percentBytes fuel (UInt8.ofNat (16 * a + b) :: bytes) (c.skip 3)
      | _, _ => .error .yaml
    | _ => .error .yaml
  | _, _ => .ok (bytes.reverse, c)

/-- The name of a tag with its percent codes read. -/
private def takeTagName (fuel : Nat) (text : List Char) (c : Cursor) :
    Except Fault (List Char × Cursor) :=
  match fuel with
  | 0 => .ok (text, c)
  | fuel + 1 => do
    let (part, c) := c.takeWhile isTagChar
    let text := text ++ part
    if c.rest.head? != some '%' then return (text, c)
    let (bytes, c) ← percentBytes c.rest.length [] c
    match Text.Utf8.decode bytes with
    | .ok decoded => takeTagName fuel (text ++ decoded) c
    | .error _ => throw .yaml

private def tagName (c : Cursor) : Except Fault (String × Cursor) := do
  let (name, after) ← takeTagName (c.rest.length + 1) [] c
  if after.index == c.index then throw .yaml
  return (String.ofList name, after)

/-- A handle: `!`, or a name between two of them. -/
private def takeHandle (c : Cursor) : Except Fault (String × Cursor) :=
  match c.rest with
  | '!' :: ' ' :: _ => .ok ("!", c.advance)
  | '!' :: rest =>
    let name := rest.takeWhile isNameChar
    if (rest.drop name.length).head? == some '!' then
      .ok (String.ofList ('!' :: name ++ ['!']), c.skip (name.length + 2))
    else .error .yaml
  | _ => .error .yaml

private def expect (ends : List Char → Bool) (c : Cursor) : Except Fault PUnit :=
  if ends c.rest then .ok ⟨⟩ else .error .yaml

private def takeNumber (c : Cursor) : Except Fault (Nat × Cursor) :=
  match c.takeWhile Char.isDigit with
  | ([], _) => .error .yaml
  | (ds, c) =>
    if Numeral.digitLimit < ds.length then .error (.invalid (.tooManyDigits ds.length))
    else .ok (Numeral.ofDigits ds, c)

/-- The rest of a directive behind its name. -/
private def directiveBody (name : String) (c : Cursor) : Except Fault (Directive × Cursor) := do
  if name == "YAML" then
    let (major, c) ← takeNumber c.skipSpaces
    let (_, c) ← if c.rest.head? == some '.' then takeNumber c.advance else throw .yaml
    expect endsField c
    return (.version major, c)
  else if name == "TAG" then
    let (handle, c) ← takeHandle c.skipSpaces
    if c.rest.head? != some ' ' then throw .yaml
    let (target, c) ← tagName c.skipSpaces
    expect endsField c
    return (.handle handle target, c)
  else return (.other, c.skipWhile (!isBreak ·))

private def directive (s : Scan) : Except Fault Scan := do
  let s ← (s.unwind (-1)).dropStart
  let (name, c) ← takeName s.cursor.advance
  expect endsField c
  let (d, c) ← directiveBody name c
  return { s.push (.directive d) with cursor := ← c.endLine, keyAllowed := false }

private def documentMark (s : Scan) (t : Token) : Except Fault Scan := do
  let s ← (s.unwind (-1)).dropStart
  return { s.single 3 t with keyAllowed := false }

private def openFlow (s : Scan) (t : Token) : Except Fault Scan := do
  let s ← s.saveStart
  return { s.single 1 t with depth := s.depth + 1, keyAllowed := true }

private def closeFlow (s : Scan) (t : Token) : Except Fault Scan := do
  let s ← s.dropStart
  if s.depth = 0 then throw .yaml
  return { s.single 1 t with depth := s.depth - 1, keyAllowed := false }

private def flowEntry (s : Scan) : Except Fault Scan := do
  let s ← s.dropStart
  return { s.single 1 .flowEntry with keyAllowed := true }

/-- Open a block for an entry or a key that stands at the column, where one may stand. -/
private def openBlock (s : Scan) (t : Token) : Except Fault Scan :=
  if s.inFlow then .ok s
  else if !s.keyAllowed then .error .yaml
  else match s.indentTo s.column with
    | (true, s) => .ok (s.push t)
    | (false, s) => .ok s

private def blockEntry (s : Scan) : Except Fault Scan := do
  let s ← (← s.openBlock .blockSequenceStart).dropStart
  return { s.single 1 .blockEntry with keyAllowed := true }

private def explicitKey (s : Scan) : Except Fault Scan := do
  let s ← (← s.openBlock .blockMappingStart).dropStart
  return { s.single 1 .key with keyAllowed := !s.inFlow }

/-- A colon: what may have started a key did so, and if nothing did, it belongs to a key written
out before. -/
private def value (s : Scan) : Except Fault Scan :=
  match s.starts.lookup s.depth with
  | some k =>
    let s := { s with starts := s.starts.filter fun (d, _) => d != s.depth }
    let s := s.insert k.token .key
    let s := if s.inFlow then s else match s.indentTo k.column with
      | (true, s) => s.insert k.token .blockMappingStart
      | (false, s) => s
    .ok { s.single 1 .value with keyAllowed := false }
  | none => do
    let s ← (← s.openBlock .blockMappingStart).dropStart
    return { s.single 1 .value with keyAllowed := !s.inFlow }

private def endsAnchor (s : List Char) : Bool :=
  endsWord s || s.head?.any fun c => "?:,]\x7d%@\x60".toList.contains c

private def anchorLike (s : Scan) (make : String → Token) : Except Fault Scan := do
  let s ← s.saveStart
  let (name, c) ← takeName s.cursor.advance
  expect endsAnchor c
  return { s.push (make name) with cursor := c, keyAllowed := false }

private def takeTag (c : Cursor) : Except Fault (Token × Cursor) := do
  let rest := c.rest.drop 1
  if rest.head? == some '<' then
    let (suffix, c) ← tagName (c.skip 2)
    if c.rest.head? != some '>' then throw .yaml
    return (.tag none suffix, c.advance)
  else if endsWord rest then return (.tag none "!", c.advance)
  else
    let word := rest.takeWhile fun d => d != ' ' && !isBreak d
    let (handle, c) ← if word.contains '!' then takeHandle c else pure ("!", c.advance)
    let (suffix, c) ← tagName c
    return (.tag (some handle) suffix, c)

private def tag (s : Scan) : Except Fault Scan := do
  let s ← s.saveStart
  let (t, c) ← takeTag s.cursor
  expect endsField c
  return { s.push t with cursor := c, keyAllowed := false }

private def block (s : Scan) (folded : Bool) : Except Fault Scan := do
  let s ← s.dropStart
  let (text, c) ← Scalar.block folded s.indent s.cursor.advance
  return { s.push (.scalar (String.ofList text) false) with cursor := c, keyAllowed := true }

private def quoted (s : Scan) (double : Bool) : Except Fault Scan := do
  let s ← s.saveStart
  let c := s.cursor.advance
  let (text, c) ← Scalar.quoted double (c.rest.length + 1) [] c
  return { s.push (.scalar (String.ofList text) false) with cursor := c, keyAllowed := false }

private def plain (s : Scan) : Except Fault Scan := do
  let s ← s.saveStart
  let indent := (s.indent + 1).toNat
  let (text, broken, c) :=
    Scalar.plain s.inFlow indent (s.cursor.rest.length + 1) [] [] false s.cursor
  return { s.push (.scalar (String.ofList text) true) with cursor := c, keyAllowed := broken }

/-- Whether a plain scalar may start with `c`, which `rest` follows. -/
private def startsPlain (inFlow : Bool) (c : Char) (rest : List Char) : Bool :=
  !(isBlankOrBreak c || "-?:,[]\x7b\x7d#&*!|>\x27\"%@\x60".toList.contains c) ||
    (!endsWord rest && (c == '-' || (!inFlow && (c == '?' || c == ':'))))

/-- Read the token that starts with `c`, which `rest` follows. -/
private def token (s : Scan) (c : Char) (rest : List Char) : Except Fault Scan :=
  let flow := s.inFlow
  let atStart := s.cursor.column == 0
  if c == '%' && atStart then s.directive
  else if atStart && isMark '-' (c :: rest) then s.documentMark .documentStart
  else if atStart && isMark '.' (c :: rest) then s.documentMark .documentEnd
  else if c == '[' then s.openFlow .flowSequenceStart
  else if c == '{' then s.openFlow .flowMappingStart
  else if c == ']' then s.closeFlow .flowSequenceEnd
  else if c == '}' then s.closeFlow .flowMappingEnd
  else if c == ',' then s.flowEntry
  else if c == '-' && endsWord rest then s.blockEntry
  else if c == '?' && (flow || endsWord rest) then s.explicitKey
  else if c == ':' && (flow || endsWord rest) then s.value
  else if c == '*' then s.anchorLike .alias
  else if c == '&' then s.anchorLike .anchor
  else if c == '!' then s.tag
  else if c == '|' && !flow then s.block false
  else if c == '>' && !flow then s.block true
  else if c == '\'' then s.quoted false
  else if c == '"' then s.quoted true
  else if startsPlain flow c rest then s.plain
  else .error .yaml

/-- Read the next token, with those that it makes known. True if the text is over. -/
private def next (s : Scan) : Except Fault (Bool × Scan) := do
  let s ← (s.toNext (s.cursor.rest.length + 1)).dropStale
  let s := s.unwind s.column
  match s.cursor.rest with
  | [] => return (true, ← (s.unwind (-1)).dropStart)
  | c :: rest => return (false, ← s.token c rest)

/-- The tokens that are certain: those in front of the first that may still start a key. -/
private def certain (s : Scan) : Array Token :=
  let isOpen (k : KeyStart) : Bool := k.line == s.cursor.line && s.cursor.index - k.index ≤ 1024
  let starts := (s.starts.filter (isOpen ·.2)).map (·.2.token)
  s.tokens.extract 0 (starts.foldl min s.tokens.size)

/-- Read all tokens, or those in front of a fault. -/
private def run (fuel : Nat) (s : Scan) : Array Token × Option Fault :=
  match fuel with
  | 0 => (s.certain, some .yaml)
  | fuel + 1 => match s.next with
    | .ok (false, t) => run fuel t
    | .ok (true, t) => (t.tokens, none)
    | .error f => (s.certain, some f)

end Scan

/-- Characters that a text may hold. -/
def isAllowed (c : Char) : Bool :=
  let n := c.toNat
  n == 9 || n == 10 || n == 13 || (32 ≤ n && n ≤ 126) || n == 0x85 || (0xa0 ≤ n && n ≤ 0xfffd) ||
    0x10000 ≤ n

/-- The tokens of a text, and the fault that ends them if there is one. A byte order mark may stand
in front. -/
def tokens (s : List Char) : Array Token × Option Fault :=
  let start : Cursor := ⟨s, 0, 0, 0⟩
  let cursor := if s.head? == some '\ufeff' then start.advance else start
  if s.all isAllowed then Scan.run (s.length + 2) { cursor } else (#[], some .yaml)

end MergeDecoration.Yaml
