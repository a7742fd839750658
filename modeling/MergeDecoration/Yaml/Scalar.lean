import MergeDecoration.Yaml.Cursor

/-!
The texts of scalars: plain ones, quoted ones, and blocks of lines. Line breaks inside are folded:
a single one becomes a space, and of several the first is dropped.
-/
namespace MergeDecoration.Yaml.Scalar

/-- A line break and those after it as they count in a folded text. -/
def fold (first : Char) (more : List Char) : List Char :=
  (if first ≠ '\n' then [first] else if more.isEmpty then [' '] else []) ++ more

/-- Characters that end a plain scalar, or separate its words; `rest` is what follows. -/
def endsPlain (inFlow : Bool) (c : Char) (rest : List Char) : Bool :=
  let isFlowMark (d : Char) : Bool := [',', '[', ']', '{', '}'].contains d
  isBlankOrBreak c ||
    (c == ':' && (endsWord rest || (inFlow && rest.head?.any isFlowMark))) ||
    (inFlow && (isFlowMark c || c == '?'))

/-- The part of a plain scalar up to the next blank. -/
def plainWord (inFlow : Bool) : List Char → List Char
  | [] => []
  | c :: rest => if endsPlain inFlow c rest then [] else c :: plainWord inFlow rest

/-- The line breaks and spaces that follow a line break in a plain scalar; none at a mark that ends
the document. -/
def plainBreaks (fuel : Nat) (breaks : List Char) (c : Cursor) : Option (List Char) × Cursor :=
  match fuel with
  | 0 => (some breaks.reverse, c)
  | fuel + 1 =>
    let c := c.skipSpaces
    match c.takeBreak? with
    | none => (some breaks.reverse, c)
    | some (b, c) =>
      if isDocumentMark c.rest then (none, c) else plainBreaks fuel (b :: breaks) c

/-- What separates two words of a plain scalar, empty where the scalar ends, and whether a line
ended there. -/
def plainGap (c : Cursor) : List Char × Bool × Cursor :=
  let (spaces, c) := c.takeWhile (· == ' ')
  match c.takeBreak? with
  | none => (spaces, false, c)
  | some (first, c) =>
    if isDocumentMark c.rest then ([], true, c)
    else
      let (more, c) := plainBreaks c.rest.length [] c
      ((more.map (fold first)).getD [], true, c)

/-- A plain scalar whose further lines are indented by `indent` or more. True if its last word is
followed by a line break. -/
def plain (inFlow : Bool) (indent : Nat) (fuel : Nat) (text gap : List Char) (broken : Bool)
    (c : Cursor) : List Char × Bool × Cursor :=
  match fuel, plainWord inFlow c.rest with
  | fuel + 1, w :: word =>
    if c.rest.head? == some '#' then (text, broken, c)
    else
      let text := text ++ gap ++ w :: word
      let (gap, broken, c) := plainGap (c.skip (word.length + 1))
      if gap.isEmpty || c.rest.head? == some '#' || (!inFlow && c.column < indent) then
        (text, broken, c)
      else plain inFlow indent fuel text gap broken c
  | _, _ => (text, broken, c)

/-- The line breaks from here on in a quoted scalar. -/
def quotedBreaks (fuel : Nat) (breaks : List Char) (c : Cursor) :
    Except Fault (List Char × Cursor) :=
  match fuel with
  | 0 => .error .yaml
  | fuel + 1 =>
    if isDocumentMark c.rest then .error .yaml
    else
      let c := c.skipWhile fun d => d == ' ' || d == '\t'
      match c.takeBreak? with
      | some (b, c) => quotedBreaks fuel (b :: breaks) c
      | none => .ok (breaks.reverse, c)

def escapes : List (Char × Char) :=
  [('0', '\x00'), ('a', '\x07'), ('b', '\x08'), ('t', '\t'), ('\t', '\t'), ('n', '\n'),
    ('v', '\x0b'), ('f', '\x0c'), ('r', '\r'), ('e', '\x1b'), (' ', ' '), ('"', '"'), ('\\', '\\'),
    ('/', '/'), ('N', '\x85'), ('_', '\xa0'), ('L', '\u2028'), ('P', '\u2029')]

/-- How many hexadecimal digits follow an escaped letter. -/
def escapeWidth? : Char → Option Nat
  | 'x' => some 2
  | 'u' => some 4
  | 'U' => some 8
  | _ => none

/-- The character with the code that the hexadecimal digits denote. -/
def codePoint (digits : List Char) : Except Fault Char :=
  match digits.mapM Text.hexValue? with
  | none => .error .yaml
  | some ds =>
    let n := ds.foldl (fun n d => 16 * n + d) 0
    if n < 0x110000 then .ok (if n.isValidChar then Char.ofNat n else '\ufffd')
    else if n < Nat.pow 2 31 then .error (.invalid .codePoint)
    else .error .outOfRange

/-- What the characters behind a backslash stand for. -/
def escaped (c : Cursor) : Except Fault (List Char × Cursor) :=
  match c.rest with
  | [] => .error .yaml
  | d :: rest =>
    match escapes.lookup d, escapeWidth? d with
    | some e, _ => .ok ([e], c.advance)
    | none, some n =>
      if rest.length < n then .error .yaml
      else (codePoint (rest.take n)).map fun e => ([e], c.skip (n + 1))
    | none, none => match c.takeBreak? with
      | some (_, c) => quotedBreaks (c.rest.length + 1) [] c
      | none => .error .yaml

/-- A quoted scalar from behind its opening quote; `text` is what was read, last first. -/
def quoted (double : Bool) (fuel : Nat) (text : List Char) (c : Cursor) :
    Except Fault (List Char × Cursor) :=
  match fuel, c.rest with
  | 0, _ | _, [] => .error .yaml
  | fuel + 1, d :: rest => do
    let add (s : List Char) (c : Cursor) := quoted double fuel (s.reverse ++ text) c
    if !double && d == '\'' then
      if rest.head? == some '\'' then add ['\''] (c.skip 2) else return (text.reverse, c.advance)
    else if double && d == '"' then return (text.reverse, c.advance)
    else if double && d == '\\' then
      let (s, c) ← escaped c.advance
      add s c
    else if isBlankOrBreak d then
      let (spaces, c) := c.takeWhile fun d => d == ' ' || d == '\t'
      match c.takeBreak? with
      | none => add spaces c
      | some (first, c) =>
        let (more, c) ← quotedBreaks (c.rest.length + 1) [] c
        add (fold first more) c
    else add [d] c.advance

/-- What happens to the line breaks at the end of a block. -/
inductive Chomping
  | strip
  | clip
  | keep
  deriving DecidableEq

structure BlockHeader where
  chomping : Chomping := .clip
  /-- Indentation against the surrounding block. -/
  indent : Option Nat := none

private def chomping? : List Char → Option Chomping
  | '+' :: _ => some .keep
  | '-' :: _ => some .strip
  | _ => none

private def indentDigit? : List Char → Except Fault (Option Nat)
  | d :: _ =>
    if d == '0' then .error .yaml
    else if d.isDigit then .ok (some (d.toNat - 48)) else .ok none
  | [] => .ok none

/-- The indicators behind `|` or `>`, in either order. -/
def blockHeader (c : Cursor) : Except Fault (BlockHeader × Cursor) := do
  let (h, c) ← match chomping? c.rest with
    | some chomping => do
      let c := c.advance
      match ← indentDigit? c.rest with
      | some n => pure (BlockHeader.mk chomping (some n), c.advance)
      | none => pure (BlockHeader.mk chomping none, c)
    | none => do
      match ← indentDigit? c.rest with
      | some n =>
        let c := c.advance
        match chomping? c.rest with
        | some chomping => pure (BlockHeader.mk chomping (some n), c.advance)
        | none => pure (BlockHeader.mk .clip (some n), c)
      | none => pure (BlockHeader.mk .clip none, c)
  if endsField c.rest then return (h, ← c.endLine) else throw .yaml

/-- The empty lines at the start of a block, and the widest indentation seen among them. -/
def blockStart (fuel : Nat) (breaks : List Char) (widest : Nat) (c : Cursor) :
    List Char × Nat × Cursor :=
  match fuel with
  | 0 => (breaks.reverse, widest, c)
  | fuel + 1 =>
    let c := c.skipSpaces
    let widest := max widest c.column
    match c.takeBreak? with
    | some (b, c) => blockStart fuel (b :: breaks) widest c
    | none => (breaks.reverse, widest, c)

/-- Move up to the indentation of a block. -/
def toIndent (indent : Nat) (c : Cursor) : Cursor :=
  c.skip ((c.rest.takeWhile (· == ' ')).take (indent - c.column)).length

/-- The empty lines from here on in a block. -/
def blockBreaks (indent : Nat) (fuel : Nat) (breaks : List Char) (c : Cursor) :
    List Char × Cursor :=
  match fuel with
  | 0 => (breaks.reverse, c)
  | fuel + 1 =>
    let c := toIndent indent c
    match c.takeBreak? with
    | some (b, c) => blockBreaks indent fuel (b :: breaks) c
    | none => (breaks.reverse, c)

private def startsWithBlank (s : List Char) : Bool := s.head?.any fun d => d == ' ' || d == '\t'

/-- The lines of a block; its text without the last line break, then that one and the ones after
it. -/
def blockLines (folded : Bool) (indent : Nat) (fuel : Nat) (text breaks : List Char) (c : Cursor) :
    (List Char × List Char × List Char) × Cursor :=
  match fuel with
  | 0 => ((text, [], breaks), c)
  | fuel + 1 =>
    if c.column != indent || c.rest.isEmpty then ((text, [], breaks), c)
    else
      let indented := startsWithBlank c.rest
      let (line, c) := c.takeWhile (!isBreak ·)
      let text := text ++ breaks ++ line
      let (ending, c) := match c.takeBreak? with
        | some (b, c) => ([b], c)
        | none => ([], c)
      let (breaks, c) := blockBreaks indent (c.rest.length + 1) [] c
      if c.column == indent && !c.rest.isEmpty then
        let joined :=
          if folded && ending == ['\n'] && !indented && !startsWithBlank c.rest then
            if breaks.isEmpty then [' '] else []
          else ending
        blockLines folded indent fuel (text ++ joined) breaks c
      else ((text, ending, breaks), c)

/-- A block scalar from behind its `|` or `>`, inside a block indented by `outer` (-1 for none). -/
def block (folded : Bool) (outer : Int) (c : Cursor) : Except Fault (List Char × Cursor) := do
  let (header, c) ← blockHeader c
  let least := max 1 (outer + 1).toNat
  let size := c.rest.length + 1
  let (breaks, indent, c) := match header.indent with
    | some n =>
      let indent := least + n - 1
      let (breaks, c) := blockBreaks indent size [] c
      (breaks, indent, c)
    | none =>
      let (breaks, widest, c) := blockStart size [] 0 c
      (breaks, max least widest, c)
  let ((text, ending, breaks), c) := blockLines folded indent size [] breaks c
  return (match header.chomping with
    | .strip => text
    | .clip => text ++ ending
    | .keep => text ++ ending ++ breaks, c)

end MergeDecoration.Yaml.Scalar
