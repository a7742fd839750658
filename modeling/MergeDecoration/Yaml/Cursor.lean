import MergeDecoration.Fault

/-!
Places in a YAML text. Carriage returns are gone by the time a text is read here, so a line ends
with a line feed or one of the three separators beyond ASCII.
-/
namespace MergeDecoration.Yaml

/-- The rest of a text, with the number of characters before it and where it is on its line. -/
structure Cursor where
  rest : List Char
  index : Nat := 0
  line : Nat := 0
  column : Nat := 0

def isBreak (c : Char) : Bool := c == '\n' || c == '\x85' || c == '\u2028' || c == '\u2029'

/-- Which character a line break contributes to a text. -/
def breakText (c : Char) : Char := if c == '\x85' then '\n' else c

def isBlankOrBreak (c : Char) : Bool := c == ' ' || c == '\t' || isBreak c

/-- Whether a word ends here: at a blank, a line break or the end of the text. -/
def endsWord : List Char → Bool
  | [] => true
  | c :: _ => isBlankOrBreak c

/-- Whether a field of a line ends here; tabs do not end one. -/
def endsField : List Char → Bool
  | [] => true
  | c :: _ => c == ' ' || isBreak c

def endsLine : List Char → Bool
  | [] => true
  | c :: _ => isBreak c

/-- Characters of anchors, of aliases and of the names of directives and handles. -/
def isNameChar (c : Char) : Bool := c.isAlphanum || c == '-' || c == '_'

/-- Whether `---` or `...` stands here by itself. -/
def isMark (mark : Char) : List Char → Bool
  | a :: b :: c :: rest => a == mark && b == mark && c == mark && endsWord rest
  | _ => false

def isDocumentMark (s : List Char) : Bool := isMark '-' s || isMark '.' s

namespace Cursor

/-- Move on by one character. A byte order mark has no width. -/
def advance (c : Cursor) : Cursor :=
  match c.rest with
  | [] => c
  | d :: rest =>
    if isBreak d then ⟨rest, c.index + 1, c.line + 1, 0⟩
    else ⟨rest, c.index + 1, c.line, if d = '\ufeff' then c.column else c.column + 1⟩

def skip (c : Cursor) : Nat → Cursor
  | 0 => c
  | n + 1 => c.advance.skip n

def skipWhile (c : Cursor) (p : Char → Bool) : Cursor := c.skip (c.rest.takeWhile p).length

def skipSpaces (c : Cursor) : Cursor := c.skipWhile (· == ' ')

def skipComment (c : Cursor) : Cursor :=
  match c.rest with
  | '#' :: _ => c.skipWhile (!isBreak ·)
  | _ => c

/-- The character of a line break that stands here, and the place behind it. -/
def takeBreak? (c : Cursor) : Option (Char × Cursor) :=
  match c.rest with
  | d :: _ => if isBreak d then some (breakText d, c.advance) else none
  | [] => none

/-- A text of characters that satisfy `p`, and the place behind it. -/
def takeWhile (c : Cursor) (p : Char → Bool) : List Char × Cursor :=
  (c.rest.takeWhile p, c.skipWhile p)

/-- Skip what may follow on a line that is over: spaces, a comment, the line break. -/
def endLine (c : Cursor) : Except Fault Cursor :=
  let c := c.skipSpaces.skipComment
  if endsLine c.rest then .ok c.advance else .error .yaml

end Cursor
end MergeDecoration.Yaml
