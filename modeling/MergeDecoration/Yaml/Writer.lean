import MergeDecoration.Text.Base64
import MergeDecoration.Value.Shown
import MergeDecoration.Yaml.Tree

/-!
Writing YAML in ASCII: collections as blocks unless they are empty, mappings in their order, and
each scalar in the plainest style that reads back. Lines are folded at blanks beyond column 80.
-/
namespace MergeDecoration.Yaml

def foldColumn : Nat := 80

/-- Text written so far, the column it ends at, whether that is behind a blank, and whether nothing
but indentation and entry marks stand on the line. -/
structure Page where
  text : List String := []
  column : Nat := 0
  spaced : Bool := true
  fresh : Bool := true

namespace Page

def put (p : Page) (s : String) : Page :=
  { p with text := s :: p.text, column := p.column + s.length }

def putChars (p : Page) (cs : List Char) : Page := p.put (String.ofList cs)

/-- Write a mark, behind a blank if it needs one. -/
def mark (p : Page) (s : String) (blankBefore : Bool) (keepsFresh : Bool := false) : Page :=
  let q := p.put (if p.spaced || !blankBefore then s else " " ++ s)
  { q with spaced := false, fresh := p.fresh && keepsFresh }

def breakLine (p : Page) (c : Char := '\n') : Page :=
  { p with text := String.ofList [c] :: p.text, column := 0, spaced := true, fresh := true }

/-- Go to the column of an indentation, on a new line unless this one is still fresh. -/
def indentTo (p : Page) (n : Nat) : Page :=
  let p := if !p.fresh || n < p.column || (p.column == n && !p.spaced) then p.breakLine else p
  if p.column < n then { p.putChars (List.replicate (n - p.column) ' ') with spaced := true } else p

/-- Nothing written so far may be read on with. -/
def inside (p : Page) : Page := { p with spaced := false, fresh := false }

def result (p : Page) : String := String.join p.text.reverse

end Page

/-- Which styles a text admits. -/
structure Styles where
  multiline : Bool
  plain : Bool
  single : Bool
  block : Bool

/-- The marks that a plain scalar may not hold: some only at its start, some before or after
blanks. -/
def hasMarks (s : List Char) : Bool :=
  let starts := match s with
    | c :: rest => "#,[]\x7b\x7d&*!|>\x27\"%@\x60".toList.contains c ||
        ((c == '?' || c == ':' || c == '-') && endsWord rest)
    | [] => false
  starts || "---".toList.isPrefixOf s || "...".toList.isPrefixOf s || inner s
where
  inner : List Char → Bool
    | c :: d :: rest =>
      (d == ':' && endsWord rest) || (d == '#' && isBlankOrBreak c) || inner (d :: rest)
    | _ => false

/-- Whether two neighbours satisfy `p` and `q`. -/
def hasNeighbours (p q : Char → Bool) : List Char → Bool
  | c :: d :: rest => p c && q d || hasNeighbours p q (d :: rest)
  | _ => false

def styles (s : List Char) : Styles :=
  let isSpace (c : Char) : Bool := c == ' '
  let isEdge (c : Char) : Bool := isSpace c || isBreak c
  let edges := s.head?.any isEdge || s.getLast?.any isEdge
  let special := s.any fun c => !(c == '\n' || (' ' ≤ c && c ≤ '~'))
  let spaceBreak := hasNeighbours isSpace isBreak s
  let breakSpace := hasNeighbours isBreak isSpace s
  let multiline := s.any isBreak
  let onlyDouble := special || spaceBreak
  { multiline
    plain := s.isEmpty || !(onlyDouble || edges || breakSpace || multiline || hasMarks s)
    single := !(onlyDouble || breakSpace)
    block := !(s.isEmpty || onlyDouble || s.getLast?.any isSpace) }

private def isSpaceRun (s : List Char) : Bool := s.head? == some ' '

/-- Maximal runs of spaces, of line breaks and of other characters. -/
def runs (s : List Char) : List (List Char) :=
  let kind (c : Char) : Nat := if c == ' ' then 0 else if isBreak c then 1 else 2
  s.splitBy fun c d => kind c == kind d

/-- Write words, folding at single spaces between them. -/
def putPlain (indent : Nat) (split : Bool) (p : Page) (s : List Char) : Page :=
  let p := if p.spaced then p else p.put " "
  (runs s).foldl (fun p run =>
    if run == [' '] && foldColumn < p.column && split then (p.indentTo indent).inside
    else p.putChars run) p.inside

private def putBreaks (indent : Nat) (p : Page) (run : List Char) : Page :=
  let p := if run.head? == some '\n' then p.breakLine else p
  (run.foldl (fun p c => p.breakLine c) p).indentTo indent

/-- Write a text between single quotes, each of its own doubled. -/
def putSingle (indent : Nat) (split : Bool) (p : Page) (s : List Char) : Page :=
  let step (acc : Nat × Page) (run : List Char) : Nat × Page :=
    let (start, p) := acc
    let stop := start + run.length
    let isInner := start != 0 && stop != s.length
    let p :=
      if isSpaceRun run then
        if run.length == 1 && foldColumn < p.column && split && isInner then p.indentTo indent
        else p.putChars run
      else if run.any isBreak then putBreaks indent p run
      else p.putChars (run.flatMap fun c => if c == '\'' then ['\'', '\''] else [c])
    (stop, p)
  ((runs s).foldl step (0, p.mark "'" true)).2.mark "'" false

private def shortEscapes : List (Char × Char) :=
  [('\x00', '0'), ('\x07', 'a'), ('\x08', 'b'), ('\t', 't'), ('\n', 'n'), ('\x0b', 'v'),
    ('\x0c', 'f'), ('\r', 'r'), ('\x1b', 'e'), ('"', '"'), ('\\', '\\'), ('\x85', 'N'),
    ('\xa0', '_'), ('\u2028', 'L'), ('\u2029', 'P')]

/-- The escape of a character between double quotes, if it needs one. -/
def escape? (c : Char) : Option (List Char) :=
  let n := c.toNat
  let hex (mark : Char) (width : Nat) : List Char :=
    '\\' :: mark :: (Text.hexDigits width n).map Char.toUpper
  match shortEscapes.lookup c with
  | some e => some ['\\', e]
  | none =>
    if 32 ≤ n ∧ n ≤ 126 then none
    else if n ≤ 0xff then some (hex 'x' 2)
    else if n ≤ 0xffff then some (hex 'u' 4)
    else some (hex 'U' 8)

/-- End a line inside double quotes; a space that follows is escaped. -/
private def foldDouble (indent : Nat) (p : Page) (next : Option Char) : Page :=
  let p := ((p.put "\\").indentTo indent).inside
  if next == some ' ' then p.put "\\" else p

/-- Write the characters between double quotes. `pending` are those held back, last first, and
`first` is true for the first character. -/
def putDoubleChars (indent : Nat) (split : Bool) (p : Page) (pending : List Char) (first : Bool) :
    List Char → Page
  | [] => p.putChars pending.reverse
  | c :: rest =>
    let mayFold := split && !first && !rest.isEmpty
    match escape? c with
    | some e =>
      let p := (p.putChars pending.reverse).putChars e
      let p := if mayFold && foldColumn + 1 < p.column then foldDouble indent p rest.head? else p
      putDoubleChars indent split p [] false rest
    | none =>
      if mayFold && (c == ' ' || pending.isEmpty) && foldColumn < p.column + pending.length then
        putDoubleChars indent split
          (foldDouble indent (p.putChars pending.reverse) (some c)) [c] false rest
      else putDoubleChars indent split p (c :: pending) false rest

def putDouble (indent : Nat) (split : Bool) (p : Page) (s : List Char) : Page :=
  (putDoubleChars indent split (p.mark "\"" true) [] true s).mark "\"" false

/-- Write lines that end with a line feed each as a block. -/
def putLiteral (indent : Nat) (p : Page) (lines : List (List Char)) : Page :=
  lines.foldl (fun p line => ((p.indentTo indent).putChars line).breakLine)
    (p.mark "|" true).breakLine

private def piecesOf (n : Nat) (fuel : Nat) (s : List UInt8) : List (List UInt8) :=
  match fuel, s with
  | fuel + 1, _ :: _ => s.take n :: piecesOf n fuel (s.drop n)
  | _, _ => []

/-- The text of a number, with a point before an exponent. -/
def realText (x : Binary64) : String :=
  if x.isNaN then ".nan"
  else if x.isInfinite then (if x.isNegative then "-.inf" else ".inf")
  else
    let s := x.toText.toList
    let whole := s.takeWhile (· != 'e')
    if whole.contains '.' || whole.length = s.length then x.toText
    else String.ofList (whole ++ ['.', '0'] ++ s.drop whole.length)

/-- A scalar's text and its tag; binary data and collections have none here. -/
def plainText? : Value → Option (String × Tag)
  | .null => some ("null", .null)
  | .bool b => some (toString b, .bool)
  | .int i => some (toString i, .int)
  | .float x => some (realText x, .float)
  | .text s => some (s, .text)
  | .date d => some (d.iso, .timestamp)
  | .moment m => some (m.iso " ", .timestamp)
  | _ => none

/-- The length of a tag with its handle. -/
private def tagLength (tag : Tag) : Nat :=
  ((Tag.names.find? (·.2 == tag)).map (·.1.length + 2)).getD 0

/-- Write a scalar: plain if that reads back as the same, else in quotes. -/
def putScalar (indent : Nat) (isKey : Bool) (p : Page) (text : String) (tag : Tag) : Page :=
  let s := text.toList
  let allowed := styles s
  let oneLine := !(isKey && allowed.multiline)
  if Plain.tag text == tag && oneLine && allowed.plain then putPlain indent (!isKey) p s
  else if allowed.single && oneLine then putSingle indent (!isKey) p s
  else putDouble indent (!isKey) p s

def putBytes (indent : Nat) (p : Page) (bs : List UInt8) : Page :=
  let p := p.mark "!!binary" true
  match (piecesOf 57 bs.length bs).map Text.Base64.encode with
  | [] => putDouble indent true p []
  | lines => putLiteral indent p lines

/-- The anchor in front of a node, if it has one. -/
def putAnchor (p : Page) : Option String → Page
  | none => p
  | some name => p.mark ("&" ++ name) true

def anchorLength (anchor : Option String) : Nat := (anchor.map String.length).getD 0

/-- Whether a key can stand in front of its colon: on one line, not empty, and not too long. -/
def isSimpleKey : Tree → Bool
  | .alias _ => true
  | .leaf anchor v => match plainText? v with
    | some (text, tag) =>
      text != "" && !(styles text.toList).multiline &&
        anchorLength anchor + tagLength tag + text.length < 128
    | none => false
  | _ => false

/-- The indentation inside a block, given the one outside. -/
def deeper (indent : Option Nat) (outermost : Nat) : Nat :=
  match indent with
  | none => outermost
  | some n => n + 2

/-- Write a value that is no collection. -/
def putLeaf (indent : Option Nat) (isKey : Bool) (p : Page) (v : Value) : Page :=
  match v, plainText? v with
  | .bytes bs, _ => putBytes (deeper indent 2) p bs
  | _, some (text, tag) => putScalar (deeper indent 2) isKey p text tag
  | _, none => p

/-- Write a key, which is no collection. -/
def putKeyNode (indent : Nat) (isSimple : Bool) (p : Page) : Tree → Page
  | .alias name => p.mark ("*" ++ name) true
  | .leaf anchor v => putLeaf (some indent) isSimple (putAnchor p anchor) v
  | _ => p

/-- Write a key and its colon. -/
def putKey (indent : Nat) (p : Page) (k : Tree) : Page :=
  let p := p.indentTo indent
  if isSimpleKey k then (putKeyNode indent true p k).mark ":" false
  else
    let p := putKeyNode indent false (p.mark "?" true true) k
    (p.indentTo indent).mark ":" true true

/-- Write the members of a set, as keys without values. -/
def putMembers (indent : Nat) (p : Page) (xs : List Tree) : Page :=
  xs.foldl (fun p x => putLeaf (some indent) false (putKey indent p x) .null) p

/-- The indentation of the items of a sequence; below a key they need none of their own. -/
def itemIndent (indent : Option Nat) (belowKey : Bool) (p : Page) : Nat :=
  if belowKey && !p.fresh then indent.getD 0 else deeper indent 0

mutual

/-- Write a tree inside a block with the given indentation. -/
def putTree (indent : Option Nat) (belowKey : Bool) (p : Page) : Tree → Page
  | .alias name => p.mark ("*" ++ name) true
  | .leaf anchor v => putLeaf indent false (putAnchor p anchor) v
  | .list anchor [] => (putAnchor p anchor).mark "[]" true
  | .list anchor xs =>
    let p := putAnchor p anchor
    putItems (itemIndent indent belowKey p) p xs
  | .pair a b =>
    let p := p.mark "!!python/tuple" true
    let n := itemIndent indent belowKey p
    let p := putTree (some n) false ((p.indentTo n).mark "-" true true) a
    putTree (some n) false ((p.indentTo n).mark "-" true true) b
  | .map anchor [] => (putAnchor p anchor).mark "\x7b\x7d" true
  | .map anchor es => putEntries (deeper indent 0) (putAnchor p anchor) es
  | .set anchor [] => ((putAnchor p anchor).mark "!!set" true).mark "\x7b\x7d" true
  | .set anchor xs => putMembers (deeper indent 0) ((putAnchor p anchor).mark "!!set" true) xs

def putItems (indent : Nat) (p : Page) : List Tree → Page
  | [] => p
  | x :: xs =>
    putItems indent (putTree (some indent) false ((p.indentTo indent).mark "-" true true) x) xs

def putEntries (indent : Nat) (p : Page) : List (Tree × Tree) → Page
  | [] => p
  | (k, v) :: es => putEntries indent (putTree (some indent) true (putKey indent p k) v) es

end

/-- The text of a document. -/
def write (d : Document) : Except Fault String := do
  return ((putTree none false {} (← d.tree)).indentTo 0).result

end MergeDecoration.Yaml
