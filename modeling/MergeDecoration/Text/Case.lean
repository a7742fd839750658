import MergeDecoration.Text.Edges
import MergeDecoration.Text.CaseTable

/-!
Upper, lower and title case of whole texts. A mapping may lengthen the text, and a capital sigma
becomes a final one where its word ends.
-/
namespace MergeDecoration.Text

def shifted? (runs : List CaseRun) (n : Nat) : Option Nat :=
  (runs.find? fun r => r.first ≤ n && n ≤ r.last && (n - r.first) % r.stride == 0).map
    fun r => (Int.ofNat n + r.shift).toNat

def expanded? (table : List (Nat × List Nat)) (n : Nat) : Option (List Char) :=
  (table.find? (·.1 == n)).map fun e => e.2.map Char.ofNat

/-- Upper case of one character. -/
def upperChar (c : Char) : List Char :=
  if c.toNat < 0x80 then [c.toUpper]
  else (expanded? upperExpansions c.toNat).getD
    [((shifted? upperRuns c.toNat).map Char.ofNat).getD c]

/-- Lower case of one character by itself. -/
def lowerChar (c : Char) : List Char :=
  if c.toNat < 0x80 then [c.toLower]
  else if c.toNat = 0x130 then ['i', Char.ofNat 0x307]
  else [((shifted? lowerRuns c.toNat).map Char.ofNat).getD c]

/-- Title case of one character: its upper case, with a few exceptions. -/
def titleChar (c : Char) : List Char :=
  if c.toNat < 0x80 then [c.toUpper]
  else match expanded? titleExpansions c.toNat, shifted? titleRuns c.toNat with
    | some cs, _ => cs
    | none, some n => [Char.ofNat n]
    | none, none => upperChar c

def isCased (c : Char) : Bool := withinEdges casedEdges c.toNat

def isCaseIgnorable (c : Char) : Bool := withinEdges caseIgnorableEdges c.toNat

/-- Whether the nearest character that is not case-ignorable is cased. -/
def nearestIsCased (cs : List Char) : Bool :=
  match cs.dropWhile isCaseIgnorable with
  | [] => false
  | c :: _ => isCased c

/-- Lower case of `c` between `before` (nearest first) and `after`. -/
def lowerIn (before : List Char) (c : Char) (after : List Char) : List Char :=
  if c.toNat = 0x3a3 then
    [Char.ofNat (if nearestIsCased before && !nearestIsCased after then 0x3c2 else 0x3c3)]
  else lowerChar c

def lowerFrom (before : List Char) : List Char → List Char
  | [] => []
  | c :: rest => lowerIn before c rest ++ lowerFrom (c :: before) rest

def titleFrom (before : List Char) : List Char → List Char
  | [] => []
  | c :: rest =>
    (if (before.head?.map isCased).getD false then lowerIn before c rest else titleChar c) ++
      titleFrom (c :: before) rest

def upper (s : String) : String := String.ofList (s.toList.flatMap upperChar)

def lower (s : String) : String := String.ofList (lowerFrom [] s.toList)

/-- Title case: a cased character after another is lowered, any other starts a word. -/
def title (s : String) : String := String.ofList (titleFrom [] s.toList)

end MergeDecoration.Text
