import MergeDecoration.Yaml.Document

/-!
Documents as trees. A part that comes more than once is written out at its first place under an
anchor; wherever it comes again, also inside itself, an alias stands for it.
-/
namespace MergeDecoration.Yaml

inductive Tree
  | alias (name : String)
  | leaf (anchor : Option String) (v : Value)
  | list (anchor : Option String) (items : List Tree)
  | pair (first second : Tree)
  | set (anchor : Option String) (members : List Tree)
  | map (anchor : Option String) (entries : List (Tree × Tree))

namespace Document

/-- Whether a part may have an anchor: collections and dates may. -/
def mayRepeat : Part → Bool
  | .leaf (.date _) | .leaf (.moment _) => true
  | .leaf _ => false
  | _ => true

def partsIn : Part → List Nat
  | .leaf _ => []
  | .list items | .set items => items
  | .pairs items | .map items => items.flatMap fun e => [e.1, e.2]

/-- The parts met once on a walk, and those met again, in the order in which they were. -/
structure Met where
  once : List Nat := []
  again : List Nat := []

/-- Walk through a part and all parts in it. The fuel is more than the number of parts. -/
def walk (d : Document) (fuel : Nat) (n : Nat) : StateM Met PUnit :=
  match fuel with
  | 0 => return
  | fuel + 1 => do
    let p := d.part n
    if !mayRepeat p then return
    let m ← get
    if !m.once.contains n then
      set { m with once := n :: m.once }
      (partsIn p).forM (d.walk fuel)
    else if !m.again.contains n then set { m with again := m.again ++ [n] }

/-- The parts that come more than once. -/
def repeated (d : Document) : List Nat :=
  ((d.walk (d.parts.size + 1) d.root).run {}).2.again

/-- The name of the anchor with an index. -/
def anchorName (i : Nat) : String :=
  let ds := Nat.toDigits 10 (i + 1)
  "id" ++ String.ofList (List.replicate (3 - ds.length) '0' ++ ds)

/-- How deep a document may be that is written. -/
def writeDepth : Nat := 323

/-- The tree of a part. The state holds the parts that have their anchors already. -/
def treeAt (d : Document) (repeated : List Nat) (fuel : Nat) (n : Nat) :
    StateT (List Nat) (Except Fault) Tree :=
  match fuel with
  | 0 => throw .tooDeep
  | fuel + 1 => do
    let anchor := (repeated.idxOf? n).map anchorName
    match anchor with
    | none => pure ()
    | some name => if (← get).contains n then return .alias name else modify (n :: ·)
    let inside := d.treeAt repeated fuel
    let both (e : Nat × Nat) := return (← inside e.1, ← inside e.2)
    match d.part n with
    | .leaf v => if v.isWritable then return .leaf anchor v else throw (.invalid .unwritable)
    | .list items => return .list anchor (← items.mapM inside)
    | .pairs items => return .list anchor ((← items.mapM both).map fun e => .pair e.1 e.2)
    | .set members => return .set anchor (← members.mapM inside)
    | .map entries => return .map anchor (← entries.mapM both)

def tree (d : Document) : Except Fault Tree :=
  (d.treeAt d.repeated writeDepth d.root).run' []

end Document
end MergeDecoration.Yaml
