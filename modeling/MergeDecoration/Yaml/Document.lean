import MergeDecoration.Yaml.Literal
import MergeDecoration.Yaml.Node

/-!
Documents. What a document holds is known only part by part, from the root outwards: collections
are made empty where they are first met, and filled in the order in which they were met. So a part
may stand in several places, even inside itself, and of several faults the one met first counts.
-/
namespace MergeDecoration.Yaml

/-- A part of a document; the parts in it are given by their numbers. -/
inductive Part
  | leaf (v : Value)
  | list (items : List Nat)
  | pairs (items : List (Nat × Nat))
  | set (members : List Nat)
  | map (entries : List (Nat × Nat))
  deriving Inhabited

/-- The parts of a document. One that stands in several places is still one part. -/
structure Document where
  parts : Array Part
  root : Nat

namespace Part

def isLeaf : Part → Bool
  | leaf _ => true
  | _ => false

/-- The value of a part that may be a key; collections may not. -/
def key? : Part → Option Value
  | leaf v => some v
  | _ => none

end Part

/-- A document while it is made: its nodes, in which merge keys are carried out one by one, the
parts made of them, and the collections still to be filled, the latest first. -/
structure Making where
  nodes : Array Node
  parts : Array (Option Part)
  waiting : List Nat := []

abbrev Maker := StateT Making (Except Fault)

namespace Maker

def node (n : Nat) : Maker Node := do return (← get).nodes.getD n .empty

def setNode (n : Nat) (content : Node) : Maker PUnit :=
  modify fun s => { s with nodes := s.nodes.setIfInBounds n content }

def setPart (n : Nat) (p : Part) : Maker PUnit :=
  modify fun s => { s with parts := s.parts.setIfInBounds n (some p) }

def isTagged (tag : Tag) (n : Nat) : Maker Bool := do return (← node n).tag == tag

/-- The text of a node where a scalar is needed: a mapping has one under its own key. The fuel is
the number of nodes; a longer way goes round in a circle. -/
def ownText (fuel : Nat) (n : Nat) : Maker String :=
  match fuel with
  | 0 => throw .tooDeep
  | fuel + 1 => do
    match ← node n with
    | .scalar _ text => return text
    | .sequence .. => throw .yaml
    | .mapping _ entries =>
      match ← entries.findM? (isTagged .default ·.1) with
      | some (_, v) => ownText fuel v
      | none => throw .yaml

/-- The value of a node with the tag of a scalar. -/
def literal (n : Nat) (tag : Tag) : Maker Value := do
  let text ← ownText ((← get).nodes.size + 1) n
  match tag, ← node n with
  | .timestamp, .mapping .. => throw (.misuse (.timestampFrom "list"))
  | _, _ => Literal.value n tag text

/-- The part that a node becomes, without its contents. -/
def shell (n : Nat) : Maker Part := do
  match (← node n).tag with
  | .sequence => return .list []
  | .orderedMap | .pairs => return .pairs []
  | .set => return .set []
  | .mapping => return .map []
  | .merge | .default | .unknown => throw .yaml
  | tag => return .leaf (← literal n tag)

/-- The part of a node, made now if it was not made before. -/
def begin (n : Nat) : Maker Part := do
  match ((← get).parts[n]?).join with
  | some p => return p
  | none =>
    let p ← shell n
    setPart n p
    if !p.isLeaf then modify fun s => { s with waiting := n :: s.waiting }
    return p

def entriesOf (n : Nat) : Maker (List (Nat × Nat)) := do
  match ← node n with
  | .mapping _ entries => return entries
  | _ => throw .yaml

def setEntries (n : Nat) (entries : List (Nat × Nat)) : Maker PUnit := do
  setNode n (.mapping (← node n).tag entries)

/-- The entries up to the first merge key. -/
def beforeMerge : List (Nat × Nat) → Maker (List (Nat × Nat))
  | [] => return []
  | e :: rest => do
    if ← isTagged .merge e.1 then return [] else return e :: (← beforeMerge rest)

/-- A mapping's own key is a text among its other keys. -/
def plainKey (n : Nat) : Maker PUnit := do
  if ← isTagged .default n then setNode n ((← node n).retag .text)

/-- Carry out the merge keys of a mapping from an entry on, `taken` being taken over so far. What
is taken over stands in front, the entries of earlier mappings of a list after those of later ones.
A mapping may take over itself; the fuel is more than the number of merge keys. -/
def merge (fuel : Nat) (n start : Nat) (taken : List (Nat × Nat)) : Maker PUnit :=
  match fuel with
  | 0 => throw .tooDeep
  | fuel + 1 => do
    let entries ← entriesOf n
    let before ← beforeMerge (entries.drop start)
    before.forM fun e => plainKey e.1
    let stop := start + before.length
    match entries.drop stop with
    | [] => setEntries n (taken ++ entries)
    | (_, source) :: rest =>
      setEntries n (entries.take stop ++ rest)
      let merged (m : Nat) : Maker (List (Nat × Nat)) := do
        discard (entriesOf m)
        merge fuel m 0 []
        entriesOf m
      let more ← match ← node source with
        | .sequence _ items => (·.reverse.flatten) <$> items.mapM merged
        | _ => merged source
      merge fuel n stop (taken ++ more)

/-- The entries with a value stored under a key: in the key's place if it has one. -/
def store (entries : List (Nat × Nat)) (k v : Nat) : Maker (List (Nat × Nat)) := do
  let some key := (← begin k).key? | throw .yaml
  discard (begin v)
  let parts := (← get).parts
  let isSame (m : Nat) : Bool := ((parts[m]?.join).bind Part.key?).any (·.sameKey key)
  if entries.any (isSame ·.1) then
    return entries.map fun e => if isSame e.1 then (e.1, v) else e
  else return entries ++ [(k, v)]

/-- The entries of a mapping after its merge keys, each key once. -/
def entries (n : Nat) : Maker (List (Nat × Nat)) := do
  let size := (← get).nodes.foldl (fun size m => size + match m with
    | .mapping _ es => es.length
    | _ => 0) 1
  merge size n 0 []
  (← entriesOf n).foldlM (fun es e => store es e.1 e.2) []

/-- An item of an ordered mapping: a mapping with one entry. -/
def soleEntry (n : Nat) : Maker (Nat × Nat) := do
  match ← node n with
  | .mapping _ [(k, v)] =>
    discard (begin k)
    discard (begin v)
    return (k, v)
  | _ => throw .yaml

/-- Fill a collection. -/
def fill (n : Nat) : Maker PUnit := do
  match ← begin n, ← node n with
  | .list _, .sequence _ items =>
    items.forM fun m => discard (begin m)
    setPart n (.list items)
  | .pairs _, .sequence _ items => setPart n (.pairs (← items.mapM soleEntry))
  | .set _, .mapping .. => setPart n (.set ((← entries n).map (·.1)))
  | .map _, .mapping .. => setPart n (.map (← entries n))
  | _, _ => throw .yaml

/-- Fill what is waiting, and then what was met on the way. Each round makes a part at least. -/
def fillAll (fuel : Nat) : Maker PUnit :=
  match fuel with
  | 0 => return
  | fuel + 1 => do
    let waiting := (← get).waiting
    if waiting.isEmpty then return
    modify fun s => { s with waiting := [] }
    waiting.reverse.forM fill
    fillAll fuel

end Maker

namespace Document

/-- The document that nodes describe. -/
def ofGraph (g : Graph) : Except Fault Document := do
  let size := g.nodes.size
  let make : Maker PUnit := do
    discard (Maker.begin g.root)
    Maker.fillAll (size + 1)
  let (_, s) ← make.run { nodes := g.nodes, parts := Array.replicate size none }
  return ⟨s.parts.map (·.getD default), g.root⟩

/-- The document that holds nothing. -/
def nothing : Document := ⟨#[.leaf .null], 0⟩

/-- The only document of a text, or nothing. -/
def read (text : String) : Except Fault Document := do
  let (ts, fault) := tokens text.toList
  match ← Graph.ofTokens ts fault with
  | none => return nothing
  | some g => ofGraph g

def part (d : Document) (n : Nat) : Part := d.parts.getD n default

/-- The values of parts found so far. -/
abbrev Found := Array (Option Value)

/-- The value of a part, and whether anything in it is inside itself; if not, the value is the
same everywhere. `around` are the parts that are being read; the fuel is more than the number of
parts. -/
def valueAt (d : Document) (fuel : Nat) (around : List Nat) (n : Nat) :
    StateM Found (Value × Bool) :=
  match fuel with
  | 0 => return (.null, true)
  | fuel + 1 => do
    let p := d.part n
    if around.contains n then return (.itself (p matches .map _), true)
    if let some v := ((← get)[n]?).join then return (v, false)
    let inside (m : Nat) := d.valueAt fuel (n :: around) m
    let both (e : Nat × Nat) : StateM Found ((Value × Value) × Bool) := do
      let (k, loopsK) ← inside e.1
      let (v, loopsV) ← inside e.2
      return ((k, v), loopsK || loopsV)
    let (v, loops) ← match p with
      | .leaf v => pure (v, false)
      | .list items => do
        let rs ← items.mapM inside
        pure (Value.list (rs.map (·.1)), rs.any (·.2))
      | .pairs items => do
        let rs ← items.mapM both
        pure (Value.list (rs.map fun r => .pair r.1.1 r.1.2), rs.any (·.2))
      | .set members => do
        let rs ← members.mapM inside
        pure (Value.set (rs.map (·.1)), rs.any (·.2))
      | .map entries => do
        let rs ← entries.mapM both
        pure (Value.map (rs.map (·.1)), rs.any (·.2))
    if !loops then modify (·.setIfInBounds n (some v))
    return (v, loops)

/-- The value of a part that is taken out of all parts around it. -/
def taken (d : Document) (n : Nat) : StateM Found Value :=
  (·.1) <$> d.valueAt (d.parts.size + 1) [] n

def takenEntry (d : Document) (e : Nat × Nat) : StateM Found (Value × Value) :=
  return (← d.taken e.1, ← d.taken e.2)

/-- The value of a part whose own parts are taken out of it, and those of its lists too. -/
def opened (d : Document) (n : Nat) : StateM Found Value :=
  match d.part n with
  | .list items => .list <$> items.mapM fun m =>
    match d.part m with
    | .list items => .list <$> items.mapM d.taken
    | _ => d.taken m
  | .pairs items => return .list ((← items.mapM d.takenEntry).map fun e => .pair e.1 e.2)
  | .map entries => .map <$> entries.mapM d.takenEntry
  | _ => d.taken n

/-- The value of a document, in which nothing is shared. Entries and pairs at the root are taken
out, since they are used by themselves. -/
def value (d : Document) : Value :=
  (Id.run ((d.opened d.root).run (Array.replicate d.parts.size none))).1

/-- Add a part without contents. -/
def addLeaf (d : Document) (v : Value) : Nat × Document :=
  (d.parts.size, { d with parts := d.parts.push (.leaf v) })

/-- Store a value under a key of the root, if that is a mapping; a set has it as a member. -/
def store (d : Document) (key value : Value) : Except Fault Document := do
  let isKey (m : Nat) : Bool := ((d.part m).key?).any (·.sameKey key)
  let (k, d) := d.addLeaf key
  let (v, d) := d.addLeaf value
  let p ← match d.part d.root with
    | .map entries =>
      if entries.any (isKey ·.1) then
        pure (Part.map (entries.map fun e => if isKey e.1 then (e.1, v) else e))
      else pure (.map (entries ++ [(k, v)]))
    | .set members => pure (.set (if members.any isKey then members else members ++ [k]))
    | _ => throw .noOperation
  return { d with parts := d.parts.setIfInBounds d.root p }

/-- The document with one empty mapping. -/
def emptyMap : Document := ⟨#[.map []], 0⟩

end Document

/-- The value of the only document of a text, null if there is none. -/
def read (text : String) : Except Fault Value := do return (← Document.read text).value

end MergeDecoration.Yaml
