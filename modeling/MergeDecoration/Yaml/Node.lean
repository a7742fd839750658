import MergeDecoration.Yaml.Plain
import MergeDecoration.Yaml.Token

/-!
The nodes of a YAML document: tagged scalars, sequences and mappings. Nodes have numbers, and an
alias is the number of the node that its anchor names. A node may so be inside itself.
-/
namespace MergeDecoration.Yaml

/-- A node; the nodes in it are given by their numbers. -/
inductive Node
  | scalar (tag : Tag) (text : String)
  | sequence (tag : Tag) (items : List Nat)
  | mapping (tag : Tag) (entries : List (Nat × Nat))

/-- The nodes of a document by number. -/
structure Graph where
  nodes : Array Node
  root : Nat

namespace Node

def tag : Node → Tag
  | .scalar tag _ | .sequence tag _ | .mapping tag _ => tag

/-- The same node under another tag. -/
def retag (tag : Tag) : Node → Node
  | .scalar _ text => .scalar tag text
  | .sequence _ items => .sequence tag items
  | .mapping _ entries => .mapping tag entries

/-- What stands where nothing is written. -/
def empty : Node := .scalar .null ""

/-- How deep collections may lie inside each other. -/
def depthLimit : Nat := 485

/-- The tokens left and the fault that ends them if one does, the nodes read so far, the anchors
of the document, what its tag handles stand for, and how many collections are open. -/
structure Reading where
  tokens : List Token
  fault : Option Fault := none
  nodes : Array Node := #[]
  anchors : List (String × Nat) := []
  handles : List (String × String) := []
  depth : Nat := 0

abbrev Reader := StateT Reading (Except Fault)

namespace Reader

def fail {α : Type} : Reader α := throw .yaml

def peek? : Reader (Option Token) := do
  let s ← get
  match s.tokens, s.fault with
  | [], some f => throw f
  | ts, _ => return ts.head?

def drop : Reader PUnit := modify fun s => { s with tokens := s.tokens.drop 1 }

/-- Whether one of the tokens comes next. -/
def isNext (ts : List Token) : Reader Bool := do
  return (← peek?).any ts.contains

/-- Drop the token if it comes next. -/
def accept (t : Token) : Reader Bool := do
  if ← isNext [t] then
    drop
    return true
  else return false

def expect (t : Token) : Reader PUnit := do
  if !(← accept t) then fail

def takeAnchor? : Reader (Option String) := do
  match ← peek? with
  | some (.anchor name) => do
    drop
    return some name
  | _ => return none

def takeTag? : Reader (Option (Option String × String)) := do
  match ← peek? with
  | some (.tag handle suffix) => do
    drop
    return some (handle, suffix)
  | _ => return none

/-- An anchor and a tag, in either order. -/
def properties : Reader (Option String × Option (Option String × String)) := do
  match ← takeAnchor? with
  | some name => return (some name, ← takeTag?)
  | none =>
    let tag ← takeTag?
    if tag.isSome then return (← takeAnchor?, tag) else return (none, none)

/-- The full name of a tag. -/
def tagName : Option String × String → Reader String
  | (none, suffix) => return suffix
  | (some handle, suffix) => do
    match (← get).handles.lookup handle with
    | some stem => return stem ++ suffix
    | none => fail

/-- Add a node, under a new anchor if it has one. -/
def add (anchor : Option String) (n : Node) : Reader Nat := do
  let s ← get
  let i := s.nodes.size
  match anchor with
  | none => set { s with nodes := s.nodes.push n }
  | some name =>
    if (s.anchors.lookup name).isSome then fail
    set { s with nodes := s.nodes.push n, anchors := (name, i) :: s.anchors }
  return i

def addEmpty : Reader Nat := add none empty

/-- Add a collection, whose anchor may be used inside it already. -/
def addCollection (anchor : Option String) (first : Node) (read : Reader Node) : Reader Nat := do
  let i ← add anchor first
  if depthLimit ≤ (← get).depth then throw .tooDeep
  modify fun s => { s with depth := s.depth + 1 }
  let n ← read
  modify fun s => { s with depth := s.depth - 1, nodes := s.nodes.setIfInBounds i n }
  return i

/-- The node of an alias. -/
def aliased (name : String) : Reader Nat := do
  match (← get).anchors.lookup name with
  | some n => return n
  | none => fail

/-- The explicit tag, unless it is the one that leaves the choice open. -/
def chosen (tag : Option String) (fallback : Tag) : Tag :=
  match tag with
  | none | some "!" => fallback
  | some name => .ofName name

mutual

/-- Read a node. The fuel bounds the number of nodes and of entries together; `inBlock` and
`indentless` say whether blocks and sequences without an indentation of their own may start. -/
def node (fuel : Nat) (inBlock indentless : Bool) : Reader Nat :=
  match fuel with
  | 0 => fail
  | fuel + 1 => do
    match ← peek? with
    | some (.alias name) => do
      drop
      aliased name
    | _ => do
      let (anchor, tag) ← properties
      let tag ← match tag with
        | some t => some <$> tagName t
        | none => pure none
      content fuel inBlock indentless anchor tag

def content (fuel : Nat) (inBlock indentless : Bool) (anchor tag : Option String) : Reader Nat :=
  match fuel with
  | 0 => fail
  | fuel + 1 => do
    let sequence (items : Reader (List Nat)) : Reader Nat :=
      let tag := chosen tag .sequence
      addCollection anchor (.sequence tag []) (.sequence tag <$> items)
    let mapping (entries : Reader (List (Nat × Nat))) : Reader Nat :=
      let tag := chosen tag .mapping
      addCollection anchor (.mapping tag []) (.mapping tag <$> entries)
    let nothing : Reader Nat :=
      if anchor.isSome || tag.isSome then add anchor (.scalar (chosen tag .null) "") else fail
    match ← peek?, inBlock with
    | some (.scalar text isPlain), _ => do
      drop
      let resolved := if isPlain || tag == some "!" then Plain.tag text else .text
      add anchor (.scalar (chosen tag resolved) text)
    | some .flowSequenceStart, _ => do
      drop
      sequence (flowItems fuel [])
    | some .flowMappingStart, _ => do
      drop
      mapping (flowEntries fuel [])
    | some .blockSequenceStart, true => do
      drop
      sequence do
        let items ← blockItems fuel [.blockEntry, .blockEnd] []
        expect .blockEnd
        return items
    | some .blockMappingStart, true => do
      drop
      mapping (blockEntries fuel [])
    | some .blockEntry, _ =>
      if indentless then sequence (blockItems fuel [.blockEntry, .key, .value, .blockEnd] [])
      else nothing
    | _, _ => nothing

/-- A node, or nothing in front of the tokens given, or at the end. -/
def optional (fuel : Nat) (inBlock indentless : Bool) (ends : List Token) : Reader Nat :=
  match fuel with
  | 0 => fail
  | fuel + 1 => do if ← isNext ends then addEmpty else node fuel inBlock indentless

/-- The items of a block sequence; `items` are those before, last first. -/
def blockItems (fuel : Nat) (ends : List Token) (items : List Nat) : Reader (List Nat) :=
  match fuel with
  | 0 => fail
  | fuel + 1 => do
    if ← accept .blockEntry then
      let n ← optional fuel true false ends
      blockItems fuel ends (n :: items)
    else return items.reverse

/-- The entries of a block mapping, with its end. -/
def blockEntries (fuel : Nat) (entries : List (Nat × Nat)) : Reader (List (Nat × Nat)) :=
  match fuel with
  | 0 => fail
  | fuel + 1 => do
    if ← accept .key then
      let k ← optional fuel true true [.key, .value, .blockEnd]
      let v ← if ← accept .value then optional fuel true true [.key, .value, .blockEnd]
        else addEmpty
      blockEntries fuel ((k, v) :: entries)
    else
      expect .blockEnd
      return entries.reverse

/-- The value of an entry in flow brackets, nothing if there is no colon. -/
def flowValue (fuel : Nat) (close : Token) : Reader Nat :=
  match fuel with
  | 0 => fail
  | fuel + 1 => do
    if ← accept .value then optional fuel false false [.flowEntry, close] else addEmpty

/-- The items of a flow sequence, with its bracket. A key makes an item a mapping of one entry. -/
def flowItems (fuel : Nat) (items : List Nat) : Reader (List Nat) :=
  match fuel with
  | 0 => fail
  | fuel + 1 => do
    if ← accept .flowSequenceEnd then return items.reverse
    if !items.isEmpty then expect .flowEntry
    if ← accept .flowSequenceEnd then return items.reverse
    let n ← if ← accept .key then do
        addCollection none (.mapping .mapping []) do
          let k ← optional fuel false false [.value, .flowEntry, .flowSequenceEnd]
          let v ← flowValue fuel .flowSequenceEnd
          return .mapping .mapping [(k, v)]
      else node fuel false false
    flowItems fuel (n :: items)

/-- The entries of a flow mapping, with its brace. -/
def flowEntries (fuel : Nat) (entries : List (Nat × Nat)) : Reader (List (Nat × Nat)) :=
  match fuel with
  | 0 => fail
  | fuel + 1 => do
    if ← accept .flowMappingEnd then return entries.reverse
    if !entries.isEmpty then expect .flowEntry
    if ← accept .flowMappingEnd then return entries.reverse
    if ← accept .key then
      let k ← optional fuel false false [.value, .flowEntry, .flowMappingEnd]
      let v ← flowValue fuel .flowMappingEnd
      flowEntries fuel ((k, v) :: entries)
    else
      let k ← node fuel false false
      flowEntries fuel ((k, ← addEmpty) :: entries)

end

def standardHandles : List (String × String) := [("!", "!"), ("!!", Tag.stem)]

/-- The directives in front of a document: one version at most, and each handle once. -/
def directives (fuel : Nat) (versioned : Bool) (handles : List (String × String)) :
    Reader (List (String × String)) :=
  match fuel with
  | 0 => fail
  | fuel + 1 => do
    match ← peek? with
    | some (.directive d) => do
      drop
      match d with
      | .version major =>
        if versioned || major != 1 then fail else directives fuel true handles
      | .handle name target =>
        if (handles.lookup name).isSome then fail
        else directives fuel versioned ((name, target) :: handles)
      | .other => directives fuel versioned handles
    | _ => return handles

/-- Drop the document ends that come next. -/
def documentEnds (fuel : Nat) : Reader PUnit :=
  match fuel with
  | 0 => return
  | fuel + 1 => do if ← accept .documentEnd then documentEnds fuel

private def isDirective : Token → Bool
  | .directive _ => true
  | _ => false

/-- A document that its directives and its start mark announce. -/
def announced (fuel : Nat) : Reader Nat := do
  let handles ← directives fuel false []
  modify fun s => { s with handles := handles ++ standardHandles }
  expect .documentStart
  let next ← peek?
  if next.all fun t => isDirective t || t == .documentStart || t == .documentEnd then addEmpty
  else node fuel true false

/-- The only document of the text, if there is one. -/
def document (fuel : Nat) : Reader (Option Nat) := do
  match ← peek? with
  | none => return none
  | some t => do
    let root ← if isDirective t || t == .documentStart then announced fuel
      else do
        modify fun s => { s with handles := standardHandles }
        node fuel true false
    documentEnds fuel
    match ← peek? with
    | none => return some root
    | some t => do
      if isDirective t then discard (directives fuel false [])
      fail

end Reader

end Node

/-- The only document that the tokens hold, if there is one; `fault` ends the tokens if it is
given. -/
def Graph.ofTokens (tokens : Array Token) (fault : Option Fault) : Except Fault (Option Graph) := do
  let fuel := 4 * tokens.size + 8
  let (root, s) ← (Node.Reader.document fuel).run { tokens := tokens.toList, fault }
  return root.map fun root => ⟨s.nodes, root⟩
end MergeDecoration.Yaml
