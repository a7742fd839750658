import MergeDecoration.Program

/-!
A review platform kept in memory. Writes take effect as they are meant to, and a write that names
nothing has no effect. People use the platform beside the program.
-/
namespace MergeDecoration

/-- Discussions opened here are called `new-1`, `new-2` and so on, and notes count from 1001. -/
structure Platform where
  username : Value := .text "sonar-bot"
  /-- The merge request that a number names. -/
  mergeRequest : Value → MergeRequest
  commits : List Value := []
  /-- The commit that last touched a line of a file. -/
  changeset : Value → Int → Option String := fun _ _ => none
  discussions : List Discussion := []
  opened : Nat := 0
  written : Nat := 0

namespace Platform

def nextNoteId (p : Platform) : Value := .int (p.written + 1001)

def nextDiscussionId (p : Platform) : Value := .text s!"new-{p.opened + 1}"

/-- Open a discussion with one note. -/
def openDiscussion (p : Platform) (author body : Value) (resolvable : Bool) :
    Discussion × Platform :=
  let note : Note := { id := p.nextNoteId, author := ⟨author, .null⟩, body, resolvable }
  let d : Discussion := ⟨p.nextDiscussionId, [note]⟩
  (d, { p with
    discussions := p.discussions ++ [d]
    opened := p.opened + 1
    written := p.written + 1 })

def holds (p : Platform) (id : Value) : Bool := p.discussions.any (·.id.same id)

/-- Change the discussion with the given id. -/
def update (p : Platform) (id : Value) (change : Discussion → Discussion) : Platform :=
  { p with discussions := p.discussions.map fun d => if d.id.same id then change d else d }

/-- Append a note to a discussion, if there is such a discussion. -/
def reply (p : Platform) (id author body : Value) (resolvable system : Bool) : Platform :=
  let note : Note := { id := p.nextNoteId, author := ⟨author, .null⟩, body, resolvable, system }
  if p.holds id then
    { p.update id fun d => { d with notes := d.notes ++ [note] } with written := p.written + 1 }
  else p

def editNote (p : Platform) (id note body : Value) : Platform :=
  p.update id fun d =>
    { d with notes := d.notes.map fun n => if n.id.same note then { n with body } else n }

/-- Remove a note; a discussion that loses its last note disappears. -/
def deleteNote (p : Platform) (id note : Value) : Platform :=
  { p with discussions := p.discussions.filterMap fun d =>
      if d.id.same id then
        match d.notes.filter (!·.id.same note) with
        | [] => none
        | notes => some { d with notes }
      else some d }

/-- Set the state of all resolvable notes of a discussion. -/
def setResolved (p : Platform) (id : Value) (resolved : Bool) : Platform :=
  p.update id fun d =>
    { d with notes := d.notes.map fun n => if n.resolvable then { n with resolved } else n }

/-- The answer to a request and the platform after it. -/
def answer (p : Platform) : (r : Request) → r.Reply × Platform
  | .mergeRequest _ iid => (p.mergeRequest iid, p)
  | .currentUser => (⟨p.username, .int 1⟩, p)
  | .commits .. => (p.commits, p)
  | .discussions .. => (p.discussions, p)
  | .createDiscussion _ _ note => p.openDiscussion p.username (.text note.body) true
  | .addNote _ _ id text => ((), p.reply id p.username (.text text) false false)
  | .editNote _ _ id note text => ((), p.editNote id note (.text text))
  | .deleteNote _ _ id note => ((), p.deleteNote id note)
  | .resolve _ _ id => ((), p.setResolved id true)
  | .pushStatus .. => ((), p)
  | .close => ((), p)
  | .changeset path line => (p.changeset path line, p)

end Platform

/-- Which requests fail, given those before; the text is the failure's. -/
abbrev Outage := List Request → Request → Option String

/-- A platform together with what was asked of it and what was logged. -/
structure Watched where
  platform : Platform
  requests : List Request := []
  records : List LogRecord := []

/-- A request that fails is kept as well, but has no effect. -/
def Watched.backend (outage : Outage) : Backend Watched where
  answer r w :=
    let kept := { w with requests := w.requests ++ [r] }
    match outage w.requests r with
    | some message => (.error (.transport message), kept)
    | none =>
      let (reply, platform) := w.platform.answer r
      (.ok reply, { kept with platform })
  record l w := { w with records := w.records ++ [l] }

end MergeDecoration
