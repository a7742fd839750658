import MergeDecoration.Program
import MergeDecoration.Text.Case
import MergeDecoration.Text.Markup

/-!
Rehearsals: what is read comes from the backend behind, and what would be written is only noted
down.
-/
namespace MergeDecoration

/-- A write that was not made. -/
inductive Operation
  | createLine (discussion : String) (path line : Value) (body : String)
  | create (discussion : String) (body : String)
  | addNote (discussion : Value) (body : String)
  | edit (discussion note : Value) (body : String)
  | delete (discussion note : Value)
  | resolve (discussion : Value)
  | status (revision state url : String)

namespace Operation

def action : Operation → String
  | createLine .. | create .. => "create"
  | addNote .. => "add-note"
  | edit .. => "edit"
  | delete .. => "delete"
  | resolve .. => "resolve"
  | status .. => "status"

def colour : Operation → String
  | createLine .. | create .. => "green"
  | addNote .. => "yellow"
  | edit .. => "blue"
  | delete .. => "red"
  | resolve .. => "cyan"
  | status .. => "white"

def discussion : Operation → Value
  | createLine d .. | create d _ => .text d
  | addNote d _ | edit d .. | delete d _ | resolve d => d
  | status .. => .null

def body : Operation → String
  | createLine _ _ _ b | create _ b | addNote _ b | edit _ _ b => b
  | delete .. | resolve _ | status .. => ""

private def styled (style text : String) : String := s!"[{style}]{text}[/{style}]"

/-- The lines that describe where an operation goes. -/
private def placeLines : Operation → List (Except Fault String)
  | createLine _ path line _ => [do
      let shown := Text.escapeMarkup (← path.asText)
      return "  " ++ styled "bold cyan" shown ++ "  line [bold]" ++ line.shown ++ "[/bold]"]
  | status revision state url =>
    let short := String.ofList (revision.toList.take 7)
    [.ok s!"  {state} @ {short}  {url}"]
  | _ => []

/-- The description of an operation, line by line; a line that cannot be written is a fault. -/
def lines (o : Operation) : List (Except Fault String) :=
  let target := if o.discussion.holds then s!" [dim]{o.discussion.shown}[/dim]" else ""
  let body := Text.trim o.body
  let first := if body = "" then [] else [.ok ("  " ++ Text.escapeMarkup (Text.firstLine body))]
  .ok (styled o.colour (Text.upper o.action) ++ target) :: o.placeLines ++ first ++ [.ok ""]

/-- The description of a whole rehearsal. -/
def report : List Operation → List (Except Fault String)
  | [] => [.ok "[yellow]Shadow mode: no changes would be made.[/yellow]"]
  | os => .ok s!"\n[bold]Shadow run — {os.length} operation(s) (not sent)[/bold]\n" ::
      os.flatMap lines

end Operation

/-- The lines before the first fault, and that fault. -/
def printed : List (Except Fault String) → List String × Option Fault
  | [] => ([], none)
  | .error f :: _ => ([], some f)
  | .ok line :: rest =>
    let (lines, fault) := printed rest
    (line :: lines, fault)

/-- The state of a backend and the operations noted down so far. -/
structure Rehearsal (σ : Type) where
  inner : σ
  operations : List Operation := []

namespace Rehearsal

variable {σ : Type}

def note (s : Rehearsal σ) (o : Operation) : Rehearsal σ :=
  { s with operations := s.operations ++ [o] }

def nextDiscussionId (s : Rehearsal σ) : String := s!"shadow-{s.operations.length + 1}"

private def forward (b : Backend σ) (r : Request) (s : Rehearsal σ) :
    Except Fault r.Reply × Rehearsal σ :=
  let (reply, inner) := b.answer r s.inner
  (reply, { s with inner })

def answer (b : Backend σ) : (r : Request) → Rehearsal σ → Except Fault r.Reply × Rehearsal σ
  | .createDiscussion _ _ new, s =>
    let id := s.nextDiscussionId
    let operation := match new with
      | .line n => Operation.createLine id n.newPath n.newLine n.body
      | .general body => Operation.create id body
    (.ok ⟨.text id, []⟩, s.note operation)
  | .addNote _ _ d text, s => (.ok (), s.note (.addNote d text))
  | .editNote _ _ d n text, s => (.ok (), s.note (.edit d n text))
  | .deleteNote _ _ d n, s => (.ok (), s.note (.delete d n))
  | .resolve _ _ d, s => (.ok (), s.note (.resolve d))
  | .pushStatus _ revision status, s =>
    (.ok (), s.note (.status revision status.state status.targetUrl))
  | r, s => forward b r s

def backend (b : Backend σ) : Backend (Rehearsal σ) where
  answer := answer b
  record l s := { s with inner := b.record l s.inner }

end Rehearsal
end MergeDecoration
