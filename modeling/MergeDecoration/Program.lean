import MergeDecoration.Discussion
import MergeDecoration.Log

/-!
Conversations with a review platform. A program asks one request after another and goes on with
the answer; it is run against a backend that answers. What it asks and what it makes of the answers
does not depend on the backend.
-/
namespace MergeDecoration

/-- A merge request with the three commits that bound its diff. -/
structure MergeRequest where
  iid : Value
  sourceProject : Value
  targetProject : Value
  baseSha : Value
  startSha : Value
  headSha : Value
  webUrl : Value

/-- A note anchored to a line of the diff. -/
structure LineNote where
  body : String
  baseSha : Value
  startSha : Value
  headSha : Value
  oldPath : Value
  newPath : Value
  newLine : Value

/-- The first note of a new discussion. -/
inductive NewNote
  | general (body : String)
  | line (note : LineNote)

def NewNote.body : NewNote → String
  | .general body => body
  | .line note => note.body

/-- A commit status; coverage and pipeline are left out if they are null. -/
structure PipelineStatus where
  name : String
  description : String
  succeeded : Bool
  targetUrl : String
  coverage : Value := .null
  pipeline : Value := .null

def PipelineStatus.state (s : PipelineStatus) : String :=
  if s.succeeded then "success" else "failed"

inductive Request
  | mergeRequest (project : String) (iid : Value)
  | currentUser
  | commits (project iid : Value)
  | discussions (project iid : Value)
  | createDiscussion (project iid : Value) (note : NewNote)
  | addNote (project iid discussion : Value) (text : String)
  | editNote (project iid discussion note : Value) (text : String)
  | deleteNote (project iid discussion note : Value)
  | resolve (project iid discussion : Value)
  | pushStatus (project : Value) (revision : String) (status : PipelineStatus)
  /-- Nothing more will be asked of the platform. -/
  | close
  /-- The commit that last touched a line; this goes to the working copy, not to the platform. -/
  | changeset (path : Value) (line : Int)

namespace Request

/-- What a request is answered with. -/
@[reducible] def Reply : Request → Type
  | mergeRequest .. => MergeRequest
  | currentUser => User
  | commits .. => List Value
  | discussions .. => List Discussion
  | createDiscussion .. => Discussion
  | changeset .. => Option String
  | _ => Unit

/-- Requests that change the platform. -/
def isWrite : Request → Bool
  | mergeRequest .. | currentUser | commits .. | discussions .. | close | changeset .. => false
  | _ => true

end Request

inductive Program (α : Type) : Type
  | done (a : α)
  | stop (f : Fault)
  | log (r : LogRecord) (next : Program α)
  | ask (r : Request) (next : Except Fault r.Reply → Program α)

namespace Program

def bind {α β : Type} : Program α → (α → Program β) → Program β
  | done a, f => f a
  | stop e, _ => stop e
  | log r p, f => log r (p.bind f)
  | ask r k, f => ask r fun x => (k x).bind f

instance : Monad Program where
  pure := done
  bind := bind

/-- A result that is already there. -/
def ofExcept {α : Type} : Except Fault α → Program α
  | .ok a => done a
  | .error e => stop e

instance : MonadLift (Except Fault) Program := ⟨ofExcept⟩

def debug (message : String) : Program Unit := log ⟨.debug, message⟩ (done ())

/-- Ask, and stop at whatever fault is answered. -/
def call (r : Request) : Program r.Reply := ask r ofExcept

/-- Ask as one step of a run: that the platform could not be reached is the step's failure. -/
def step (s : Step) (r : Request) : Program r.Reply :=
  ask r fun
    | .ok a => done a
    | .error (.transport m) => stop (.decoration s (.transport m))
    | .error e => stop e

end Program

/-- Something that answers requests and keeps records, with a state of its own. -/
structure Backend (σ : Type) where
  answer : (r : Request) → σ → Except Fault r.Reply × σ
  record : LogRecord → σ → σ

/-- Run a program to its end. -/
def Program.run {σ α : Type} (b : Backend σ) : Program α → σ → Except Fault α × σ
  | .done a, s => (.ok a, s)
  | .stop e, s => (.error e, s)
  | .log r p, s => p.run b (b.record r s)
  | .ask r k, s =>
    let (reply, s) := b.answer r s
    (k reply).run b s

/-- The requests that a program asks on its way, in order. -/
def Program.asked {σ α : Type} (b : Backend σ) : Program α → σ → List Request
  | .done _, _ | .stop _, _ => []
  | .log r p, s => p.asked b (b.record r s)
  | .ask r k, s =>
    let (reply, s) := b.answer r s
    r :: (k reply).asked b s

end MergeDecoration
