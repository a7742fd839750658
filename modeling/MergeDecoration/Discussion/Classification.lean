import MergeDecoration.Discussion
import MergeDecoration.Link.Identity

/-!
What a discussion is to the program. Authors and flags are looked at here and nowhere later.
-/
namespace MergeDecoration

/-- The note that closes a discussion with replies when its issue is gone. -/
def staleIssueNote : String :=
  "This issue no longer exists in SonarQube, " ++
  "but due to other comments being present in this discussion, " ++
  "the discussion is not being being closed automatically. " ++
  "Please manually resolve this discussion once the other comments have been reviewed."

/-- The note that retires a summary with replies. -/
def outdatedSummaryNote : String :=
  "This summary note is outdated, " ++
  "but due to other comments being present in this discussion, " ++
  "the discussion is not being being removed. " ++
  "Please manually resolve this discussion once the other comments have been reviewed."

inductive DiscussionKind
  | unrelated
  | singleIdentified
  | singleUnidentified
  | mixed
  | summary
  deriving DecidableEq

def DiscussionKind.name : DiscussionKind → String
  | unrelated => "unrelated"
  | singleIdentified => "singleton-identifiable"
  | singleUnidentified => "singleton-unidentifiable"
  | mixed => "mixed"
  | summary => "summary"

/-- A discussion with its kind. It is closed if it is resolved or if the machine user answered it
with the stale note or with `resolved`. -/
structure Classified where
  discussion : Discussion
  kind : DiscussionKind
  identity : Option IssueIdentity := none
  closed : Bool := false

namespace Classified

def isMachineOwned (c : Classified) : Bool := c.kind != .unrelated

end Classified

/-- The body of a note as the text that is searched for links. -/
def Note.linkText (n : Note) : Except Fault String := (n.body.orElse (.text "")).asText

namespace Discussion

def isAcknowledgement (body : String) : Bool :=
  body == staleIssueNote || Text.lower body == "resolved"

def isClosed (d : Discussion) (username : Value) : Except Fault Bool :=
  if d.resolved then .ok true else d.hasLaterNote username isAcknowledgement

def classify (d : Discussion) (username : Value) (project : Option String) :
    Except Fault Classified := do
  match d.notes with
  | [] => return ⟨d, .unrelated, none, false⟩
  | first :: _ =>
    if !first.isBy username then return ⟨d, .unrelated, none, false⟩
    let body ← first.linkText
    if ← (Identity.isSummary body project).mapError .invalid then
      return ⟨d, .summary, none, d.resolved⟩
    if !first.resolvable then return ⟨d, .unrelated, none, false⟩
    let identity ← (Identity.issue? body).mapError .invalid
    let closed ← d.isClosed username
    let kind : DiscussionKind :=
      if !d.replies.isEmpty then .mixed
      else if identity.isSome then .singleIdentified
      else .singleUnidentified
    return ⟨d, kind, identity, closed⟩

end Discussion
end MergeDecoration
