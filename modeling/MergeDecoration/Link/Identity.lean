import MergeDecoration.Link.Address
import MergeDecoration.Link.Query
import MergeDecoration.Link.ViewLink

/-!
What a note is about, read off its links. Nothing else tells which issue a discussion was opened
for, or that a note is the summary.
-/
namespace MergeDecoration

structure IssueIdentity where
  project : Option String
  issue : String
  deriving DecidableEq

/-- What a note is asked to be about. -/
inductive Subject
  | issue (key : String)
  | summary
  deriving DecidableEq

namespace Identity

/-- The issue a link leads to. -/
def linkedIssue? (target : List Char) : Except Invalid (Option IssueIdentity) := do
  let address ← Address.read target
  return (Query.lookup? address.query "issues").map fun issue =>
    ⟨(Query.lookup? address.query "id").map String.ofList, String.ofList issue⟩

/-- The project of the dashboard a link leads to. -/
def linkedDashboard? (target : List Char) : Except Invalid (Option String) := do
  let address ← Address.read target
  let path := Text.dropTailWhile (· == '/') address.path
  if "/dashboard".toList.isSuffixOf path then
    return (Query.lookup? address.query "id").map String.ofList
  else return none

def firstIssue : List (List Char) → Except Invalid (Option IssueIdentity)
  | [] => .ok none
  | target :: rest => do
    match ← linkedIssue? target with
    | some identity => return some identity
    | none => firstIssue rest

def anyDashboard (isWanted : String → Bool) : List (List Char) → Except Invalid Bool
  | [] => .ok false
  | target :: rest => do
    match ← linkedDashboard? target with
    | some project => if isWanted project then return true else anyDashboard isWanted rest
    | none => anyDashboard isWanted rest

/-- The issue a note is about: that of the first link that leads to one. A link before it whose
address cannot be read is an error. -/
def issue? (body : String) : Except Invalid (Option IssueIdentity) :=
  firstIssue (ViewLink.targets body.toList)

/-- Whether a note links to the dashboard of the project, or of any project for `none`. -/
def isSummary (body : String) (project : Option String) : Except Invalid Bool :=
  anyDashboard (fun p => project.all (· == p)) (ViewLink.targets body.toList)

/-- Whether a note is about the subject, in the project if one is given. -/
def isAbout (body : String) (subject : Subject) (project : Option String) : Except Invalid Bool :=
  match subject with
  | .summary => isSummary body project
  | .issue key => do
    match ← issue? body with
    | none => return false
    | some identity =>
      return (project.isNone || identity.project == project) && identity.issue == key

end Identity
end MergeDecoration
