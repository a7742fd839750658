import MergeDecoration.Value

/-!
Results of a code analysis of a merge request.
-/
namespace MergeDecoration

inductive IssueStatus
  | opened
  | confirmed
  | reopened
  | fixed
  | accepted
  | falsePositive
  deriving DecidableEq

namespace IssueStatus

def name : IssueStatus → String
  | opened => "OPEN"
  | confirmed => "CONFIRMED"
  | reopened => "REOPENED"
  | fixed => "FIXED"
  | accepted => "ACCEPTED"
  | falsePositive => "FALSE_POSITIVE"

def all : List IssueStatus := [opened, confirmed, reopened, fixed, accepted, falsePositive]

def ofName? (s : String) : Option IssueStatus := all.find? (·.name == s)

def isClosed : IssueStatus → Bool
  | fixed | accepted | falsePositive => true
  | opened | confirmed | reopened => false

theorem ofName?_name (s : IssueStatus) : ofName? s.name = some s := by cases s <;> decide

end IssueStatus

inductive QualityGate
  | ok
  | error
  deriving DecidableEq

def QualityGate.name : QualityGate → String
  | ok => "OK"
  | error => "ERROR"

def QualityGate.ofName? (s : String) : Option QualityGate := [ok, error].find? (·.name == s)

/-- A finding. Path, message and rule are what the report holds: texts if it is well formed. -/
structure Issue where
  key : String
  status : IssueStatus := .opened
  line : Option Int := none
  path : Value := .null
  severity : String := "MAJOR"
  type : String := "CODE_SMELL"
  message : Value := .text ""
  rule : Value := .null

namespace Issue

def isOpen (i : Issue) : Bool := !i.status.isClosed

/-- Where a line discussion could be opened: the path and the line, if there are both. -/
def anchor? (i : Issue) : Option (Value × Int) :=
  match i.line with
  | some n => if i.path.holds then some (i.path, n) else none
  | none => none

end Issue

/-- The server address is a text unless configuration puts something else in its place. -/
structure Analysis where
  projectKey : String
  pullRequestId : String
  commitSha : String
  gate : QualityGate
  serverUrl : Value
  issues : List Issue := []
  newCoverage : Option Binary64 := none

namespace Analysis

def passed (a : Analysis) : Bool := a.gate == .ok

def openIssues (a : Analysis) : List Issue := a.issues.filter (·.isOpen)

end Analysis
end MergeDecoration
