import MergeDecoration.Analysis
import MergeDecoration.Text.Case
import MergeDecoration.Value.Convert

/-!
Analyses from report data. The checks are made in the order project key, quality gate, coverage,
and then issue by issue key, status, line; the first that fails is the fault.
-/
namespace MergeDecoration

/-- A failed conversion as the given cause; a number out of range stays one. -/
def orInvalid {α : Type} (cause : Invalid) : Except Fault α → Except Fault α
  | .error (.misuse _) | .error (.invalid _) => .error (.invalid cause)
  | r => r

/-- The text of a field in upper case, or of the default if the field does not hold. -/
private def upperField (entries : List (Value × Value)) (name fallback : String) : String :=
  Text.upper ((Value.field entries name).orElse (.text fallback)).shown

namespace Issue

def readLine (v : Value) : Except Fault (Option Int) :=
  if v.isNull then .ok none else (orInvalid (.issueLine v) v.toInt).map some

def ofValue (v : Value) : Except Fault Issue := do
  let es := match v with
    | .map es => es
    | _ => []
  let key := Value.field es "key"
  if !key.holds then throw (.invalid (.issueKey v))
  let status := (Value.field? es "status").getD (.text "OPEN")
  let some status := IssueStatus.ofName? (Text.upper status.shown)
    | throw (.invalid (.issueStatus key (Value.field es "status")))
  return {
    key := key.shown
    status
    line := ← readLine (Value.field es "line")
    path := (Value.field es "path").orElse .null
    severity := upperField es "severity" "MAJOR"
    type := upperField es "type" "CODE_SMELL"
    message := (Value.field es "message").orElse (.text "")
    rule := Value.field es "rule" }

end Issue

namespace Analysis

def readCoverage (v : Value) : Except Fault (Option Binary64) :=
  if v.isNull then .ok none else (orInvalid (.coverage v) v.toReal).map some

private def textField (entries : List (Value × Value)) (name : String) : String :=
  ((Value.field entries name).orElse (.text "")).shown

def ofValue (v : Value) : Except Fault Analysis := do
  let .map es := v | throw (.invalid .reportKind)
  let project := Value.field es "project_key"
  if !project.holds then throw (.invalid .projectKey)
  let gate := (Value.field? es "quality_gate").getD (.text "ERROR")
  let some gate := QualityGate.ofName? (Text.upper gate.shown)
    | throw (.invalid (.qualityGate (Value.field es "quality_gate")))
  let newCoverage ← readCoverage (Value.field es "new_coverage")
  let entries ← ((Value.field es "issues").orElse (.list [])).items
  let issues ← entries.mapM Issue.ofValue
  return {
    projectKey := project.shown
    pullRequestId := textField es "pull_request_id"
    commitSha := textField es "commit_sha"
    gate
    serverUrl := .text (textField es "server_url")
    issues
    newCoverage }

end Analysis
end MergeDecoration
