import MergeDecoration.Analysis
import MergeDecoration.Link.Query
import MergeDecoration.Link.ViewLink
import MergeDecoration.Text.Case
import MergeDecoration.Value.Convert

/-!
The note that opens a discussion for an issue, and the addresses that notes link to.
-/
namespace MergeDecoration

def underServer (server : Value) (path : String) (fields : List (String × String)) :
    Except Fault String := do
  let base ← server.textOperand
  return Text.dropTailSlashes base ++ path ++ "?" ++ String.ofList (Query.write fields)

/-- The page of a merge request's analysis. -/
def dashboardUrl (server : Value) (project pullRequest : String) : Except Fault String :=
  underServer server "/dashboard" [("id", project), ("pullRequest", pullRequest)]

/-- The page of one issue. -/
def issueUrl (server : Value) (project pullRequest issue : String) : Except Fault String :=
  underServer server "/project/issues"
    [("id", project), ("pullRequest", pullRequest), ("issues", issue), ("open", issue)]

def typeLabels : List (String × String) :=
  [("BUG", "Bug"), ("VULNERABILITY", "Vulnerability"), ("CODE_SMELL", "Code Smell"),
    ("SECURITY_HOTSPOT", "Security Hotspot")]

/-- The label of an issue type; a type that has none is shown in title case. -/
def typeLabel (type : String) : String :=
  (typeLabels.lookup type).getD
    (Text.title (String.ofList (type.toList.map fun c => if c = '_' then ' ' else c)))

namespace Analysis

def dashboard (a : Analysis) : Except Fault String :=
  dashboardUrl a.serverUrl a.projectKey a.pullRequestId

/-- The body of the note that opens the discussion for an issue. -/
def issueNote (a : Analysis) (i : Issue) : Except Fault String := do
  let url ← issueUrl a.serverUrl a.projectKey a.pullRequestId i.key
  let message ← if i.message.holds then (do return [← i.message.asText, ""]) else pure []
  let rule := if i.rule.holds then ["_Rule: `" ++ i.rule.shown ++ "`_", ""] else []
  return "\n".intercalate
    (["**[" ++ Text.upper i.severity ++ "]** " ++ typeLabel i.type, ""] ++ message ++ rule ++
      [ViewLink.write url])

end Analysis
end MergeDecoration
