import MergeDecoration.Analysis.Reader
import MergeDecoration.Host

/-!
Analysis reports in files.
-/
namespace MergeDecoration.Analysis

/-- A report that is no JSON says so in its fault. -/
def ofReport (text : String) : Except Fault Analysis := do
  let data ← (Json.read text).mapError fun
    | .invalid (.json fault) => .invalid (.reportJson fault)
    | e => e
  ofValue data

/-- Read the report in a file. -/
def load (path : String) : Action Analysis := do
  match ← Host.readText path with
  | none => throw (.missingReport path)
  | some text =>
    let a ← ofReport text
    Host.debug s!"Loaded {a.issues.length} issue(s) for {a.projectKey} from {path}"
    return a

end MergeDecoration.Analysis
