import MergeDecoration.Config
import MergeDecoration.Token
import MergeDecoration.Yaml.Document

/-!
Settings of a run, from a file, the command line and the environment.
-/
namespace MergeDecoration.Config

def fileName : String := ".mrdecor.yml"

/-- What a settings file holds; a file that says nothing is an empty mapping. -/
def readFile (text : String) : Except Fault Value := do
  return (← Yaml.read text).orElse (.map [])

/-- The settings with what the variables say about token and instance. -/
def withVariables (c : Config) (token url : Option String) : Config :=
  let c := c.set "gitlab_token" ((token.map .text).getD .null)
  match url with
  | some url => c.set "gitlab_url" (.text url)
  | none => c

/-- All settings, the pipeline as a number. -/
def load (path : String) (overrides : List (Value × Value) := []) : Action Config := do
  let c ← match ← Host.readText path with
    | some text => defaults.update (← readFile text)
    | none => pure defaults
  let c := c.applyOverrides overrides
  let c := c.withVariables (← Host.lookup? Token.variableName)
    (← Host.filled? "MRDECOR_GITLAB_URL")
  let (pipeline, warnings) ← readPipeline (c.get "pipeline_id")
  warnings.forM Host.record
  return c.set "pipeline_id" pipeline

end MergeDecoration.Config
