import MergeDecoration.CommandLine.Dialogue
import MergeDecoration.CommandLine.Options
import MergeDecoration.Config.File
import MergeDecoration.Remote
import MergeDecoration.Yaml.Writer

/-!
The command that sets a repository up: it asks for the settings and writes them, and a job for the
pipeline if that is wanted.
-/
namespace MergeDecoration.CommandLine.Init

def version : String := "0.1.0"

/-- The pipeline job that decorates each merge request. -/
def job (report stage : String) : String :=
  "mrdecor:\n" ++
  "  stage: " ++ stage ++ "\n" ++
  "  image: python:3.12\n" ++
  "  rules:\n" ++
  "    - if: $CI_PIPELINE_SOURCE == \"merge_request_event\"\n" ++
  "  variables:\n" ++
  "    GITLAB_TOKEN: $MRDECOR_GITLAB_TOKEN\n" ++
  "  script:\n" ++
  "    - pip install \"mrdecor==" ++ version ++ "\"\n" ++
  "    - >\n" ++
  "      mrdecor decorate\n" ++
  "      --project \"$CI_PROJECT_PATH\"\n" ++
  "      --mr \"$CI_MERGE_REQUEST_IID\"\n" ++
  "      --report " ++ report ++ "\n" ++
  "      --pipeline-id \"$CI_PIPELINE_ID\"\n"

def jobFolder : List String := [".gitlab", "ci"]

def params : List Param := [.long "--project", .long "--help" (.flag true)]

/-- The text of a settings file with some settings changed and all others kept. -/
def updated (existing : Option String) (settings : Config) : Except Fault String := do
  let old ← match existing with
    | some text => Yaml.Document.read text
    | none => pure .emptyMap
  let old := if old.value.holds then old else .emptyMap
  Yaml.write (← settings.foldlM (fun d e => d.store e.1 e.2) old)

/-- The project to set up and its instance: given, detected, or asked for. -/
def chooseProject (given : Option String) : Action (String × Option String) := do
  match given with
  | some path => return (path, none)
  | none =>
    match ← Remote.detect with
    | some p => do
      Host.print s!"[dim]Detected project: {p.path} on {p.url}[/dim]"
      return (p.path, some p.url)
    | none => return (← ask "GitLab project (group/name)", none)

def writeJob : Action PUnit := do
  let report ← ask "Path of the analysis report in CI" "analysis-report.json"
  let stage ← ask "CI stage" "test"
  let folder := (← get).folder
  folder.checkFolder jobFolder
  Host.writeText (jobFolder ++ ["mrdecor.yml"]) (job report stage)
  Host.print "[green]Created .gitlab/ci/mrdecor.yml[/green]"
  Host.print ("\n[yellow]Include it from .gitlab-ci.yml and add a masked " ++
    "[bold]MRDECOR_GITLAB_TOKEN[/bold] CI/CD variable with api scope " ++
    "(Settings → CI/CD → Variables).[/yellow]")

def run (words : List String) : Action PUnit := do
  let given ← (parse params true words).mapError Fault.usage
  if given.has "--help" then
    Host.say "Usage: mrdecor init [OPTIONS]\n"
    return
  given.checkRest.mapError Fault.usage
  Host.print "\n[bold cyan]mrdecor init[/bold cyan] — setup wizard\n"
  let (project, instanceUrl) ← chooseProject (given.value? "--project")
  let url ← ask "GitLab URL" (instanceUrl.getD Config.defaultUrl)
  let first ← confirm "Post the summary note before issue discussions?" false
  let edit ← confirm "Edit the existing summary note instead of replacing it?" false
  let settings : Config :=
    [(.text "gitlab_url", .text url), (.text "summary_note_first", .bool first),
      (.text "summary_note_edit", .bool edit)]
  Host.writeText [Config.fileName] (← updated (← Host.readText Config.fileName) settings)
  Host.print "[green]Created .mrdecor.yml[/green]"
  if ← confirm "\nGenerate .gitlab/ci/mrdecor.yml for GitLab CI?" true then writeJob
  Host.print "\n[bold green]Setup complete![/bold green]"
  Host.print ("Decorate a merge request with: " ++
    s!"[bold]mrdecor decorate --project {project} --report <json>[/bold]")

end MergeDecoration.CommandLine.Init
