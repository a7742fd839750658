import MergeDecoration.Analysis.Report
import MergeDecoration.Blame
import MergeDecoration.CommandLine.Options
import MergeDecoration.Config.File
import MergeDecoration.Decoration
import MergeDecoration.Gitlab.Client
import MergeDecoration.Rehearsal

/-!
The command that decorates a merge request, or rehearses doing so.
-/
namespace MergeDecoration.CommandLine

/-- Requests answered by an instance, and by the working copy in a folder. -/
def platform (c : Gitlab.Client) (root : String) : Backend Host where
  answer
    | .changeset path line, h => Blame.find root path line h
    | r, h =>
      let (reply, session) := c.ask r h.session
      (reply, { h with session })
  record r h := { h with records := h.records ++ [r] }

/-- The client that settings describe; there is none without a token. -/
def connect (c : Config) : Except Fault Gitlab.Client :=
  match c.get "gitlab_token" with
  | .text token =>
    if token == "" then .error (.usage .noToken)
    else Gitlab.Client.connect (c.get "gitlab_url") token (c.get "request_timeout")
  | _ => .error (.usage .noToken)

namespace Decorate

structure Options where
  project : String
  report : String
  number : Option String := none
  summaryFirst : Option Bool := none
  summaryEdit : Option Bool := none
  pipeline : Option String := none
  root : String := "."
  rehearse : Bool := false

def params : List Param :=
  [.long "--project", .long "--report", .long "--mr",
    ⟨"--summary-note-first",
      [("--summary-note-first", .flag true), ("--no-summary-note-first", .flag false)]⟩,
    ⟨"--summary-note-edit",
      [("--summary-note-edit", .flag true), ("--no-summary-note-edit", .flag false)]⟩,
    .long "--pipeline-id", .long "--repo-root",
    ⟨"--shadow", [("--shadow", .flag true), ("-s", .flag true)]⟩,
    .long "--help" (.flag true)]

/-- The working copy has to be a folder. -/
def checkRoot (f : Folder) (path : String) : Except Usage PUnit :=
  let bad (reason : String) :=
    .error (.badValue "--repo-root" ("Directory " ++ Text.quoted path ++ reason))
  match f.at? path with
  | .ok .folder => .ok ⟨⟩
  | .ok (.file _) => bad " is a file."
  | _ => bad " does not exist."

/-- What is given is checked before anything missing is complained of. -/
def read (f : Folder) (p : Parsed) : Except Usage Options := do
  if let some root := p.value? "--repo-root" then checkRoot f root
  let project ← p.require "--project"
  let report ← p.require "--report"
  p.checkRest
  return {
    project, report
    number := p.value? "--mr"
    summaryFirst := p.flag? "--summary-note-first"
    summaryEdit := p.flag? "--summary-note-edit"
    pipeline := p.value? "--pipeline-id"
    root := (p.value? "--repo-root").getD "."
    rehearse := p.has "--shadow" }

/-- The settings with those of the command line in their places. -/
def override (c : Config) (o : Options) : Except Fault (Config × List LogRecord) := do
  let (pipeline, warnings) ← match o.pipeline with
    | some text => Config.readPipeline (.text text)
    | none => pure (.null, [])
  let flag (b : Option Bool) := (b.map Value.bool).getD .null
  return (c.applyOverrides [(.text "summary_note_first", flag o.summaryFirst),
    (.text "summary_note_edit", flag o.summaryEdit), (.text "pipeline_id", pipeline)], warnings)

/-- Faults of a report that are told to the user. -/
def reportFault : Fault → Fault
  | .invalid cause => .givenUp cause.message
  | .malformedText cause => .givenUp cause.message
  | .missingReport path => .givenUp (Fault.missingReport path).message
  | f => f

/-- A run that was given up at a step is told to the user with its cause. -/
def runFault : Fault → Fault
  | .decoration s cause => .givenUp (s.message ++ ": " ++ cause.message)
  | f => f

def withFault {α : Type} (change : Fault → Fault) (a : Action α) : Action α :=
  ExceptT.adapt change a

/-- Run a program against an instance; the session is closed whatever comes of it. -/
def runLive {α : Type} (c : Gitlab.Client) (root : String) (p : Program α) : Action α :=
  Host.ensure (p.run (platform c root)) ((Program.call .close).run (platform c root))

/-- Rehearse a program, with the operations it would have carried out. -/
def rehearse {α : Type} (c : Gitlab.Client) (root : String) (p : Program α) :
    Action (α × List Operation) := fun h =>
  let b := Rehearsal.backend (platform c root)
  let (result, s) := p.run b ⟨h, []⟩
  let (closed, s') := (Program.call .close).run b s
  (do
    closed
    return (← result, s.operations), s'.inner)

def run (c : Config) (words : List String) : Action PUnit := do
  let given ← (parse params true words).mapError Fault.usage
  if given.has "--help" then
    Host.say "Usage: mrdecor decorate [OPTIONS]\n"
    return
  let o ← (read (← get).folder given).mapError Fault.usage
  let (config, warnings) ← override c o
  warnings.forM Host.record
  let analysis ← withFault reportFault (Analysis.load o.report)
  let client ← connect c
  let number := (o.number.map Value.text).getD .null
  let program := decorate analysis o.project config number
  if o.rehearse then
    let (outcome, operations) ← withFault runFault (rehearse client o.root program)
    Host.printAll (Operation.report operations)
    Host.print s!"[bold]Shadow run complete for {outcome.mergeRequestUrl.shown}[/bold]"
  else
    let outcome ← withFault runFault (runLive client o.root program)
    Host.print s!"\n[green]Decorated {outcome.mergeRequestUrl.shown}[/green]"
    Host.print (s!"  {outcome.created} created · {outcome.resolved} resolved · " ++
      s!"{outcome.noted} flagged · summary {outcome.summary.name}")

end Decorate
end MergeDecoration.CommandLine
