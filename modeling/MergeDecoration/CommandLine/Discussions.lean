import MergeDecoration.CommandLine.Decorate

/-!
The command that shows what the discussions of a merge request are to the program. It writes
nothing.
-/
namespace MergeDecoration.CommandLine.Discussions

def params : List Param :=
  [.long "--project", .long "--mr", .long "--project-key", .long "--all" (.flag true),
    .long "--help" (.flag true)]

/-- The number of the merge request. -/
def readNumber (text : String) : Except Usage Int :=
  match integerOfText text with
  | .ok i => .ok i
  | .error _ => .error (.badValue "--mr" (Text.quoted text ++ " is not a valid integer."))

/-- The project and the number, the number being checked first if it is given. -/
def readPlace (p : Parsed) : Except Usage (String × Int) := do
  let number ← (p.value? "--mr").mapM readNumber
  let project ← p.require "--project"
  match number with
  | some n =>
    p.checkRest
    return (project, n)
  | none => throw (.missingOption "--mr")

def style : DiscussionKind → String
  | .unrelated => "dim"
  | .singleIdentified => "green"
  | .singleUnidentified => "yellow"
  | .mixed => "magenta"
  | .summary => "cyan"

/-- The issue key, behind its project if that is not the one asked about. -/
def issueCell (project : Option String) : Option IssueIdentity → String
  | none => ""
  | some i => match i.project with
    | none => i.issue
    | some p => if p == "" || some p == project then i.issue else p ++ ":" ++ i.issue

/-- The first characters of an id. -/
def shortId : Value → Except Fault String
  | .text s => .ok (String.ofList (s.toList.take 8))
  | v => .error (.misuse (.headOf v.kind))

def row (project : Option String) (c : Classified) : Except Fault (List String) := do
  let id ← shortId c.discussion.id
  let kind := s!"[{style c.kind}]{c.kind.name}[/{style c.kind}]"
  return [id, kind, issueCell project c.identity, toString c.discussion.notes.length,
    if c.closed then "yes" else ""]

def rowsOf (project : Option String) (cs : List Classified) : Except Fault (List (List String)) :=
  cs.mapM (row project)

def columns : List String := ["Discussion", "Type", "Issue", "Notes", "Closed"]

/-- What is read for the table. -/
def program (project : String) (number : Int) :
    Program (MergeRequest × User × List Discussion) := do
  let m ← Program.call (.mergeRequest project (.int number))
  let user ← Program.call .currentUser
  let raw ← Program.call (.discussions (MergeRequest.targetProject m) (MergeRequest.iid m))
  return (m, user, raw)

/-- A transport fault is told to the user. -/
def readFault : Fault → Fault
  | .transport message => .givenUp message
  | f => f

/-- Classify discussions on the host, with their log records. -/
def classify (username : Value) (project : Option String) :
    List Discussion → Action (List Classified)
  | [] => return []
  | d :: rest => do
    let c ← d.classify username project
    Host.debug c.report
    return c :: (← classify username project rest)

def run (c : Config) (words : List String) : Action PUnit := do
  let given ← (parse params true words).mapError Fault.usage
  if given.has "--help" then
    Host.say "Usage: mrdecor discussions [OPTIONS]\n"
    return
  let (project, number) ← (readPlace given).mapError Fault.usage
  let client ← connect c
  let (m, user, raw) ←
    Decorate.withFault readFault (Decorate.runLive client "." (program project number))
  let key := given.value? "--project-key"
  let classified ← classify user.username key raw
  let shown := if given.has "--all" then classified else classified.filter (·.isMachineOwned)
  if shown.isEmpty then
    Host.print s!"[yellow]No discussions by {user.username.shown} found.[/yellow]"
  else
    let rows ← rowsOf key shown
    Host.display (.table ⟨s!"Discussions — {m.webUrl.shown}", columns, rows⟩)

end MergeDecoration.CommandLine.Discussions
