import MergeDecoration.Config
import MergeDecoration.Discussion.Classification
import MergeDecoration.Note.Summary
import MergeDecoration.Program

/-!
Decorating a merge request: its discussions are brought in line with an analysis. Everything is
read first; then the writes go out one by one, and the first failure ends the run.
-/
namespace MergeDecoration

inductive SummaryAction
  | created
  | edited
  deriving DecidableEq

def SummaryAction.name : SummaryAction → String
  | created => "created"
  | edited => "edited"

/-- What a run did. -/
structure Outcome where
  mergeRequestUrl : Value
  created : Nat
  resolved : Nat
  noted : Nat
  summary : SummaryAction

/-- What a run knows once everything is read. -/
structure Snapshot where
  analysis : Analysis
  mergeRequest : MergeRequest
  username : Value
  commits : List Value
  discussions : List Classified
  config : Config

namespace Classified

/-- Whether a discussion is an open one for an issue of the project. -/
def isLiveIssue (c : Classified) (project : String) : Bool :=
  (c.kind == .singleIdentified || c.kind == .mixed) && !c.closed &&
    (c.identity.map (·.project)) == some (some project)

def issueKey? (c : Classified) : Option String := c.identity.map (·.issue)

private def identityText (i : IssueIdentity) : String :=
  let project := match i.project with
    | none => "None"
    | some p => Text.quoted p
  "ProjectIssueIdentifier(project_key=" ++ project ++ ", issue_key=" ++ Text.quoted i.issue ++ ")"

/-- The log message about a classification. -/
def report (c : Classified) : String :=
  let closed := if c.closed then "True" else "False"
  let identity := (c.identity.map identityText).getD "None"
  s!"Discussion {c.discussion.id.shown} classified as {c.kind.name} " ++
    s!"(closed={closed}, identifier={identity})"

end Classified

open Program

/-- Classify discussions in order, with a log record for each. -/
def classifyAll (username : Value) (project : Option String) :
    List Discussion → Program (List Classified)
  | [] => pure []
  | d :: rest => do
    let c ← d.classify username project
    debug c.report
    return c :: (← classifyAll username project rest)

namespace Snapshot

/-- Issue keys that already have an open discussion. -/
def representedKeys (s : Snapshot) : List String :=
  (s.discussions.filter (·.isLiveIssue s.analysis.projectKey)).filterMap (·.issueKey?)

/-- Open a discussion for an issue if its line was changed by the merge request; true if so. -/
def createIssueNote (s : Snapshot) (i : Issue) (path : Value) (line : Int) : Program Bool := do
  match ← call (.changeset path line) with
  | none =>
    debug s!"No changeset for {path.shown}:{line} (issue {i.key}), skipping"
    return false
  | some revision =>
    if !s.commits.any (·.same (.text revision)) then
      let short := String.ofList (revision.toList.take 7)
      debug s!"Issue {i.key} was introduced outside the merge request ({short}), skipping"
      return false
    let m := s.mergeRequest
    let note : LineNote := {
      body := ← s.analysis.issueNote i
      baseSha := m.baseSha
      startSha := m.startSha
      headSha := m.headSha
      oldPath := path
      newPath := path
      newLine := .int line }
    let _ ← step .createIssueNote (.createDiscussion m.targetProject m.iid (.line note))
    return true

/-- Open discussions for issues that have none; the number of those opened. -/
def createIssueNotes (s : Snapshot) (represented : List String) : List Issue → Program Nat
  | [] => pure 0
  | i :: rest => do
    let created ← match i.anchor? with
      | none => do
        debug s!"Issue {i.key} has no line or path, summary only"
        pure false
      | some (path, line) =>
        if represented.contains i.key then do
          debug s!"Issue {i.key} already has a discussion"
          pure false
        else s.createIssueNote i path line
    return (← s.createIssueNotes represented rest) + cond created 1 0

/-- Close the discussions of issues that are gone: resolve those without replies, flag the others.
The numbers of both. -/
def closeStale (s : Snapshot) (liveKeys : List String) : List Classified → Program (Nat × Nat)
  | [] => pure (0, 0)
  | c :: rest => do
    let m := s.mergeRequest
    let key := c.issueKey?.getD ""
    if !c.isLiveIssue s.analysis.projectKey || liveKeys.contains key then
      s.closeStale liveKeys rest
    else
      let d := c.discussion.id
      if c.kind == .mixed then
        debug s!"Issue {key} is gone but discussion {d.shown} has replies"
        step .flagDiscussion (.addNote m.targetProject m.iid d staleIssueNote)
        let (resolved, noted) ← s.closeStale liveKeys rest
        return (resolved, noted + 1)
      else
        debug s!"Issue {key} is gone, resolving discussion {d.shown}"
        step .resolveDiscussion (.resolve m.targetProject m.iid d)
        let (resolved, noted) ← s.closeStale liveKeys rest
        return (resolved + 1, noted)

/-- The id of the first note. -/
def firstNoteId (c : Classified) : Value := ((c.discussion.notes.head?).map (·.id)).getD .null

def isFlagged (s : Snapshot) (c : Classified) : Except Fault Bool :=
  c.discussion.hasNote s.username outdatedSummaryNote

/-- Delete an old summary, or flag it once if it has replies. -/
def retireSummary (s : Snapshot) (c : Classified) : Program Unit := do
  let m := s.mergeRequest
  let d := c.discussion.id
  if c.discussion.replies.isEmpty then
    debug s!"Deleting outdated summary note {(firstNoteId c).shown}"
    step .deleteSummary (.deleteNote m.targetProject m.iid d (firstNoteId c))
  else if ← s.isFlagged c then
    return
  else
    debug s!"Summary discussion {d.shown} has replies, marking it outdated"
    step .flagDiscussion (.addNote m.targetProject m.iid d outdatedSummaryNote)

def retireSummaries (s : Snapshot) : List Classified → Program Unit
  | [] => pure ()
  | c :: rest => do
    s.retireSummary c
    s.retireSummaries rest

def summaries (s : Snapshot) : List Classified := s.discussions.filter (·.kind == .summary)

/-- Retire older summaries and edit the current one; the discussion that holds it. -/
def editSummary (s : Snapshot) (older : List Classified) (current : Classified) (body : String) :
    Program Value := do
  let m := s.mergeRequest
  let d := current.discussion.id
  s.retireSummaries older
  debug s!"Editing summary note in discussion {d.shown}"
  step .editSummary (.editNote m.targetProject m.iid d (firstNoteId current) body)
  return d

/-- Retire all summaries and create a new one; the discussion that holds it. -/
def createSummary (s : Snapshot) (body : String) : Program Value := do
  let m := s.mergeRequest
  s.retireSummaries s.summaries
  debug "Creating summary discussion"
  let created ← step .createSummary (.createDiscussion m.targetProject m.iid (.general body))
  return Discussion.id created

/-- Edit the last summary that is not flagged if configured so and there is one, and create a new
one otherwise. -/
def writeSummary (s : Snapshot) (live : List Classified) (body : String) :
    Program (Value × SummaryAction) :=
  match live.getLast?, (s.config.get "summary_note_edit").holds with
  | some current, true => do return (← s.editSummary live.dropLast current body, .edited)
  | _, _ => do return (← s.createSummary body, .created)

/-- Resolve the summary if the gate passed. -/
def closeSummary (s : Snapshot) (discussion : Value) : Program Unit := do
  let m := s.mergeRequest
  if s.analysis.passed then
    step .resolveDiscussion (.resolve m.targetProject m.iid discussion)

def reconcileSummary (s : Snapshot) : Program SummaryAction := do
  let body ← s.analysis.summaryNote
  let live ← s.summaries.filterM fun c => return !(← s.isFlagged c)
  let (discussion, action) ← s.writeSummary live body
  s.closeSummary discussion
  return action

def pushStatus (s : Snapshot) : Program Unit := do
  let status : PipelineStatus := {
    name := "SonarQube"
    description := "SonarQube Status"
    succeeded := s.analysis.passed
    targetUrl := ← s.analysis.dashboard
    coverage := (s.analysis.newCoverage.map Value.float).getD .null
    pipeline := s.config.get "pipeline_id" }
  step .pushStatus (.pushStatus s.mergeRequest.sourceProject s.analysis.commitSha status)

/-- The address shown for the merge request: below the configured project, or its own. -/
def mergeRequestUrl (s : Snapshot) : Except Fault Value := do
  let project := s.config.get "project_url"
  if project.holds then
    let base ← project.textOperand
    let iid := s.mergeRequest.iid
    if !iid.isWritable then throw (.invalid .unwritable)
    return .text (Text.dropTailSlashes base ++ "/merge_requests/" ++ iid.shown)
  else return s.mergeRequest.webUrl

/-- Bring the issue discussions in line: created, resolved, noted. -/
def reconcileIssues (s : Snapshot) : Program (Nat × Nat × Nat) := do
  let issues := s.analysis.openIssues
  let created ← s.createIssueNotes s.representedKeys issues
  let (resolved, noted) ← s.closeStale (issues.map (·.key)) s.discussions
  return (created, resolved, noted)

/-- Bring the summary and the issue discussions in line, in the configured order. -/
def reconcile (s : Snapshot) : Program (SummaryAction × Nat × Nat × Nat) := do
  if (s.config.get "summary_note_first").holds then
    let summary ← s.reconcileSummary
    return (summary, ← s.reconcileIssues)
  else
    let counts ← s.reconcileIssues
    return (← s.reconcileSummary, counts)

/-- All writes of a run. -/
def write (s : Snapshot) : Program Outcome := do
  let mergeRequestUrl ← s.mergeRequestUrl
  let (summary, created, resolved, noted) ← s.reconcile
  s.pushStatus
  debug (s!"Decorated {mergeRequestUrl.shown}: {created} created, {resolved} resolved, " ++
    s!"{noted} noted, summary {summary.name}")
  return { mergeRequestUrl, created, resolved, noted, summary }

end Snapshot

/-- The number of the merge request: the integer that the trimmed text of a value denotes. -/
def readNumber (v : Value) : Except Fault Int :=
  let read := if v.isWritable then integerOfText (Text.trim v.shown) else .error .unwritable
  read.mapError fun e => .decoration .readNumber (.invalid e)

/-- Every commit has to be usable as a key. -/
def checkCommits (commits : List Value) : Except Fault Unit :=
  match commits.find? (!·.isKey) with
  | some v => .error (.misuse (.keyFrom v.kind))
  | none => .ok ()

/-- The analysis with the configured server address, if there is one. -/
def Analysis.withServer (a : Analysis) (config : Config) : Analysis :=
  let server := config.get "server_url"
  if server.holds then { a with serverUrl := server } else a

/-- Decorate merge request `number` of a project, or the one the analysis names if `number` is
null. -/
def decorate (analysis : Analysis) (project : String) (config : Config) (number : Value := .null) :
    Program Outcome := do
  let iid ← readNumber (if number.isNull then .text analysis.pullRequestId else number)
  let mergeRequest ← step .readMergeRequest (.mergeRequest project (.int iid))
  let user ← step .readUser .currentUser
  let target := MergeRequest.targetProject mergeRequest
  let commits ← step .readCommits (.commits target (MergeRequest.iid mergeRequest))
  checkCommits commits
  let raw ← step .readDiscussions (.discussions target (MergeRequest.iid mergeRequest))
  let analysis := analysis.withServer config
  let username := User.username user
  let discussions ← classifyAll username (some analysis.projectKey) raw
  Snapshot.write { analysis, mergeRequest, username, commits, discussions, config }

end MergeDecoration
