import MergeDecoration.Decoration
import MergeDecoration.Proofs.Program.Exchange

/-!
Issues that are closed. A run goes by the issues of its analysis where it opens threads, where it
looks for the issues that are gone, and where it counts and lists for the summary. In each of these
places it sees the open ones alone, so it does not matter which closed ones are reported beside
them.
-/
namespace MergeDecoration

open Program

/-- The analysis with other issues. -/
def Analysis.reporting (a : Analysis) (issues : List Issue) : Analysis := { a with issues }

/-- The snapshot with other issues. -/
def Snapshot.reporting (s : Snapshot) (issues : List Issue) : Snapshot :=
  { s with analysis := s.analysis.reporting issues }

namespace Analysis

variable {a : Analysis} {issues : List Issue}

theorem withServer_reporting (a : Analysis) (issues : List Issue) (config : Config) :
    (a.reporting issues).withServer config = (a.withServer config).reporting issues := by
  simp only [withServer]
  split <;> rfl

/-- The summary counts and lists open issues. -/
theorem summaryNote_reporting (h : (a.reporting issues).openIssues = a.openIssues) :
    (a.reporting issues).summaryNote = a.summaryNote := by
  have hlines : (a.reporting issues).summaryLines = a.summaryLines := by
    simp only [summaryLines, h]
    rfl
  simp only [summaryNote, hlines]
  rfl

/-- An issue is open unless its status is one of the three that close it. -/
theorem filter_status_eq_openIssues (a : Analysis) :
    a.issues.filter (·.status ∉ [.fixed, .accepted, .falsePositive]) = a.openIssues := by
  apply List.filter_congr
  intro i _
  rw [Issue.isOpen]
  cases i.status <;> decide

theorem openIssues_reporting_openIssues (a : Analysis) :
    (a.reporting a.openIssues).openIssues = a.openIssues := by
  simp [reporting, openIssues]

end Analysis

namespace Snapshot

variable {s : Snapshot} {issues : List Issue}

/-- A thread is opened with a note that shows its own issue and no other. -/
theorem createIssueNotes_reporting (s : Snapshot) (issues : List Issue)
    (represented : List String) (sought : List Issue) :
    (s.reporting issues).createIssueNotes represented sought =
      s.createIssueNotes represented sought := by
  induction sought with
  | nil => rfl
  | cons i rest ih =>
    simp only [createIssueNotes, ih]
    rfl

theorem closeStale_reporting (s : Snapshot) (issues : List Issue) (keys : List String)
    (cs : List Classified) :
    (s.reporting issues).closeStale keys cs = s.closeStale keys cs := by
  induction cs with
  | nil => rfl
  | cons c rest ih =>
    simp only [closeStale, ih]
    rfl

theorem retireSummaries_reporting (s : Snapshot) (issues : List Issue) (cs : List Classified) :
    (s.reporting issues).retireSummaries cs = s.retireSummaries cs := by
  induction cs with
  | nil => rfl
  | cons c rest ih =>
    simp only [retireSummaries, ih]
    rfl

theorem writeSummary_reporting (s : Snapshot) (issues : List Issue) (live : List Classified)
    (body : String) :
    (s.reporting issues).writeSummary live body = s.writeSummary live body := by
  have hcreate : (s.reporting issues).createSummary body = s.createSummary body := by
    simp only [createSummary, retireSummaries_reporting]
    rfl
  have hedit : ∀ c, (s.reporting issues).editSummary live.dropLast c body =
      s.editSummary live.dropLast c body := by
    intro c
    simp only [editSummary, retireSummaries_reporting]
    rfl
  simp only [writeSummary, hcreate, hedit]
  rfl

section

variable (h : (s.analysis.reporting issues).openIssues = s.analysis.openIssues)

include h

theorem reconcileIssues_reporting : (s.reporting issues).reconcileIssues = s.reconcileIssues := by
  have hopen : (s.reporting issues).analysis.openIssues = s.analysis.openIssues := h
  simp only [reconcileIssues, hopen, createIssueNotes_reporting, closeStale_reporting]
  rfl

theorem reconcileSummary_reporting :
    (s.reporting issues).reconcileSummary = s.reconcileSummary := by
  have hbody : (s.reporting issues).analysis.summaryNote = s.analysis.summaryNote :=
    Analysis.summaryNote_reporting h
  simp only [reconcileSummary, hbody, writeSummary_reporting]
  rfl

/-- Whatever a run writes, it writes on account of issues that are open. -/
theorem write_reporting : (s.reporting issues).write = s.write := by
  have hreconcile : (s.reporting issues).reconcile = s.reconcile := by
    simp only [reconcile, reconcileIssues_reporting h, reconcileSummary_reporting h]
    rfl
  simp only [write, hreconcile]
  rfl

end

end Snapshot

variable {analysis : Analysis} {project : String} {config : Config} {number : Value}

/-- Two analyses that differ in closed issues alone are decorated by the same program. -/
theorem decorate_reporting {issues : List Issue}
    (h : (analysis.reporting issues).openIssues = analysis.openIssues) :
    decorate (analysis.reporting issues) project config number =
      decorate analysis project config number := by
  have hwrite : ∀ mergeRequest username commits discussions,
      Snapshot.write ⟨(analysis.withServer config).reporting issues, mergeRequest, username,
          commits, discussions, config⟩ =
        Snapshot.write ⟨analysis.withServer config, mergeRequest, username, commits,
          discussions, config⟩ := by
    intro mergeRequest username commits discussions
    refine Snapshot.write_reporting (s := ⟨analysis.withServer config, _, _, _, _, _⟩) ?_
    rw [← Analysis.withServer_reporting]
    simp only [Analysis.withServer]
    split <;> exact h
  simp only [decorate, Analysis.withServer_reporting, hwrite]
  rfl

/-- Closed issues are as good as absent: without those that are fixed, accepted or false positives
a run makes the same requests with the same bodies, and whoever answers them, it is answered the
same and ends the same. -/
theorem decorate_without_closed_issues {σ : Type} (b : Backend σ) (w : σ) :
    let kept := analysis.issues.filter (·.status ∉ [.fixed, .accepted, .falsePositive])
    let shorter := decorate (analysis.reporting kept) project config number
    let run := decorate analysis project config number
    shorter.trace b w = run.trace b w ∧ shorter.run b w = run.run b w := by
  intro kept shorter run
  have hkept : kept = analysis.openIssues := analysis.filter_status_eq_openIssues
  have hopen : (analysis.reporting kept).openIssues = analysis.openIssues := by
    rw [hkept]
    exact analysis.openIssues_reporting_openIssues
  have hsame : shorter = run := decorate_reporting hopen
  simp only [hsame, and_self]

end MergeDecoration
