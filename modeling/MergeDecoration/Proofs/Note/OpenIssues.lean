import MergeDecoration.Note.Summary
import MergeDecoration.Proofs.Decoration.IssuePlan
import MergeDecoration.Proofs.Discussion.Classification

/-!
Where an open issue is shown: on a line of the merge request, or in the list at the end of the
summary. The two tests do not cover all issues between them: one with a line and no path is shown
nowhere.
-/
namespace MergeDecoration

open Program

attribute [local irreducible] Program.Completes

namespace Issue

/-- Whether the summary lists an issue. -/
def isListed (i : Issue) : Bool := i.isOpen && i.line.isNone

/-- What of an issue is counted in the summary. -/
def counted (i : Issue) : Bool × String × String := (i.anchor?.isSome, i.type, i.severity)

variable {i : Issue}

theorem anchor?_eq_none_of_path (h : i.path.holds = false) : i.anchor? = none := by
  rw [anchor?]
  cases i.line with
  | none => rfl
  | some n =>
    dsimp only
    rw [h, if_neg Bool.false_ne_true]

theorem anchor?_eq_some {line : Int} (hline : i.line = some line) (hpath : i.path.holds = true) :
    i.anchor? = some (i.path, line) := by
  rw [anchor?, hline]
  dsimp only
  rw [if_pos hpath]

end Issue

namespace Snapshot

variable {s : Snapshot} {p : Platform} {rs : List Request} {represented : List String} {n : Nat}
  {i : Issue} {issues before after : List Issue}

/-- An issue with an anchor is looked up in the working copy unless it has a discussion. -/
theorem changeset_mem_of_createIssueNotes {path : Value} {line : Int}
    (h : (s.createIssueNotes represented issues).Completes p rs n) (hi : i ∈ issues)
    (hanchor : i.anchor? = some (path, line)) (hkey : i.key ∉ represented) :
    .changeset path line ∈ rs := by
  obtain ⟨-, rfl, -⟩ := completes_createIssueNotes.mp h
  have hnot : represented.contains i.key = false := by
    rw [← Bool.not_eq_true, List.contains_iff_mem]
    exact hkey
  refine List.mem_flatMap.mpr ⟨i, hi, ?_⟩
  rw [issueRequests, hanchor]
  dsimp only
  rw [hnot, if_neg Bool.false_ne_true]
  exact List.mem_cons_self ..

/-- An issue without an anchor might as well not be there. -/
theorem createIssueNotes_of_anchor?_eq_none (hanchor : i.anchor? = none) :
    (s.createIssueNotes represented (before ++ i :: after)).Completes p rs n ↔
      (s.createIssueNotes represented (before ++ after)).Completes p rs n := by
  have hdue : s.isDue p.changeset represented i = false := by rw [isDue, hanchor]
  have hrequests : s.issueRequests p.changeset represented i = [] := by
    rw [issueRequests, hanchor]
  rw [completes_createIssueNotes, completes_createIssueNotes, List.forall_mem_append,
    List.forall_mem_append, List.forall_mem_cons, List.flatMap_append, List.flatMap_append,
    List.flatMap_cons, List.countP_append, List.countP_append, List.countP_cons, hdue, hrequests]
  simp

end Snapshot

namespace Analysis

variable {a : Analysis} {i j : Issue} {before after : List Issue}

/-- The entries of the list at the end of the summary. -/
def entries (issues : List Issue) : List String := (issues.filter (·.isListed)).map unanchoredLine

theorem openIssues_eq (h : a.issues = before ++ i :: after) (hopen : i.isOpen = true) :
    a.openIssues = before.filter (·.isOpen) ++ i :: after.filter (·.isOpen) := by
  rw [openIssues, h, List.filter_append, List.filter_cons_of_pos hopen]

theorem exists_dashboard (h : a.serverUrl.IsText) : ∃ url, a.dashboard = .ok url := by
  obtain ⟨server, hserver⟩ := h
  rw [dashboard, dashboardUrl, underServer, hserver]
  exact ⟨_, rfl⟩

theorem summaryNote_of_dashboard {url : String} (h : a.dashboard = .ok url) :
    a.summaryNote = .ok ("\n".intercalate (a.summaryLines ++ [ViewLink.write url])) := by
  rw [summaryNote, h]
  rfl

theorem filter_openIssues (a : Analysis) :
    a.openIssues.filter (·.line.isNone) = a.issues.filter (·.isListed) := by
  rw [openIssues, List.filter_filter]
  apply List.filter_congr
  intro i _
  rw [Issue.isListed, Bool.and_comm]

/-- If there are entries, a heading stands above them. -/
theorem unanchoredLines_eq (h : entries a.issues ≠ []) :
    unanchoredLines a.openIssues = "\n**Issues without a line number:**" :: entries a.issues := by
  rw [entries, Ne, List.map_eq_nil_iff] at h
  rw [unanchoredLines, filter_openIssues, entries]
  cases hlisted : a.issues.filter (·.isListed) with
  | nil => exact absurd hlisted h
  | cons i rest => rfl

/-- An open issue without a line has its entry, between those of the issues before and after it. -/
theorem exists_summaryLines (h : a.issues = before ++ i :: after) (hlisted : i.isListed = true) :
    ∃ above below, above ≠ [] ∧ a.summaryLines =
      above ++ (entries before ++ unanchoredLine i :: entries after) ++ below := by
  have hentries : entries a.issues = entries before ++ unanchoredLine i :: entries after := by
    rw [entries, h, List.filter_append, List.filter_cons_of_pos hlisted, List.map_append,
      List.map_cons]
    rfl
  have hne : entries a.issues ≠ [] := by
    rw [hentries]
    exact List.append_ne_nil_of_right_ne_nil _ (List.cons_ne_nil _ _)
  rw [summaryLines, unanchoredLines_eq hne, ← hentries, List.append_cons _ "\n**Issues without a line number:**"]
  exact ⟨_, _, List.append_ne_nil_of_right_ne_nil _ (List.cons_ne_nil _ _), rfl⟩

/-- The table and the figures above it show what is counted and nothing else. -/
theorem counts_congr {issues others : List Issue}
    (h : issues.map (·.counted) = others.map (·.counted)) :
    a.statistics issues = a.statistics others ∧ CountRow.table issues = CountRow.table others := by
  have hcount : ∀ q : Bool × String × String → Bool,
      (issues.filter fun i => q i.counted).length = (others.filter fun i => q i.counted).length := by
    intro q
    have hmap : ∀ is : List Issue, (is.filter fun i => q i.counted).length =
        (is.map (·.counted)).countP q := by
      intro is
      rw [← List.countP_eq_length_filter, List.countP_map]
      rfl
    rw [hmap, hmap, h]
  have hlength : issues.length = others.length := by
    rw [← List.length_map (f := Issue.counted), h, List.length_map]
  have hanchored : (issues.filter fun i => i.anchor?.isSome).length =
      (others.filter fun i => i.anchor?.isSome).length := hcount (·.1)
  have htally : Tally.ofIssues issues = Tally.ofIssues others := by
    have hmap : ∀ is : List Issue, Tally.ofIssues is = (is.map (·.counted)).foldl (fun types q =>
        Tally.alter Tally.noCounts (Tally.alter 0 (· + 1) (Text.upper q.2.2)) q.2.1 types)
        Tally.noTypes := by
      intro is
      rw [List.foldl_map]
      rfl
    rw [hmap, hmap, h]
  constructor
  · rw [statistics, statistics, hlength, hanchored]
  · rw [CountRow.table, CountRow.table, htally]

/-- An open issue with a line and no path is counted in the summary, and nothing else of it is
told. -/
theorem summaryNote_of_lost (h : a.issues = before ++ i :: after) (hopen : i.isOpen = true)
    (hline : i.line ≠ none) (hpath : i.path.holds = false) (hopen' : j.isOpen = true)
    (hline' : j.line ≠ none) (hpath' : j.path.holds = false) (htype : j.type = i.type)
    (hseverity : j.severity = i.severity) :
    ({ a with issues := before ++ j :: after } : Analysis).summaryNote = a.summaryNote := by
  have hcounted : j.counted = i.counted := by
    rw [Issue.counted, Issue.counted, Issue.anchor?_eq_none_of_path hpath,
      Issue.anchor?_eq_none_of_path hpath', htype, hseverity]
  have hlisted : ∀ k : Issue, k.line ≠ none → k.isListed = false := by
    intro k hk
    rw [Issue.isListed, Option.isNone_eq_false_iff.mpr (Option.isSome_iff_ne_none.mpr hk),
      Bool.and_false]
  let b : Analysis := { a with issues := before ++ j :: after }
  have hb : b.issues = before ++ j :: after := rfl
  have hopens : b.openIssues.map (·.counted) = a.openIssues.map (·.counted) := by
    rw [openIssues_eq hb hopen', openIssues_eq h hopen, List.map_append, List.map_append,
      List.map_cons, List.map_cons, hcounted]
  obtain ⟨hstatistics, htable⟩ := counts_congr (a := a) hopens
  have hentries : unanchoredLines b.openIssues = unanchoredLines a.openIssues := by
    rw [unanchoredLines, unanchoredLines, filter_openIssues, filter_openIssues, h, hb,
      List.filter_append, List.filter_append, List.filter_cons_of_neg, List.filter_cons_of_neg]
    · rw [hlisted i hline]
      exact Bool.false_ne_true
    · rw [hlisted j hline']
      exact Bool.false_ne_true
  have hlines : b.summaryLines = a.summaryLines := by
    rw [summaryLines, summaryLines, htable, hentries, ← hstatistics]
    rfl
  change b.summaryNote = _
  rw [summaryNote, hlines]
  rfl

/-- An open issue without a line has an entry in the summary, and one with a line and a path is a
candidate for a discussion. One with a line and no path is neither: a run asks nothing for it, and
whatever its key, its message and its rule are, the summary is the same. -/
theorem openIssue_cases (hserver : a.serverUrl.IsText) (h : a.issues = before ++ i :: after)
    (hopen : i.isOpen = true) : ∃ body, a.summaryNote = .ok body ∧
      ((i.line = none ∧ ∃ above below, above ≠ [] ∧ below ≠ [] ∧ body = "\n".intercalate
          (above ++ (entries before ++ unanchoredLine i :: entries after) ++ below)) ∨
        (∃ path line, i.anchor? = some (path, line) ∧
          ∀ (s : Snapshot) represented p rs n,
            (s.createIssueNotes represented a.openIssues).Completes p rs n →
            i.key ∉ represented → .changeset path line ∈ rs) ∨
        (i.line ≠ none ∧ i.path.holds = false ∧
          (∀ (s : Snapshot) represented p rs n,
            (s.createIssueNotes represented a.openIssues).Completes p rs n ↔
              (s.createIssueNotes represented
                { a with issues := before ++ after }.openIssues).Completes p rs n) ∧
          ∀ j : Issue, j.isOpen = true → j.line ≠ none → j.path.holds = false →
            j.type = i.type → j.severity = i.severity →
            { a with issues := before ++ j :: after }.summaryNote = .ok body)) := by
  obtain ⟨url, hurl⟩ := exists_dashboard hserver
  have hbody := summaryNote_of_dashboard hurl
  have hopens := openIssues_eq h hopen
  refine ⟨_, hbody, ?_⟩
  cases hline : i.line with
  | none =>
    have hlisted : i.isListed = true := by
      rw [Issue.isListed, hopen, hline]
      rfl
    obtain ⟨above, below, hne, hlines⟩ := exists_summaryLines h hlisted
    refine Or.inl ⟨rfl, above, below ++ [ViewLink.write url], hne,
      List.append_ne_nil_of_right_ne_nil _ (List.cons_ne_nil _ _), ?_⟩
    rw [hlines, List.append_assoc _ below]
  | some line =>
    cases hpath : i.path.holds with
    | true =>
      refine Or.inr (Or.inl ⟨i.path, line, Issue.anchor?_eq_some hline hpath, ?_⟩)
      intro s represented p rs n hcompletes hkey
      refine Snapshot.changeset_mem_of_createIssueNotes hcompletes ?_
        (Issue.anchor?_eq_some hline hpath) hkey
      rw [hopens]
      exact List.mem_append_right _ (List.mem_cons_self ..)
    | false =>
      have hsome : i.line ≠ none := by
        rw [hline]
        exact Option.some_ne_none line
      refine Or.inr (Or.inr ⟨Option.some_ne_none line, rfl, ?_, ?_⟩)
      · intro s represented p rs n
        have hothers : ({ a with issues := before ++ after } : Analysis).openIssues =
            before.filter (·.isOpen) ++ after.filter (·.isOpen) := List.filter_append ..
        rw [hopens, hothers]
        exact Snapshot.createIssueNotes_of_anchor?_eq_none (Issue.anchor?_eq_none_of_path hpath)
      · intro j hopen' hline' hpath' htype hseverity
        rw [summaryNote_of_lost h hopen hsome hpath hopen' hline' hpath' htype hseverity, hbody]

/-- The three kinds of open issues side by side; the one without a line is listed. -/
theorem openIssue_cases_entry :
    let onLine : Issue := { key := "K1", line := some 3, path := .text "a.py" }
    let listed : Issue := { key := "K2", severity := "INFO", message := .text "no tests" }
    let lost : Issue := { key := "K3", line := some 5, message := .text "lost" }
    let a : Analysis := {
      projectKey := "proj"
      pullRequestId := "5"
      commitSha := "abc"
      gate := .error
      serverUrl := .text "https://sonar.example.com"
      issues := [onLine, listed, lost] }
    ∃ body, a.summaryNote = .ok body ∧ ∃ above below, above ≠ [] ∧ below ≠ [] ∧
      body = "\n".intercalate (above ++ ["- no tests (info)"] ++ below) := by
  intro onLine listed lost a
  have hissues : a.issues = [onLine] ++ listed :: [lost] := rfl
  obtain ⟨body, hbody, hcases⟩ := openIssue_cases ⟨_, rfl⟩ hissues rfl
  refine ⟨body, hbody, ?_⟩
  have hmessage : listed.message.orElse (.text listed.key) = .text "no tests" := rfl
  have hentry : unanchoredLine listed = "- no tests (info)" := by
    rw [unanchoredLine, hmessage, Value.shown_text]
    decide
  rw [show entries [onLine] = [] from rfl, show entries [lost] = [] from rfl, hentry] at hcases
  rcases hcases with ⟨-, hlines⟩ | ⟨path, line, hanchor, -⟩ | ⟨hline, -⟩
  · exact hlines
  · cases hanchor
  · exact absurd rfl hline

/-- An open issue with a line and no path is no candidate for a discussion, and the summary shows
neither its message nor its key. -/
theorem openIssue_lost :
    let lost : Issue := { key := "K1", line := some 5, message := .text "lost" }
    let a : Analysis := {
      projectKey := "proj"
      pullRequestId := "5"
      commitSha := "abc"
      gate := .error
      serverUrl := .text "https://sonar.example.com"
      issues := [lost] }
    lost ∈ a.openIssues ∧ lost.anchor? = none ∧ ∃ body, a.summaryNote = .ok body ∧
      ∀ text ∈ ["lost", "K1"], ¬text.toList <:+: body.toList := by
  intro lost a
  refine ⟨List.mem_singleton_self _, rfl, _, summaryNote_of_dashboard rfl, ?_⟩
  rw [String.toList_intercalate]
  decide +kernel

end Analysis
end MergeDecoration
