import MergeDecoration.Proofs.Decoration.Succession

/-!
The gate and the state of the summary. A run whose gate passes leaves the live summary resolved. No
run reopens one, so a summary that is edited in place stays resolved once it is; only a new summary
starts out open.
-/
namespace MergeDecoration

theorem Platform.IsNew.resolved {p : Platform} {body : String} {resolved : Bool} {d : Discussion}
    (h : p.IsNew body resolved d) : d.isResolvable = true ∧ d.resolved = resolved := by
  obtain ⟨k, m, -, -, rfl⟩ := h
  exact ⟨rfl, Bool.true_and resolved⟩

namespace Snapshot

variable {s : Snapshot} {p : Platform}

/-- After the whole plan the live summary is resolved if the gate passed, or if it was the current
one and was resolved before. -/
theorem Sound.resolved_after_plan (h : s.Sound p)
    (hlive : ∀ c ∈ s.live, c.discussion.isResolvable = true) :
    ∃ d, (p.after (s.plan p.changeset p.opened)).discussions.filter
        (·.isLiveSummary p.username s.analysis.projectKey) = [d] ∧ d.isResolvable = true ∧
      d.resolved = (s.analysis.passed || s.current?.any (·.discussion.resolved)) := by
  obtain ⟨d, hd, hcases⟩ := h.live_cases
  refine ⟨d, hd, ?_⟩
  rcases hcases with ⟨c, hc, hcurrent, n, htreated⟩ | ⟨hnone, hnew⟩
  · have hresolvable := hlive c (mem_live_of_current? hcurrent)
    have hedited := (c.discussion.isResolvable_editNote (firstNoteId c) s.summaryBody).trans
      hresolvable
    rw [treated_of_isCurrent _ ((isCurrent_iff h.hasOwnIds hc).mpr hcurrent)] at htreated
    rw [← Option.some.inj htreated, hcurrent, Option.any_some]
    cases s.analysis.passed with
    | true => exact ⟨Discussion.isResolvable_resolve.trans hedited,
        Discussion.resolved_resolve hedited⟩
    | false => exact ⟨hedited, Discussion.resolved_editNote ..⟩
  · rw [hnone, Option.any_none, Bool.or_false]
    exact hnew.resolved

end Snapshot

/-- The summaries of a project that are not flagged. -/
def Watched.live (w : Watched) (project : String) : List Discussion :=
  w.platform.discussions.filter (·.isLiveSummary w.platform.username project)

/-- Whether a run edits a summary in place. -/
def Run.edits (r : Run) : Bool := (r.config.get "summary_note_edit").holds

theorem Analysis.passed_withServer (a : Analysis) (config : Config) :
    (a.withServer config).passed = a.passed := by
  rw [withServer]
  split <;> rfl

/-- A run that succeeds leaves its summary resolved if its gate passed, or if it has edited one that
was resolved. -/
theorem Run.resolved_on {w : Watched} (r : Run) (hp : w.platform.IsRegular)
    (ha : (r.analysis.withServer r.config).IsReadable) (hok : (r.on w).1.isOk = true)
    (hlive : ∀ d ∈ w.live r.analysis.projectKey, d.isResolvable = true) :
    ∃ d, (r.on w).2.live r.analysis.projectKey = [d] ∧ d.isResolvable = true ∧
      d.resolved = (r.analysis.passed ||
        r.edits && (w.live r.analysis.projectKey).getLast?.any (·.resolved)) := by
  obtain ⟨iid, s, hshows, hsound, hplatform⟩ := r.exists_sound_on hp ha hok
  have hseen : w.live r.analysis.projectKey = s.live.map (·.discussion) := by
    rw [← hshows.projectKey]
    exact hsound.filter_isLiveSummary
  rw [hseen] at hlive
  obtain ⟨d, hd, hresolvable, hresolved⟩ := hsound.resolved_after_plan fun c hc =>
    hlive c.discussion (List.mem_map_of_mem hc)
  refine ⟨d, ?_, hresolvable, ?_⟩
  · rw [Watched.live, r.username_on, ← hshows.projectKey, hplatform]
    exact hd
  · rw [hresolved, hshows.analysis, Analysis.passed_withServer, hseen, List.getLast?_map,
      Option.any_map, Snapshot.current?, hshows.config, edits]
    cases (r.config.get "summary_note_edit").holds <;> rfl

/-- Whether runs succeed, one after another. -/
def Watched.succeeds (w : Watched) : List Run → Bool
  | [] => true
  | r :: rs => (r.on w).1.isOk && (r.on w).2.succeeds rs

/-- Whether the summary is resolved after runs, if it was or was not before them. -/
def standing (resolved : Bool) (rs : List Run) : Bool :=
  rs.foldl (fun resolved r => r.analysis.passed || r.edits && resolved) resolved

/-- The summary is resolved if some run's gate passed and the later runs only edited it. -/
theorem standing_iff {resolved : Bool} {rs : List Run} : standing resolved rs = true ↔
    (resolved = true ∧ ∀ r ∈ rs, r.edits = true) ∨
    ∃ older passing newer, rs = older ++ passing :: newer ∧ passing.analysis.passed = true ∧
      ∀ r ∈ newer, r.edits = true := by
  induction rs generalizing resolved with
  | nil => simp [standing]
  | cons r rs ih =>
    change standing (r.analysis.passed || r.edits && resolved) rs = true ↔ _
    rw [ih, Bool.or_eq_true, Bool.and_eq_true]
    constructor
    · rintro (⟨hpassed | ⟨hedit, hresolved⟩, hedits⟩ | ⟨older, passing, newer, rfl, hpassed, hedits⟩)
      · exact Or.inr ⟨[], r, rs, rfl, hpassed, hedits⟩
      · exact Or.inl ⟨hresolved, List.forall_mem_cons.mpr ⟨hedit, hedits⟩⟩
      · exact Or.inr ⟨r :: older, passing, newer, rfl, hpassed, hedits⟩
    · rintro (⟨hresolved, hedits⟩ | ⟨older, passing, newer, heq, hpassed, hedits⟩)
      · obtain ⟨hedit, hrest⟩ := List.forall_mem_cons.mp hedits
        exact Or.inl ⟨Or.inr ⟨hedit, hresolved⟩, hrest⟩
      · cases older with
        | nil =>
          obtain ⟨rfl, rfl⟩ := List.cons.inj heq
          exact Or.inl ⟨Or.inl hpassed, hedits⟩
        | cons x older =>
          exact Or.inr ⟨older, passing, newer, (List.cons.inj heq).2, hpassed, hedits⟩

namespace Watched

variable {w : Watched} {project : String} {rs : List Run}

/-- Runs that succeed keep one live summary, and its state is what they make of it in turn. -/
theorem live_runs {d : Discussion} (hp : w.platform.IsRegular)
    (hruns : ∀ r ∈ rs, r.analysis.projectKey = project ∧
      (r.analysis.withServer r.config).IsReadable)
    (hok : w.succeeds rs = true) (hd : w.live project = [d]) (hresolvable : d.isResolvable = true) :
    ∃ e, (w.runs rs).live project = [e] ∧ e.resolved = standing d.resolved rs := by
  induction rs generalizing w d with
  | nil => exact ⟨d, hd, rfl⟩
  | cons r rs ih =>
    obtain ⟨⟨hproject, ha⟩, hrest⟩ := List.forall_mem_cons.mp hruns
    rw [succeeds, Bool.and_eq_true] at hok
    subst hproject
    obtain ⟨e, he, hnext, hresolved⟩ := r.resolved_on hp ha hok.1 (by simpa [hd] using hresolvable)
    rw [hd, List.getLast?_singleton, Option.any_some] at hresolved
    obtain ⟨last, hlast, hstanding⟩ := ih (r.isRegular_on hp) hrest hok.2 he hnext
    rw [hresolved] at hstanding
    exact ⟨last, hlast, hstanding⟩

theorem isRegular_of_discussions_eq_nil (hempty : w.platform.discussions = [])
    (huser : w.platform.username.same w.platform.username = true) : w.platform.IsRegular := by
  refine ⟨⟨?_, ?_⟩, huser, ?_⟩
  · rw [hempty]
    exact Value.Numbered.nil ..
  · rw [hempty]
    nofun
  · rw [hempty]
    nofun

/-- After runs that succeed on a merge request without discussions, there is one live summary of the
project. It is resolved if and only if the gate of some run passed and all later runs edited the
summary in place: after the last run itself if its gate passed, and never if its gate failed and it
wrote a new summary. -/
theorem summary_resolved_after_runs (hempty : w.platform.discussions = [])
    (huser : w.platform.username.same w.platform.username = true) (hne : rs ≠ [])
    (hruns : ∀ r ∈ rs, r.analysis.projectKey = project ∧
      (r.analysis.withServer r.config).IsReadable)
    (hok : w.succeeds rs = true) :
    ∃ d, (w.runs rs).live project = [d] ∧
      (d.resolved = true ↔ ∃ older passing newer, rs = older ++ passing :: newer ∧
        passing.analysis.passed = true ∧ ∀ r ∈ newer, r.edits = true) := by
  have hp := isRegular_of_discussions_eq_nil hempty huser
  have hnone : w.live project = [] := by
    rw [live, hempty]
    rfl
  obtain ⟨first, rest, rfl⟩ := List.exists_cons_of_ne_nil hne
  obtain ⟨⟨hproject, ha⟩, hrest⟩ := List.forall_mem_cons.mp hruns
  rw [succeeds, Bool.and_eq_true] at hok
  subst hproject
  obtain ⟨d, hd, hresolvable, hresolved⟩ := first.resolved_on hp ha hok.1 (by simp [hnone])
  rw [hnone] at hresolved
  obtain ⟨e, he, hstanding⟩ := live_runs (first.isRegular_on hp) hrest hok.2 hd hresolvable
  rw [hresolved] at hstanding
  have hall : e.resolved = standing false (first :: rest) := hstanding
  refine ⟨e, he, ?_⟩
  rw [hall, standing_iff, Bool.false_eq_true, false_and, false_or]

/-- A merge request without discussions. -/
def fresh : Watched where
  platform := { sampleWatched.platform with discussions := [] }

/-- A run that finds no issues and edits the summary in place. -/
def editingRun (gate : QualityGate) : Run where
  analysis := { sampleReport with gate, issues := [] }
  project := "g/p"
  config := [(.text "summary_note_edit", .bool true)]
  mergeRequest := sampleWatched.platform.mergeRequest

theorem isReadable_editingRun (gate : QualityGate) :
    ((editingRun gate).analysis.withServer (editingRun gate).config).IsReadable := by
  have hserver : ((editingRun gate).config.get "server_url").holds = false := by
    cases gate <;> decide +kernel
  have hsample := isReadable_sampleReport
  rw [Analysis.withServer_of_not_holds (by decide +kernel)] at hsample
  rw [Analysis.withServer_of_not_holds hserver]
  exact ⟨hsample.server, hsample.project, nofun, nofun⟩

/-- The gate passes in the second of three runs, and the third edits the summary. -/
theorem summary_resolved_after_runs_sample :
    let rs := [QualityGate.error, .ok, .error].map editingRun
    fresh.succeeds rs = true ∧ ∃ d, (fresh.runs rs).live "p k" = [d] ∧ d.resolved = true := by
  intro rs
  have hok : fresh.succeeds rs = true := by decide +kernel
  obtain ⟨d, hd, hresolved⟩ := summary_resolved_after_runs rfl (Value.same_text ..)
    (show rs ≠ [] from nofun)
    (List.forall_mem_map.mpr fun gate _ => ⟨rfl, isReadable_editingRun gate⟩) hok
  refine ⟨hok, d, hd, hresolved.mpr ⟨[editingRun .error], editingRun .ok, [editingRun .error], rfl,
    rfl, ?_⟩⟩
  intro r hr
  rw [List.mem_singleton.mp hr]
  decide +kernel

/-- A summary that was resolved when the gate passed still is when the gate fails. -/
theorem failing_gate_behind_resolved_summary :
    let rs := [QualityGate.ok, .error].map editingRun
    fresh.platform.discussions = [] ∧
      (∀ r ∈ rs, r.analysis.projectKey = "p k" ∧ (r.analysis.withServer r.config).IsReadable) ∧
      fresh.succeeds rs = true ∧ (editingRun .error).analysis.passed = false ∧
      ∃ d, (fresh.runs rs).live "p k" = [d] ∧ d.resolved = true := by
  intro rs
  obtain ⟨hok, hlive⟩ : fresh.succeeds rs = true ∧
      ((fresh.runs rs).live "p k").map (·.resolved) = [true] := by decide +kernel
  obtain ⟨d, hd, hresolved⟩ := List.map_eq_singleton_iff.mp hlive
  exact ⟨rfl, List.forall_mem_map.mpr fun gate _ => ⟨rfl, isReadable_editingRun gate⟩, hok, rfl, d,
    hd, hresolved⟩

end Watched
end MergeDecoration
