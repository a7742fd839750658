import MergeDecoration.Proofs.Decoration.Regularity

/-!
Runs one after another, each with a report and settings of its own. Whatever was there before and
whatever became of the earlier runs, a run that succeeds leaves one live summary, and that is its
own.
-/
namespace MergeDecoration

open Program
open Platform (noteId)

attribute [local irreducible] Program.Completes

theorem Analysis.withServer_of_not_holds {analysis : Analysis} {config : Config}
    (h : (config.get "server_url").holds = false) : analysis.withServer config = analysis := by
  rw [withServer, h, if_neg Bool.false_ne_true]

namespace Discussion

variable {d : Discussion}

/-- Whether a discussion holds a summary of the project that the user has not flagged. -/
def isLiveSummary (d : Discussion) (user : Value) (project : String) : Bool :=
  match d.classify user (some project) with
  | .ok c => c.kind == .summary && !(d.hasNote user outdatedSummaryNote).toOption.getD false
  | .error _ => false

/-- The body of the first note. -/
def firstBody? (d : Discussion) : Option Value := d.notes.head?.map (·.body)

theorem firstBody?_eq_face (d : Discussion) : d.firstBody? = d.face.map (·.2.1) := by
  rw [face, Option.map_map]
  rfl

theorem firstBody?_resolve (d : Discussion) : d.resolve.firstBody? = d.firstBody? := by
  rw [firstBody?_eq_face, face_resolve, firstBody?_eq_face]

theorem firstBody?_editNote {next : Nat → Value} {count : Nat} {first : Note} {rest : List Note}
    (hn : d.notes = first :: rest) (hids : Value.Numbered next count d.noteIds) (text : String) :
    (d.editNote first.id text).firstBody? = some (.text text) := by
  rw [editNote_first hn hids]
  rfl

end Discussion

namespace Snapshot

variable {s : Snapshot} {p : Platform} {c : Classified} {d : Discussion}

theorem isLiveSummary_of_classify
    (h : d.classify s.username (some s.analysis.projectKey) = .ok c) :
    d.isLiveSummary s.username s.analysis.projectKey = s.isLiveSummary c := by
  have hd := Discussion.discussion_of_classify h
  rw [Discussion.isLiveSummary, h, isLiveSummary, flagged, isFlagged, hd]

/-- A snapshot knows the live summaries of the platform. -/
theorem Sees.filter_isLiveSummary (h : s.Sees p) :
    p.discussions.filter (·.isLiveSummary p.username s.analysis.projectKey) =
      s.live.map (·.discussion) := by
  rw [← h.discussions_eq, ← h.username, List.filter_map, live_eq]
  congr 1
  apply List.filter_congr
  intro c hc
  exact isLiveSummary_of_classify (h.classify_of_mem hc)

/-- The current summary starts with the new text once it is edited. -/
theorem firstBody?_of_treated {note : Value} {e : Discussion} (h : s.Reads c)
    (hcurrent : s.isCurrent c = true) (he : s.treated note c = some e) :
    e.firstBody? = some (.text s.summaryBody) := by
  obtain ⟨first, rest, -, hn, -⟩ :=
    Discussion.startsSummary_of_kind h.classify (h.current hcurrent).1
  obtain ⟨count, hids⟩ := h.ids
  rw [treated_of_isCurrent _ hcurrent, firstNoteId_of_notes hn] at he
  rw [← Option.some.inj he]
  split
  · rw [Discussion.firstBody?_resolve, Discussion.firstBody?_editNote hn hids]
  · exact Discussion.firstBody?_editNote hn hids _

/-- After the whole plan there is one live summary: the current one, which was treated, or else a new
one. -/
theorem Sound.live_cases (h : s.Sound p) :
    ∃ d, (p.after (s.plan p.changeset p.opened)).discussions.filter
        (·.isLiveSummary p.username s.analysis.projectKey) = [d] ∧
      ((∃ c ∈ s.discussions, s.current? = some c ∧ ∃ n, s.treated (noteId n) c = some d) ∨
        s.current? = none ∧ p.IsNew s.summaryBody s.analysis.passed d) := by
  obtain ⟨threads, sums, hall, hsums⟩ := h.halfway_all
  have hfilter := hall.sees.filter_isLiveSummary
  rw [Platform.username_after] at hfilter
  rcases hsums with ⟨hsome, rfl⟩ | ⟨hnone, d, hd, rfl⟩
  · obtain ⟨c, hc⟩ := Option.ne_none_iff_exists'.mp hsome
    have hmem := (mem_live.mp (mem_live_of_current? hc)).1
    obtain ⟨k, hk, hlive⟩ := hall.live_again_of_current hc
    obtain ⟨n, -, htreated⟩ := h.treated hmem
    rw [hlive] at hfilter
    exact ⟨k.discussion, hfilter, Or.inl ⟨c, hmem, hc, n,
      htreated.symm.trans (hall.next_of_successor hmem hk).1⟩⟩
  · rw [hall.live_again_of_new hd] at hfilter
    exact ⟨d, hfilter, Or.inr ⟨hnone, hd⟩⟩

/-- After the whole plan the live summary has the new text. -/
theorem Sound.live_after_plan (h : s.Sound p) :
    ∃ d, (p.after (s.plan p.changeset p.opened)).discussions.filter
        (·.isLiveSummary p.username s.analysis.projectKey) = [d] ∧
      d.firstBody? = some (.text s.summaryBody) := by
  obtain ⟨d, hd, hcases⟩ := h.live_cases
  refine ⟨d, hd, ?_⟩
  rcases hcases with ⟨c, hc, hcurrent, n, htreated⟩ | ⟨-, hnew⟩
  · exact firstBody?_of_treated (h.reads hc) ((isCurrent_iff h.hasOwnIds hc).mpr hcurrent) htreated
  · obtain ⟨k, m, -, -, rfl⟩ := hnew
    rfl

end Snapshot

/-- A run with a report and settings of its own, and what it meets: the merge request and its
commits as they are by then, a working copy, an outage. -/
structure Run where
  analysis : Analysis
  project : String
  config : Config
  number : Value := .null
  mergeRequest : Value → MergeRequest
  commits : List Value := []
  changeset : Value → Int → Option String := fun _ _ => none
  outage : Outage := .never

namespace Run

/-- The platform as the run finds it. -/
def meets (r : Run) (p : Platform) : Platform :=
  { p with mergeRequest := r.mergeRequest, commits := r.commits, changeset := r.changeset }

def on (r : Run) (w : Watched) : Except Fault Outcome × Watched :=
  (decorate r.analysis r.project r.config r.number).run (Watched.backend r.outage)
    { w with platform := r.meets w.platform }

variable {w : Watched}

theorem isRegular_meets {p : Platform} (r : Run) (h : p.IsRegular) : (r.meets p).IsRegular :=
  ⟨⟨h.numbered.discussions, h.numbered.notes⟩, h.username, h.system⟩

theorem isRegular_on (r : Run) (h : w.platform.IsRegular) : (r.on w).2.platform.IsRegular :=
  isRegular_decorate r.analysis r.project r.config r.number r.outage
    (w := { w with platform := r.meets w.platform }) (r.isRegular_meets h)

theorem username_on (r : Run) (w : Watched) :
    (r.on w).2.platform.username = w.platform.username := by
  obtain ⟨rs, -, hplatform, -⟩ := platform_after_of_asks
    (w := { w with platform := r.meets w.platform }) r.outage
    (asks_decorate r.analysis r.project r.config r.number)
  rw [on, hplatform, Platform.username_after]
  rfl

/-- A run that succeeds has asked all of its plan. -/
theorem exists_sound_on (r : Run) (hp : w.platform.IsRegular)
    (ha : (r.analysis.withServer r.config).IsReadable) (hok : (r.on w).1.isOk = true) :
    ∃ iid s, Snapshot.Shows s (r.meets w.platform) r.analysis r.config iid ∧
      s.Sound (r.meets w.platform) ∧
      (r.on w).2.platform = (r.meets w.platform).after
        (s.plan (r.meets w.platform).changeset (r.meets w.platform).opened) := by
  obtain ⟨rs, -, hplatform, hresult⟩ := platform_after_of_asks
    (w := { w with platform := r.meets w.platform }) r.outage
    (asks_decorate r.analysis r.project r.config r.number)
  cases ho : (r.on w).1 with
  | error e =>
    rw [ho] at hok
    cases hok
  | ok o =>
    obtain ⟨-, iid, s, -, hshows, hready, rfl, -⟩ := completes_decorate.mp (hresult o ho)
    refine ⟨iid, s, hshows, hshows.sound (r.isRegular_meets hp) ha hready, ?_⟩
    rw [on, hplatform, Platform.after_append, s.after_reads]

/-- A run that succeeds leaves one live summary, its own. -/
theorem live_summary_on (r : Run) (hp : w.platform.IsRegular)
    (ha : (r.analysis.withServer r.config).IsReadable) (hok : (r.on w).1.isOk = true) :
    ∃ d body, (r.on w).2.platform.discussions.filter
        (·.isLiveSummary w.platform.username r.analysis.projectKey) = [d] ∧
      d.firstBody? = some (.text body) ∧
      (r.analysis.withServer r.config).summaryNote = .ok body := by
  obtain ⟨iid, s, hshows, hsound, hplatform⟩ := r.exists_sound_on hp ha hok
  obtain ⟨d, hd, hfirst⟩ := hsound.live_after_plan
  obtain ⟨body, hbody⟩ := hsound.ready.summary
  refine ⟨d, body, ?_, ?_, ?_⟩
  · rw [← hshows.projectKey, hplatform]
    exact hd
  · rw [hfirst, Snapshot.summaryBody, hbody]
    rfl
  · rw [← hshows.analysis, hbody]

end Run

/-- What is left after runs one after another, some of which may have failed. -/
def Watched.runs (w : Watched) (rs : List Run) : Watched := rs.foldl (fun w r => (r.on w).2) w

namespace Watched

variable {w : Watched}

theorem isRegular_runs (rs : List Run) (h : w.platform.IsRegular) :
    (w.runs rs).platform.IsRegular := by
  induction rs generalizing w with
  | nil => exact h
  | cons r rs ih => exact ih (r.isRegular_on h)

theorem username_runs (w : Watched) (rs : List Run) :
    (w.runs rs).platform.username = w.platform.username := by
  induction rs generalizing w with
  | nil => rfl
  | cons r rs ih => exact (ih (r.on w).2).trans (r.username_on w)

/-- Whatever runs came before, after a run that succeeds there is exactly one live summary of its
project, and it starts with the text of that run's report. -/
theorem live_summary_after_runs (rs : List Run) (r : Run) (hp : w.platform.IsRegular)
    (ha : (r.analysis.withServer r.config).IsReadable)
    (hok : (r.on (w.runs rs)).1.isOk = true) :
    ∃ d body, (r.on (w.runs rs)).2.platform.discussions.filter
        (·.isLiveSummary w.platform.username r.analysis.projectKey) = [d] ∧
      d.firstBody? = some (.text body) ∧
      (r.analysis.withServer r.config).summaryNote = .ok body := by
  rw [← w.username_runs rs]
  exact r.live_summary_on (isRegular_runs rs hp) ha hok

attribute [local irreducible] Run.on runs

/-- Two summaries are there, one of them with a reply. A run that was to replace both is broken off,
and the next run flags the one with the reply and edits the other. -/
theorem live_summary_after_runs_sample :
    let old : Note := {
      id := .text "n1"
      author := ⟨.text "sonar-bot", .null⟩
      body := .text "[View in SonarQube](http://x/dashboard?id=p+k)" }
    let reply : Note := { id := .text "n2", author := ⟨.text "alice", .null⟩, body := .text "why?" }
    let w : Watched := { platform := { sampleWatched.platform with
      discussions := [⟨.int 5, [old, reply]⟩, ⟨.int 6, [old]⟩] } }
    let broken : Run := {
      analysis := sampleReport
      project := "g/p"
      config := []
      mergeRequest := sampleWatched.platform.mergeRequest
      outage := fun _ r => if r.isWrite then some "down" else none }
    let edit : Run := {
      analysis := { sampleReport with issues := [] }
      project := "g/p"
      config := [(.text "summary_note_edit", .bool true)]
      mergeRequest := sampleWatched.platform.mergeRequest }
    (edit.on (w.runs [broken])).1.isOk = true ∧
      ∃ d body, (edit.on (w.runs [broken])).2.platform.discussions.filter
          (·.isLiveSummary (.text "sonar-bot") "p k") = [d] ∧
        d.firstBody? = some (.text body) ∧
        (edit.analysis.withServer edit.config).summaryNote = .ok body := by
  intro old reply w broken edit
  have hregular : w.platform.IsRegular := by
    refine ⟨⟨Platform.numbered_ints [5, 6] (by decide) _, ?_⟩, Value.same_text .., ?_⟩
    · simp only [w, List.forall_mem_cons]
      exact ⟨Platform.numbered_texts ["n1", "n2"] (by decide) _,
        Platform.numbered_texts ["n1"] (by decide) _, nofun⟩
    · simp [w, old, reply]
  have hserver : (edit.config.get "server_url").holds = false := by decide +kernel
  have hreadable : (edit.analysis.withServer edit.config).IsReadable := by
    rw [Analysis.withServer_of_not_holds hserver]
    exact ⟨⟨_, rfl, List.all_eq_true.mp (by decide)⟩, by decide, by decide, by decide⟩
  have hok : (edit.on (w.runs [broken])).1.isOk = true := by decide +kernel
  exact ⟨hok, live_summary_after_runs [broken] edit hregular hreadable hok⟩

end Watched
end MergeDecoration
