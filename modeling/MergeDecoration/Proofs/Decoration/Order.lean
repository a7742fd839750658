import MergeDecoration.Proofs.Decoration.Reading
import MergeDecoration.Proofs.Decoration.Rerun

/-!
Which block comes first, that of the summary or that of the issues. A run succeeds with the same
result either way; it writes the same blocks, and the discussions end up the same.
-/
namespace MergeDecoration

open Program
open Platform (noteId discussionId)

attribute [local irreducible] Program.Completes

/-- Two configurations that differ at most in which block comes first. -/
def Config.Reorders (c k : Config) : Prop :=
  ∀ name, name ≠ "summary_note_first" → c.get name = k.get name

theorem Config.Reorders.symm {c k : Config} (h : c.Reorders k) : k.Reorders c :=
  fun name hname => (h name hname).symm

theorem Analysis.withServer_reorders {analysis : Analysis} {c k : Config} (h : c.Reorders k) :
    analysis.withServer c = analysis.withServer k := by
  rw [withServer, withServer, h "server_url" (by decide)]

namespace Snapshot

variable {s : Snapshot} {p : Platform} {analysis : Analysis} {config : Config} {iid : Int}
  {changeset : Value → Int → Option String}

/-- The discussions that are opened for issues. -/
def creations (s : Snapshot) (changeset : Value → Int → Option String) : List Request :=
  (s.due changeset).filterMap fun i => i.anchor?.map fun a => s.opening i a.1 a.2

/-- What is written to discussions whose issue is gone. -/
def closings (s : Snapshot) : List Request := s.discussions.flatMap (s.staleRequests s.openKeys)

/-- What is written for the issues. -/
def issueBlock (s : Snapshot) (changeset : Value → Int → Option String) : List Request :=
  s.creations changeset ++ s.closings

/-- What is written for the summary, which ends up in the discussion `d`. -/
def summaryBlock (s : Snapshot) (d : Value) : List Request := s.summaryText ++ s.closing d

theorem summaryDiscussion_of_edited (h : s.summaryAction = .edited) (j k : Nat) :
    s.summaryDiscussion j = s.summaryDiscussion k := by
  unfold summaryAction at h
  unfold summaryDiscussion
  cases hc : s.current? with
  | some c => rfl
  | none =>
    rw [hc] at h
    cases h

theorem summaryDiscussion_of_created (h : s.summaryAction = .created) (k : Nat) :
    s.summaryDiscussion k = discussionId k := by
  unfold summaryAction at h
  unfold summaryDiscussion
  cases hc : s.current? with
  | some c =>
    rw [hc] at h
    cases h
  | none => rfl

/-- What is written last. -/
def statusRequest (s : Snapshot) : Request :=
  .pushStatus s.mergeRequest.sourceProject s.analysis.commitSha s.status

section Writes

theorem isWrite_of_target {r : Request} {id : Value} (h : r.target? = some id) :
    r.isWrite = true := by
  by_contra hne
  rw [Request.target?_of_not_isWrite (Bool.not_eq_true _ ▸ hne)] at h
  cases h

theorem isWrite_closings : ∀ r ∈ s.closings, r.isWrite = true := by
  intro r hr
  obtain ⟨c, -, hr⟩ := List.mem_flatMap.mp hr
  exact isWrite_of_target (target_staleRequests hr)

theorem isWrite_retirement (part : List Classified) :
    ∀ r ∈ part.flatMap s.retirement, r.isWrite = true := by
  intro r hr
  obtain ⟨c, -, hr⟩ := List.mem_flatMap.mp hr
  exact isWrite_of_target (target_retirement hr)

theorem isWrite_summaryBlock (s : Snapshot) (d : Value) :
    ∀ r ∈ s.summaryBlock d, r.isWrite = true := by
  intro r hr
  rcases List.mem_append.mp hr with hr | hr
  · unfold summaryText at hr
    split at hr
    all_goals
      rcases List.mem_append.mp hr with hr | hr
      · exact isWrite_retirement _ r hr
      · rw [List.mem_singleton.mp hr]
        rfl
  · exact isWrite_of_target (target_closing hr)

/-- Of what is asked for an issue, only the request for its discussion is a write. -/
theorem filter_issueRequests (s : Snapshot) (changeset : Value → Int → Option String)
    (represented : List String) (i : Issue) :
    (s.issueRequests changeset represented i).filter (·.isWrite) =
      if s.isDue changeset represented i then
        (i.anchor?.map fun a => s.opening i a.1 a.2).toList
      else [] := by
  unfold issueRequests isDue
  cases i.anchor? with
  | none => rfl
  | some anchor =>
    obtain ⟨path, line⟩ := anchor
    dsimp only
    cases represented.contains i.key with
    | true => rfl
    | false =>
      by_cases hown : s.isOwnLine changeset path line = true
      · simp [hown, Request.isWrite, opening]
      · simp [hown, Request.isWrite]

theorem filter_issuePlan_isWrite (s : Snapshot) (changeset : Value → Int → Option String) :
    (s.issuePlan changeset).filter (·.isWrite) = s.issueBlock changeset := by
  have hopened : ∀ issues : List Issue,
      (issues.flatMap (s.issueRequests changeset s.representedKeys)).filter (·.isWrite) =
        (issues.filter (s.isDue changeset s.representedKeys)).filterMap
          fun i => i.anchor?.map fun a => s.opening i a.1 a.2 := by
    intro issues
    induction issues with
    | nil => rfl
    | cons i rest ih =>
      rw [List.flatMap_cons, List.filter_append, ih, filter_issueRequests, List.filter_cons]
      split
      · rw [List.filterMap_cons]
        cases i.anchor? <;> rfl
      · rfl
  rw [issuePlan, List.filter_append, hopened, issueBlock]
  exact congrArg _ (List.filter_eq_self.mpr isWrite_closings)

/-- As many discussions are opened for issues as are reported to be. -/
theorem countP_isOpening_issuePlan (s : Snapshot) (changeset : Value → Int → Option String) :
    (s.issuePlan changeset).countP (·.isOpening) = (s.issueCounts changeset).1 := by
  have hopened : ∀ issues : List Issue,
      (issues.flatMap (s.issueRequests changeset s.representedKeys)).countP (·.isOpening) =
        issues.countP (s.isDue changeset s.representedKeys) := by
    intro issues
    induction issues with
    | nil => rfl
    | cons i rest ih =>
      rw [List.flatMap_cons, List.countP_append, List.countP_cons, ih, Nat.add_comm]
      rcases s.issueRequests_cases changeset s.representedKeys i with
        ⟨hdue, hquiet⟩ | ⟨hdue, path, line, hrequests⟩
      · have hnone : (s.issueRequests changeset s.representedKeys i).countP (·.isOpening) = 0 :=
          List.countP_eq_zero.mpr fun r hr => (Bool.not_eq_true _).mpr (hquiet r hr)
        rw [hdue, hnone]
        rfl
      · rw [hdue, hrequests]
        rfl
  have hclosed := List.countP_eq_zero.mpr fun r hr =>
    (Bool.not_eq_true _).mpr (not_opening_staleRequests (s := s) r hr)
  rw [issuePlan, List.countP_append, hopened, hclosed, Nat.add_zero]
  rfl

/-- The writes of a run, block by block. -/
theorem filter_plan_isWrite (s : Snapshot) (changeset : Value → Int → Option String)
    (opened : Nat) : (s.plan changeset opened).filter (·.isWrite) =
      if (s.config.get "summary_note_first").holds then
        s.summaryBlock (s.summaryDiscussion opened) ++ s.issueBlock changeset ++ [s.statusRequest]
      else s.issueBlock changeset ++
        s.summaryBlock (s.summaryDiscussion (opened + (s.issueCounts changeset).1)) ++
          [s.statusRequest] := by
  have hsummary : ∀ k, (s.summaryRequests k).filter (·.isWrite) =
      s.summaryBlock (s.summaryDiscussion k) :=
    fun k => List.filter_eq_self.mpr (isWrite_summaryBlock s _)
  rw [plan, reconciliation]
  split
  all_goals
    rw [List.filter_append, List.filter_append, filter_issuePlan_isWrite, hsummary]
    first | rfl | rw [countP_isOpening_issuePlan]; rfl

end Writes

/-- The same snapshot under another configuration. -/
def under (s : Snapshot) (config : Config) : Snapshot := { s with config }

section Reordered

variable {other : Config} (h : s.config.Reorders other)

include h

theorem mergeRequestUrl_under : (s.under other).mergeRequestUrl = s.mergeRequestUrl := by
  unfold mergeRequestUrl
  rw [h "project_url" (by decide)]
  rfl

theorem current?_under : (s.under other).current? = s.current? := by
  unfold current?
  rw [h "summary_note_edit" (by decide)]
  rfl

theorem summaryDiscussion_under (opened : Nat) :
    (s.under other).summaryDiscussion opened = s.summaryDiscussion opened := by
  rw [summaryDiscussion, current?_under h]
  rfl

theorem summaryAction_under : (s.under other).summaryAction = s.summaryAction := by
  rw [summaryAction, current?_under h]
  rfl

theorem summaryBlock_under (d : Value) : (s.under other).summaryBlock d = s.summaryBlock d := by
  rw [summaryBlock, summaryText, current?_under h]
  rfl

theorem statusRequest_under : (s.under other).statusRequest = s.statusRequest := by
  unfold statusRequest status
  rw [h "pipeline_id" (by decide)]
  rfl

theorem Ready.under (hready : s.Ready changeset) : (s.under other).Ready changeset := by
  obtain ⟨hurl, hnotes, hsummary, hflags, hdashboard⟩ := hready
  rw [← mergeRequestUrl_under h] at hurl
  exact ⟨hurl, hnotes, hsummary, hflags, hdashboard⟩

theorem outcome_under (changeset : Value → Int → Option String) :
    (s.under other).outcome changeset = s.outcome changeset := by
  rw [outcome, mergeRequestUrl_under h, summaryAction_under h]
  rfl

theorem Shows.under (hshows : s.Shows p analysis config iid) :
    (s.under other).Shows p analysis other iid := by
  refine ⟨?_, hshows.mergeRequest, hshows.username, hshows.commits, hshows.discussions, rfl⟩
  rw [← Analysis.withServer_reorders (hshows.config ▸ h)]
  exact hshows.analysis

/-- What becomes of an old discussion does not depend on the order. -/
theorem treated_under (note : Value) (c : Classified) :
    (s.under other).treated note c = s.treated note c := by
  rw [treated, treatment, isCurrent, isRetired, current?_under h]
  rfl

theorem endsWithSummary_under {sums : List Discussion} :
    (s.under other).EndsWithSummary p sums ↔ s.EndsWithSummary p sums := by
  rw [EndsWithSummary, current?_under h]
  rfl

/-- The old discussions end up the same, and so do the new ones but for their ids and order. -/
theorem alike_under (hsees : s.Sees p) :
    p.Alike (p.after (s.plan p.changeset p.opened))
      (p.after ((s.under other).plan p.changeset p.opened)) := by
  have hsees' : (s.under other).Sees p := ⟨hsees.numbered, hsees.username, hsees.discussions⟩
  refine ⟨by simp, by simp, by simp, by simp, ?_⟩
  have hold : (p.discussions.filterMap (p.carried (s.plan p.changeset p.opened))).map p.outline =
      (p.discussions.filterMap
        (p.carried ((s.under other).plan p.changeset p.opened))).map p.outline := by
    rw [← hsees.discussions_eq, List.filterMap_map, List.filterMap_map, List.map_filterMap,
      List.map_filterMap]
    apply List.filterMap_congr
    intro c hc
    obtain ⟨m, hm, hfirst⟩ := hsees.treated hc
    obtain ⟨n, hn, hlast⟩ := hsees'.treated hc
    rw [treated_under h] at hlast
    dsimp only [Function.comp_apply]
    rw [hfirst, hlast]
    exact outline_treated hsees.numbered hm hn c
  have hnew : ((p.newcomers (s.plan p.changeset p.opened)).map p.outline).Perm
      ((p.newcomers ((s.under other).plan p.changeset p.opened)).map p.outline) := by
    obtain ⟨threads, sums, hthreads, hsums, hperm⟩ := newcomers_plan_all hsees.isApart
    obtain ⟨threads', sums', hthreads', hsums', hperm'⟩ := newcomers_plan_all hsees'.isApart
    refine (hperm.map p.outline).trans (.trans ?_ (hperm'.map p.outline).symm)
    rw [List.map_append, List.map_append, Halfway.outline_threads hsees.numbered hthreads hthreads',
      Halfway.outline_summary hsees.numbered hsums ((endsWithSummary_under h).mp hsums')]
  rw [Platform.discussions_after, Platform.discussions_after, List.map_append, List.map_append, hold]
  exact hnew.append_left _

end Reordered

end Snapshot

section

variable {first last : Config} {analysis : Analysis} {project : String} {number : Value}
  {p : Platform} {o : Outcome}

/-- What a run asks when the blocks come in another order. -/
theorem exists_completes_reordered (h : first.Reorders last) {rs : List Request}
    (hc : (decorate analysis project first number).Completes p rs o) :
    ∃ iid s, Snapshot.Shows s p analysis first iid ∧
      rs = s.reads project iid ++ s.plan p.changeset p.opened ∧ o = s.outcome p.changeset ∧
      (decorate analysis project last number).Completes p
        (s.reads project iid ++ (s.under last).plan p.changeset p.opened) o := by
  obtain ⟨hcommits, iid, s, hiid, hshows, hready, hrs, ho⟩ := completes_decorate.mp hc
  have hs : s.config.Reorders last := hshows.config ▸ h
  refine ⟨iid, s, hshows, hrs, ho, completes_decorate.mpr ⟨hcommits, iid, s.under last, hiid,
    hshows.under hs, hready.under hs, rfl, ?_⟩⟩
  rw [ho, Snapshot.outcome_under hs]

variable {w : Watched}

theorem run_reordered (h : first.Reorders last)
    (ho : ((decorate analysis project first number).run (Watched.backend .never) w).1 = .ok o) :
    ((decorate analysis project last number).run (Watched.backend .never) w).1 = .ok o := by
  obtain ⟨rs, hcompletes⟩ := completes_of_run ho
  obtain ⟨iid, s, -, -, -, hlast⟩ := exists_completes_reordered h hcompletes
  obtain ⟨records, hrun⟩ := run_of_completes hlast
  rw [hrun]

variable (analysis project number w)

/-- Runs that differ only in which block comes first succeed on the same terms and report the same.
What they write is the summary block, the issue block and the status, or the first two of these the
other way round; the only difference within a block is what a new summary is called. On a platform
with unique ids, what they leave is the same up to new ids and the order of discussions. -/
theorem decorate_order (h : first.Reorders last)
    (hfirst : (first.get "summary_note_first").holds = true)
    (hlast : (last.get "summary_note_first").holds = false) :
    let one := (decorate analysis project first number).run (Watched.backend .never) w
    let two := (decorate analysis project last number).run (Watched.backend .never) w
    (∀ o, one.1 = .ok o ↔ two.1 = .ok o) ∧
    ∀ o, one.1 = .ok o →
      (∃ iid s d e, Snapshot.Shows s w.platform analysis first iid ∧
        one.2.requests.filter (·.isWrite) = w.requests.filter (·.isWrite) ++
          (s.summaryBlock d ++ s.issueBlock w.platform.changeset ++ [s.statusRequest]) ∧
        two.2.requests.filter (·.isWrite) = w.requests.filter (·.isWrite) ++
          (s.issueBlock w.platform.changeset ++ s.summaryBlock e ++ [s.statusRequest]) ∧
        (o.summary = .edited → d = e) ∧
        (o.summary = .created → d = discussionId w.platform.opened ∧
          e = discussionId (w.platform.opened + o.created))) ∧
      (w.platform.IsNumbered → w.platform.Alike one.2.platform two.2.platform) := by
  intro one two
  refine ⟨fun o => ⟨run_reordered h, run_reordered h.symm⟩, fun o ho => ?_⟩
  obtain ⟨rs, hcompletes⟩ := completes_of_run ho
  obtain ⟨iid, s, hshows, rfl, rfl, hother⟩ := exists_completes_reordered h hcompletes
  have hs : s.config.Reorders last := hshows.config ▸ h
  obtain ⟨records, hone⟩ := run_of_completes hcompletes
  obtain ⟨records', htwo⟩ := run_of_completes hother
  have hreads : (s.reads project iid).filter (·.isWrite) = [] :=
    List.filter_eq_nil_iff.mpr fun r hr =>
      (Bool.not_eq_true _).mpr (s.not_isWrite_reads project iid r hr)
  rw [show one = _ from hone, show two = _ from htwo]
  dsimp only
  constructor
  · refine ⟨iid, s, s.summaryDiscussion w.platform.opened,
      s.summaryDiscussion (w.platform.opened + (s.issueCounts w.platform.changeset).1), hshows,
      ?_, ?_, ?_, ?_⟩
    · rw [List.filter_append, List.filter_append, hreads, List.nil_append,
        Snapshot.filter_plan_isWrite, hshows.config, if_pos hfirst]
    · rw [List.filter_append, List.filter_append, hreads, List.nil_append,
        Snapshot.filter_plan_isWrite, show (s.under last).config = last from rfl, hlast,
        if_neg Bool.false_ne_true, Snapshot.summaryBlock_under hs, Snapshot.statusRequest_under hs,
        Snapshot.summaryDiscussion_under hs]
      rfl
    · exact fun hedited => Snapshot.summaryDiscussion_of_edited hedited ..
    · exact fun hcreated => ⟨Snapshot.summaryDiscussion_of_created hcreated _,
        Snapshot.summaryDiscussion_of_created hcreated _⟩
  · intro hnumbered
    rw [Platform.after_append, Platform.after_append,
      Platform.after_of_not_isWrite (s.not_isWrite_reads project iid)]
    exact Snapshot.alike_under hs ⟨hnumbered, hshows.username, hshows.discussions⟩

/-- Two threads and a summary are opened either way, and either way the old thread is resolved. -/
theorem decorate_order_sample :
    let first : Config := [(.text "summary_note_first", .bool true)]
    let one := (decorate sampleReport "g/p" first).run (Watched.backend .never) sampleWatched
    let two := (decorate sampleReport "g/p" []).run (Watched.backend .never) sampleWatched
    ∃ o, one.1 = .ok o ∧ two.1 = .ok o ∧ o.created = 2 ∧ o.resolved = 1 ∧
      sampleWatched.platform.Alike one.2.platform two.2.platform := by
  intro first one two
  have hreorders : first.Reorders [] := by
    intro name hname
    simp [first, Config.get, Value.field, Value.field?, Value.find?, hname.symm]
  have hcounts : one.1.toOption.map (fun o => (o.created, o.resolved)) = some (2, 1) := by
    decide +kernel
  obtain ⟨o, ho, hcreated⟩ := Option.map_eq_some_iff.mp hcounts
  have hone : one.1 = .ok o := by
    cases hresult : one.1 with
    | ok result =>
      rw [hresult] at ho
      rw [Option.some.inj ho]
    | error e =>
      rw [hresult] at ho
      cases ho
  obtain ⟨hsame, hwrites⟩ := decorate_order sampleReport "g/p" .null sampleWatched hreorders
    (by decide +kernel) (by decide +kernel)
  exact ⟨o, hone, (hsame o).mp hone, (Prod.mk.inj hcreated).1, (Prod.mk.inj hcreated).2,
    (hwrites o hone).2 isRegular_sampleWatched.numbered⟩

end

end MergeDecoration
