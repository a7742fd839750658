import MergeDecoration.Proofs.Decoration.Rerun
import MergeDecoration.Proofs.Program.Within

/-!
The course of a run, wherever it ends: at a request that fails, at something that cannot be written,
or with a result. The platform was asked a part of the plan.
-/
namespace MergeDecoration

open Program
open Platform (noteId discussionId)

attribute [local irreducible] Program.Completes

namespace Snapshot

variable {s : Snapshot} {p : Platform} {rs : List Request}

theorem within_createIssueNote (s : Snapshot) (p : Platform) (i : Issue) (path : Value)
    (line : Int) : (s.createIssueNote i path line).Within p (.changeset path line ::
      if s.isOwnLine p.changeset path line then [s.opening i path line] else []) := by
  unfold createIssueNote
  apply within_call_bind
  rw [show (p.answer (.changeset path line)).1 = p.changeset path line from rfl, isOwnLine]
  cases p.changeset path line with
  | none => exact within_debug_bind (within_pure _)
  | some revision =>
    rw [Option.any_some]
    dsimp only
    cases hown : s.commits.any (·.same (.text revision)) with
    | false => exact within_debug_bind (within_pure _)
    | true =>
      apply within_lift_bind
      intro body hbody
      rw [if_pos rfl, opening, issueBody, hbody]
      exact within_step_bind (within_pure _)

theorem within_createIssueNotes (s : Snapshot) (p : Platform) (represented : List String)
    (issues : List Issue) : (s.createIssueNotes represented issues).Within p
      (issues.flatMap (s.issueRequests p.changeset represented)) := by
  induction issues generalizing p with
  | nil => exact within_pure _
  | cons i rest ih =>
    have htail : ∀ (created : Bool) (us : List Request),
        (s.createIssueNotes represented rest >>= fun n =>
          (pure (n + cond created 1 0) : Program Nat)).Within (p.after us)
          (rest.flatMap (s.issueRequests p.changeset represented)) := by
      intro created us
      have hrest := ih (p.after us)
      rw [Platform.changeset_after] at hrest
      rw [← List.append_nil (rest.flatMap _)]
      refine within_bind hrest fun vs n hvs => ⟨?_, within_pure _⟩
      rw [(completes_createIssueNotes.mp hvs).2.1, Platform.changeset_after]
    rw [createIssueNotes, List.flatMap_cons, issueRequests]
    cases i.anchor? with
    | none => exact within_debug_bind (htail false [])
    | some anchor =>
      obtain ⟨path, line⟩ := anchor
      dsimp only
      split
      · exact within_debug_bind (htail false [])
      · refine within_bind (s.within_createIssueNote p i path line) fun us created hus => ?_
        exact ⟨(completes_createIssueNote.mp hus).2.1, htail created _⟩

theorem within_reconcileIssues (s : Snapshot) (p : Platform) :
    s.reconcileIssues.Within p (s.issuePlan p.changeset) := by
  unfold reconcileIssues
  refine within_bind (s.within_createIssueNotes p _ _) fun us created hus =>
    ⟨(completes_createIssueNotes.mp hus).2.1, ?_⟩
  rw [← List.append_nil (s.discussions.flatMap _)]
  refine within_bind (within_of_completes (completes_closeStale.mpr ⟨rfl, rfl⟩)) ?_
  intro vs counts hvs
  exact ⟨(completes_closeStale.mp hvs).1, within_pure _⟩

/-- Nothing is asked for the summary if it cannot be told which summaries are flagged. -/
theorem within_reconcileSummary (h : ¬s.HasFlags) : s.reconcileSummary.Within p rs := by
  unfold reconcileSummary
  apply within_lift_bind
  intro body _
  rw [← List.nil_append rs]
  refine within_bind (within_of_silent s.failStop_live.asks fun _ => id) ?_
  intro us live hlive
  exact absurd (completes_live.mp hlive).1 h

theorem within_reconcile (s : Snapshot) (p : Platform) (h : s.HasFlags) :
    s.reconcile.Within p (s.reconciliation p.changeset p.opened) := by
  have hsummary : ∀ q : Platform, s.reconcileSummary.Within q (s.summaryRequests q.opened) := by
    intro q
    cases hbody : s.analysis.summaryNote with
    | ok body =>
      exact within_of_completes (completes_reconcileSummary.mpr ⟨⟨body, hbody⟩, h, rfl, rfl⟩)
    | error e =>
      unfold reconcileSummary
      rw [hbody]
      exact trivial
  unfold reconcile reconciliation
  split
  · refine within_bind (hsummary p) fun us action hus =>
      ⟨(completes_reconcileSummary.mp hus).2.2.1, ?_⟩
    have hissues := s.within_reconcileIssues (p.after (s.summaryRequests p.opened))
    rw [Platform.changeset_after] at hissues
    rw [← List.append_nil (s.issuePlan _)]
    refine within_bind hissues fun vs counts hvs => ⟨?_, within_pure _⟩
    rw [(completes_reconcileIssues.mp hvs).2.1, Platform.changeset_after]
  · refine within_bind (s.within_reconcileIssues p) fun us counts hus =>
      ⟨(completes_reconcileIssues.mp hus).2.1, ?_⟩
    rw [← Platform.opened_after, ← List.append_nil (s.summaryRequests _)]
    refine within_bind (hsummary _) fun vs action hvs => ⟨?_, within_pure _⟩
    exact (completes_reconcileSummary.mp hvs).2.2.1

/-- A run on a snapshot asks the first part of its plan. -/
theorem within_write (s : Snapshot) (p : Platform) (h : s.HasFlags) :
    s.write.Within p (s.plan p.changeset p.opened) := by
  unfold write
  apply within_lift_bind
  intro url _
  refine within_bind (s.within_reconcile p h) ?_
  rintro us ⟨action, created, resolved, noted⟩ hus
  refine ⟨(completes_reconcile.mp hus).2.1, ?_⟩
  have hstatus : s.pushStatus.Within (p.after (s.reconciliation p.changeset p.opened))
      [.pushStatus s.mergeRequest.sourceProject s.analysis.commitSha s.status] := by
    unfold pushStatus
    apply within_lift_bind
    intro dashboard hdashboard
    rw [status, hdashboard]
    exact within_step _ _
  rw [← List.append_nil [_]]
  refine within_bind hstatus fun vs _ hvs => ?_
  exact ⟨(completes_pushStatus.mp hvs).2, within_debug_bind (within_pure _)⟩

/-- If it cannot be told which summaries are flagged, a run asks nothing but what it asks for the
issues. -/
theorem within_write_of_not_hasFlags (s : Snapshot) (p : Platform) (h : ¬s.HasFlags) :
    s.write.Within p (s.issuePlan p.changeset) := by
  unfold write
  apply within_lift_bind
  intro url _
  have hreconcile : s.reconcile.Within p (s.issuePlan p.changeset) := by
    unfold reconcile
    split
    · rw [← List.nil_append (s.issuePlan _)]
      refine within_bind (within_reconcileSummary h) fun us action hus => ?_
      exact absurd (completes_reconcileSummary.mp hus).2.1 h
    · rw [← List.append_nil (s.issuePlan _)]
      refine within_bind (s.within_reconcileIssues p) fun us counts hus =>
        ⟨(completes_reconcileIssues.mp hus).2.1, ?_⟩
      rw [← List.append_nil ([] : List Request)]
      refine within_bind (within_reconcileSummary h) fun vs action hvs => ?_
      exact absurd (completes_reconcileSummary.mp hvs).2.1 h
  rw [← List.append_nil (s.issuePlan _)]
  refine within_bind hreconcile fun us x hus => ?_
  exact absurd (completes_reconcile.mp hus).1.2.2 h

/-- What a run can make of an old discussion that it does not leave as it was. -/
inductive Touched (s : Snapshot) (c : Classified) : Option Discussion → Prop
  /-- The summary has the new text, and may be resolved. -/
  | edited {e : Discussion} (hkind : c.kind = .summary) (hflag : s.isFlagged c = .ok false)
    (he : s.HoldsNewText c e) : Touched s c (some e)
  /-- The summary had no replies, and its note is gone. -/
  | deleted (hkind : c.kind = .summary) (hreplies : c.discussion.replies.isEmpty = true) :
    Touched s c (c.discussion.deleteNote (firstNoteId c))
  /-- The summary had replies, and is flagged. -/
  | flagged {n : Nat} (hkind : c.kind = .summary) (hflag : s.isFlagged c = .ok false) :
    Touched s c (some (c.discussion.addNote s.username (noteId n) outdatedSummaryNote))
  /-- The issue is gone, and the thread has replies. -/
  | noted {n : Nat} (hlive : c.isLiveIssue s.analysis.projectKey = true) :
    Touched s c (some (c.discussion.addNote s.username (noteId n) staleIssueNote))
  /-- The issue is gone, and the thread has no replies. -/
  | resolved (hlive : c.isLiveIssue s.analysis.projectKey = true) :
    Touched s c (some c.discussion.resolve)

/-- The current summary is known not to be flagged. -/
theorem isFlagged_of_isCurrent {c : Classified} (hids : s.HasOwnIds) (hc : c ∈ s.discussions)
    (hflags : c.kind = .summary → s.HasFlags) (hcurrent : s.isCurrent c = true) :
    c.kind = .summary ∧ s.isFlagged c = .ok false := by
  have hkind := kind_of_isCurrent hids hc hcurrent
  have hlive := mem_live.mp (mem_live_of_current? ((isCurrent_iff hids hc).mp hcurrent))
  exact ⟨hkind, isFlagged_eq (hflags hkind c (mem_summaries.mpr ⟨hc, hlive.2.1⟩)) hlive.2.2⟩

/-- A discussion that is treated in full is as it was or touched. -/
theorem touched_of_treated {c : Classified} (hids : s.HasOwnIds) (hc : c ∈ s.discussions)
    (hflags : c.kind = .summary → s.HasFlags) (n : Nat) :
    s.treated (noteId n) c = some c.discussion ∨ s.Touched c (s.treated (noteId n) c) := by
  by_cases hcurrent : s.isCurrent c = true
  · obtain ⟨hkind, hflag⟩ := isFlagged_of_isCurrent hids hc hflags hcurrent
    refine Or.inr ?_
    rw [treated_of_isCurrent _ hcurrent]
    refine .edited hkind hflag ?_
    cases hpassed : s.analysis.passed with
    | true => exact Or.inr ⟨hpassed, rfl⟩
    | false => exact Or.inl rfl
  rw [treated, treatment, if_neg hcurrent]
  split
  · next hretired =>
    have hkind := kind_of_isRetired hretired
    unfold retirement
    split_ifs with hreplies hflag
    · rw [Discussion.changes_singleton]
      exact Or.inr (.deleted hkind hreplies)
    · exact Or.inl rfl
    · rw [Discussion.changes_singleton]
      have hmem := mem_summaries.mpr ⟨hc, beq_iff_eq.mpr hkind⟩
      exact Or.inr (.flagged hkind (isFlagged_eq (hflags hkind c hmem) (Bool.not_eq_true _ ▸ hflag)))
  · unfold staleRequests
    split_ifs with hstale hmixed
    · rw [Discussion.changes_singleton]
      rw [isStale, Bool.and_eq_true] at hstale
      exact Or.inr (.noted hstale.1)
    · rw [Discussion.changes_singleton]
      rw [isStale, Bool.and_eq_true] at hstale
      exact Or.inr (.resolved hstale.1)
    · exact Or.inl rfl

/-- A part of what a run on a snapshot asks. It gets to the summaries only if it can be told which of
them are flagged. -/
structure Course (s : Snapshot) (p : Platform) (rs : List Request) : Prop where
  sees : s.Sees p
  asked : s.HasFlags ∧ rs <+: s.plan p.changeset p.opened ∨ rs <+: s.issuePlan p.changeset

namespace Course

variable {c : Classified}

/-- Each old discussion is as it was, or touched. -/
theorem touched (h : s.Course p rs) (hc : c ∈ s.discussions) :
    p.carried rs c.discussion = some c.discussion ∨
      s.Touched c (p.carried rs c.discussion) := by
  have hids := h.sees.hasOwnIds
  have hstage : p.carried rs c.discussion = some c.discussion ∨
      (c.kind = .summary → s.HasFlags) ∧ s.Stage p.written c (p.carried rs c.discussion) := by
    rcases h.asked with ⟨hflags, hrs⟩ | hrs
    · refine Or.inr ⟨fun _ => hflags, stage_of_prefix h.sees.username ?_⟩
      rw [← h.sees.filter_plan hc]
      exact hrs.filter _
    · have hshare := hrs.filter (·.concerns c.discussion.id)
      rw [filter_issuePlan p.changeset hids hc] at hshare
      by_cases hkind : c.kind = .summary
      · rw [staleRequests_of_summary hkind, List.prefix_nil] at hshare
        exact Or.inl (Platform.carried_of_filter_nil hshare)
      · refine Or.inr ⟨fun hsummary => absurd hsummary hkind, stage_of_prefix h.sees.username ?_⟩
        rwa [treatment_of_ne_summary hids hc hkind]
  rcases hstage with hsame | ⟨hflags, hstage⟩
  · exact Or.inl hsame
  generalize p.carried rs c.discussion = x at hstage ⊢
  cases hstage with
  | untouched => exact Or.inl rfl
  | edited hcurrent =>
    obtain ⟨hkind, hflag⟩ := isFlagged_of_isCurrent hids hc hflags hcurrent
    exact Or.inr (.edited hkind hflag (Or.inl rfl))
  | treated => exact touched_of_treated hids hc hflags _

/-- What is opened: threads for the first of the issues that are due, and possibly the summary. -/
theorem opens (h : s.Course p rs) : s.Opens p rs := by
  rcases h.asked with ⟨-, hrs⟩ | hrs
  · exact opens_plan h.sees.isApart hrs
  · obtain ⟨done, hdone, hthreads⟩ := newcomers_issuePlan h.sees.isApart hrs
    exact ⟨done, _, [], hdone, hthreads, Or.inl rfl, by rw [List.append_nil]⟩

end Course
end Snapshot

section

variable {w : Watched}

/-- Wherever a run ends, the platform is as it was or has answered a part of what the run asks. A
run that succeeds has asked its whole plan. -/
theorem course_decorate (analysis : Analysis) (project : String) (config : Config) (number : Value)
    (outage : Outage) (hp : w.platform.IsNumbered) :
    let run := (decorate analysis project config number).run (Watched.backend outage) w
    (run.1.isOk = false ∧ run.2.platform = w.platform) ∨
    ∃ (s : Snapshot) (iid : Int) (rs : List Request),
      s.Shows w.platform analysis config iid ∧ s.Course w.platform rs ∧
      run.2.platform = w.platform.after rs ∧
      (run.1.isOk = true → s.Ready w.platform.changeset ∧
        rs = s.plan w.platform.changeset w.platform.opened) := by
  dsimp only
  obtain ⟨us, hus, hplatform, hresult⟩ := platform_after_of_asks (w := w) outage
    (failStop_survey analysis project config number).asks
  rw [Platform.after_of_not_isWrite fun r hr => (hus r hr).1] at hplatform
  rw [decorate_eq]
  cases hsurvey : (survey analysis project config number).run (Watched.backend outage) w with
  | mk result v =>
    rw [hsurvey] at hplatform hresult
    cases result with
    | error e =>
      rw [run_bind_of_error hsurvey]
      exact Or.inl ⟨rfl, hplatform⟩
    | ok s =>
      obtain ⟨-, iid, -, hshows, -⟩ := completes_survey.mp (hresult s rfl)
      have hsees : s.Sees w.platform := ⟨hp, hshows.username, hshows.discussions⟩
      rw [run_bind_of_ok hsurvey]
      dsimp only at hplatform
      have hcourse : ∃ rs, s.Course w.platform rs ∧
          (s.write.run (Watched.backend outage) v).2.platform = w.platform.after rs ∧
          ∀ o, (s.write.run (Watched.backend outage) v).1 = .ok o →
            s.write.Completes w.platform rs o := by
        rw [← hplatform] at hsees ⊢
        by_cases hflags : s.HasFlags
        · obtain ⟨rs, hrs, -, hafter, hok⟩ := exists_after_of_within outage s.failStop_write.asks
            (s.within_write v.platform hflags)
          exact ⟨rs, ⟨hsees, Or.inl ⟨hflags, hrs⟩⟩, hafter, hok⟩
        · obtain ⟨rs, hrs, -, hafter, hok⟩ := exists_after_of_within outage s.failStop_write.asks
            (s.within_write_of_not_hasFlags v.platform hflags)
          exact ⟨rs, ⟨hsees, Or.inr hrs⟩, hafter, hok⟩
      obtain ⟨rs, hrs, hafter, hcompletes⟩ := hcourse
      refine Or.inr ⟨s, iid, rs, hshows, hrs, hafter, fun hok => ?_⟩
      cases hx : (s.write.run (Watched.backend outage) v).1 with
      | error e =>
        rw [hx] at hok
        cases hok
      | ok o =>
        obtain ⟨hready, hplan, -⟩ := Snapshot.completes_write.mp (hcompletes o hx)
        exact ⟨hready, hplan⟩

end
end MergeDecoration
