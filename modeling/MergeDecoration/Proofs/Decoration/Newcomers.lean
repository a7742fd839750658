import MergeDecoration.Proofs.Decoration.Threads

/-!
The discussions that a run opens, after any part of its plan: the threads of the issues that are
due, and the new summary if there is no current one.
-/
namespace MergeDecoration

open Platform (noteId discussionId)

namespace Snapshot

variable {s : Snapshot} {p : Platform} {rs : List Request}

/-- The request that opens the discussion of the summary. -/
def creation (s : Snapshot) : Request :=
  .createDiscussion s.mergeRequest.targetProject s.mergeRequest.iid (.general s.summaryBody)

theorem closing_prefix {d : Value} (h : rs <+: s.closing d) : rs = [] ∨ rs = s.closing d := by
  rcases s.closing_cases d with hc | hc
  · rw [hc] at h
    exact Or.inl (List.prefix_nil.mp h)
  · rw [hc] at h ⊢
    rcases List.prefix_cons_iff.mp h with hnil | ⟨ts, hts, hnil⟩
    · exact Or.inl hnil
    · rw [List.prefix_nil.mp hnil] at hts
      exact Or.inr hts

/-- The new summary, before and after it is resolved. -/
theorem newcomers_creation (h : rs <+: s.closing (discussionId p.opened)) :
    ∃ d resolved, p.IsNew s.summaryBody resolved d ∧
      p.newcomers (s.summaries.flatMap s.retirement ++ s.creation :: rs) = [d] ∧
      (resolved = true → s.analysis.passed = true) ∧
      (rs = s.closing (discussionId p.opened) → resolved = s.analysis.passed) := by
  have hopened := opened_retirements (s := s) (p := p) s.summaries
  have hwritten := Platform.written_le_after p (s.summaries.flatMap s.retirement)
  have hquiet : ∀ q : Platform, q.newcomers rs = [] := fun q =>
    Platform.newcomers_of_not_opening fun r hr => isOpening_of_target (target_closing (h.subset hr))
  have hnew : ∀ resolved, p.IsNew s.summaryBody resolved ⟨discussionId p.opened, [{
      id := noteId (p.after (s.summaries.flatMap s.retirement)).written
      author := ⟨p.username, .null⟩
      body := .text s.summaryBody
      resolvable := true
      resolved }]⟩ :=
    fun _ => ⟨_, _, Nat.le_refl _, hwritten, rfl⟩
  have hcreate : p.newcomers (s.summaries.flatMap s.retirement ++ s.creation :: rs) =
      [⟨discussionId p.opened, [{
        id := noteId (p.after (s.summaries.flatMap s.retirement)).written
        author := ⟨p.username, .null⟩
        body := .text s.summaryBody
        resolvable := true }]⟩].filterMap
      (((p.after (s.summaries.flatMap s.retirement)).answer s.creation).2.carried rs) := by
    rw [Platform.newcomers_append, Platform.newcomers_of_not_opening (not_opening_retirement _),
      List.filterMap_nil, List.nil_append, Platform.newcomers, hquiet, List.append_nil, ← hopened,
      ← Platform.username_after p (s.summaries.flatMap s.retirement)]
    rfl
  rw [hcreate]
  rcases closing_prefix h with rfl | rfl
  · refine ⟨_, false, hnew false, rfl, fun hfalse => Bool.noConfusion hfalse, ?_⟩
    intro hnil
    rw [closing] at hnil
    split at hnil
    · cases hnil
    · next hp => exact (Bool.not_eq_true _ ▸ hp).symm
  · refine ⟨_, s.analysis.passed, hnew s.analysis.passed, ?_, id, fun _ => rfl⟩
    have hall : (s.closing (discussionId p.opened)).filter
        (·.concerns (discussionId p.opened)) = s.closing (discussionId p.opened) := by
      rw [filter_closing, if_pos (Platform.discussionId_same _)]
    rw [List.filterMap_cons_some (carried_closing hall), List.filterMap_nil]
    cases s.analysis.passed <;> rfl

theorem not_opening_closing (d : Value) : ∀ r ∈ s.closing d, r.isOpening = false :=
  fun _ hr => isOpening_of_target (target_closing hr)

/-- With a current summary, nothing is opened for the summary. -/
theorem not_opening_summaryRequests {opened : Nat} {k : Classified} (hk : s.current? = some k) :
    ∀ r ∈ s.summaryRequests opened, r.isOpening = false := by
  intro r hr
  rw [summaryRequests, summaryText, hk] at hr
  rcases List.mem_append.mp hr with hr | hr
  · rcases List.mem_append.mp hr with hr | hr
    · exact not_opening_retirement _ r hr
    · rw [List.mem_singleton.mp hr]
      rfl
  · exact not_opening_closing _ r hr

theorem summaryRequests_of_none {opened : Nat} (hk : s.current? = none) :
    s.summaryRequests opened = s.summaries.flatMap s.retirement ++
      s.creation :: s.closing (discussionId opened) := by
  rw [summaryRequests, summaryText, summaryDiscussion, hk]
  exact List.append_assoc ..

/-- What stands for the new summary after a part of a plan. -/
def HasSummary (s : Snapshot) (p : Platform) (rs : List Request) (sums : List Discussion) : Prop :=
  sums = [] ∨ s.current? = none ∧ (s.summaries.flatMap s.retirement).Sublist rs ∧
    ∃ d resolved, p.IsNew s.summaryBody resolved d ∧ (resolved = true → s.analysis.passed = true) ∧
      sums = [d]

/-- The summary block opens a new summary once the old ones are retired, if none is current. -/
theorem newcomers_summaryRequests (h : rs <+: s.summaryRequests p.opened) :
    s.HasSummary p rs (p.newcomers rs) := by
  cases hk : s.current? with
  | some k =>
    refine Or.inl (Platform.newcomers_of_not_opening ?_)
    exact fun r hr => not_opening_summaryRequests hk r (h.subset hr)
  | none =>
    rw [summaryRequests_of_none hk] at h
    rcases prefix_append_cases h with hrs | ⟨us, hus, rfl⟩
    · refine Or.inl (Platform.newcomers_of_not_opening ?_)
      exact fun r hr => not_opening_retirement _ r (hrs.subset hr)
    · rcases List.prefix_cons_iff.mp hus with rfl | ⟨ts, rfl, hts⟩
      · rw [List.append_nil]
        exact Or.inl (Platform.newcomers_of_not_opening (not_opening_retirement _))
      · obtain ⟨d, resolved, hd, hnew, hpassed, -⟩ := newcomers_creation hts
        exact Or.inr ⟨hk, List.sublist_append_left .., d, resolved, hd, hpassed, hnew⟩

/-- What stands for the new summary after a whole plan. -/
def EndsWithSummary (s : Snapshot) (p : Platform) (sums : List Discussion) : Prop :=
  s.current? ≠ none ∧ sums = [] ∨
    s.current? = none ∧ ∃ d, p.IsNew s.summaryBody s.analysis.passed d ∧ sums = [d]

theorem EndsWithSummary.after {sums : List Discussion} (h : s.EndsWithSummary (p.after rs) sums) :
    s.EndsWithSummary p sums := by
  rcases h with hnone | ⟨hk, d, hd, heq⟩
  · exact Or.inl hnone
  · exact Or.inr ⟨hk, d, hd.after, heq⟩

theorem newcomers_summaryRequests_all :
    s.EndsWithSummary p (p.newcomers (s.summaryRequests p.opened)) := by
  cases hk : s.current? with
  | some k =>
    refine Or.inl ⟨?_, Platform.newcomers_of_not_opening (not_opening_summaryRequests hk)⟩
    rw [hk]
    nofun
  | none =>
    obtain ⟨d, resolved, hd, hnew, -, hpassed⟩ :=
      newcomers_creation (s := s) (p := p) List.prefix_rfl
    rw [hpassed rfl] at hd
    rw [summaryRequests_of_none hk]
    exact Or.inr ⟨hk, d, hd, hnew⟩

theorem spares_issuePlan {opened : Nat} (changeset : Value → Int → Option String)
    (hnew : s.IsApart opened) : Platform.Spares opened (s.issuePlan changeset) := by
  intro r hr
  rcases List.mem_append.mp hr with hr | hr
  · exact spares_issueRequests changeset _ _ opened r hr
  · exact spares_staleRequests hnew r hr

/-- The summary block concerns no new discussion but its own. -/
theorem spares_summaryRequests {opened later k : Nat} (hnew : s.IsApart opened) (hk : opened ≤ k)
    (hne : k ≠ later) : ∀ r ∈ s.summaryRequests later, r.concerns (discussionId k) = false := by
  have hsub : s.live.dropLast ⊆ s.discussions :=
    ((List.dropLast_sublist _).trans live_sublist).subset
  have hlater : (discussionId k).same (discussionId later) = false := by
    rcases Nat.lt_or_gt_of_ne hne with hlt | hlt
    · exact (Platform.discussionId_apart hlt).1
    · exact (Platform.discussionId_apart hlt).2
  intro r hr
  unfold summaryRequests summaryText summaryDiscussion at hr
  cases hcurrent : s.current? with
  | some c =>
    have hc := (hnew c (mem_live.mp (mem_live_of_current? hcurrent)).1 k hk).2
    rw [hcurrent] at hr
    rcases List.mem_append.mp hr with hr | hr
    · rcases List.mem_append.mp hr with hr | hr
      · exact spares_retirement hnew hsub r hr k hk
      · rw [List.mem_singleton.mp hr]
        exact hc
    · rw [Request.concerns, target_closing hr]
      exact hc
  | none =>
    rw [hcurrent] at hr
    rcases List.mem_append.mp hr with hr | hr
    · rcases List.mem_append.mp hr with hr | hr
      · exact spares_retirement hnew (List.filter_subset_self _) r hr k hk
      · rw [List.mem_singleton.mp hr]
        rfl
    · rw [Request.concerns, target_closing hr]
      exact hlater

theorem HasSummary.append {sums : List Discussion} (h : s.HasSummary p rs sums)
    (us : List Request) : s.HasSummary p (rs ++ us) sums := by
  rcases h with h | ⟨hk, hsub, hd⟩
  · exact Or.inl h
  · exact Or.inr ⟨hk, hsub.trans (List.sublist_append_left rs us), hd⟩

theorem HasSummary.after {sums : List Discussion} {us : List Request}
    (h : s.HasSummary (p.after us) rs sums) : s.HasSummary p (us ++ rs) sums := by
  rcases h with h | ⟨hk, hsub, d, resolved, hd, hpassed, rfl⟩
  · exact Or.inl h
  · exact Or.inr
      ⟨hk, hsub.trans (List.sublist_append_right us rs), d, resolved, hd.after, hpassed, rfl⟩

/-- What a part of a plan opens: discussions for the first of the issues that are due, and possibly
the summary. -/
def Opens (s : Snapshot) (p : Platform) (rs : List Request) : Prop :=
  ∃ done threads sums, done <+: s.due p.changeset ∧ List.Forall₂ (s.IsThread p) done threads ∧
    s.HasSummary p rs sums ∧ (p.newcomers rs).Perm (threads ++ sums)

theorem opens_reconciliation (hnew : s.IsApart p.opened)
    (h : rs <+: s.reconciliation p.changeset p.opened) : s.Opens p rs := by
  unfold reconciliation at h
  split at h
  · rcases prefix_append_cases h with hrs | ⟨us, hus, rfl⟩
    · exact ⟨[], [], p.newcomers rs, List.nil_prefix, .nil, newcomers_summaryRequests hrs,
        List.Perm.refl _⟩
    · have hlater := Platform.opened_after p (s.summaryRequests p.opened)
      have hchangeset := Platform.changeset_after p (s.summaryRequests p.opened)
      rw [← hchangeset] at hus
      obtain ⟨done, hdone, hthreads⟩ :=
        newcomers_issuePlan (hnew.mono (hlater ▸ Nat.le_add_right ..)) hus
      rw [hchangeset] at hdone hus
      refine ⟨done, _, _, hdone, hthreads.imp fun _ _ => Platform.IsNew.after,
        HasSummary.append (newcomers_summaryRequests List.prefix_rfl) us, ?_⟩
      rw [Platform.newcomers_append_of_spares fun r hr k hk _ =>
        spares_issuePlan p.changeset hnew r (hus.subset hr) k hk]
      exact List.perm_append_comm
  · rcases prefix_append_cases h with hrs | ⟨us, hus, rfl⟩
    · obtain ⟨done, hdone, hthreads⟩ := newcomers_issuePlan hnew hrs
      exact ⟨done, _, [], hdone, hthreads, Or.inl rfl, by rw [List.append_nil]⟩
    · rw [← Platform.opened_after] at hus
      refine ⟨s.due p.changeset, _, _, List.prefix_rfl, newcomers_issuePlan_all hnew,
        HasSummary.after (newcomers_summaryRequests hus), ?_⟩
      rw [Platform.newcomers_append_of_spares fun r hr k hk hlt =>
        spares_summaryRequests hnew hk (Nat.ne_of_lt hlt) r (hus.subset hr)]

theorem opens_plan (hnew : s.IsApart p.opened) (h : rs <+: s.plan p.changeset p.opened) :
    s.Opens p rs := by
  have hstatus : ∀ us, us <+: [Request.pushStatus s.mergeRequest.sourceProject
      s.analysis.commitSha s.status] → ∀ r ∈ us, r.target? = none ∧ r.isOpening = false := by
    intro us hus r hr
    rw [List.mem_singleton.mp (hus.subset hr)]
    exact ⟨rfl, rfl⟩
  rcases prefix_append_cases h with hrs | ⟨us, hus, rfl⟩
  · exact opens_reconciliation hnew hrs
  · obtain ⟨done, threads, sums, hdone, hthreads, hsums, hperm⟩ :=
      opens_reconciliation hnew List.prefix_rfl
    refine ⟨done, threads, sums, hdone, hthreads, hsums.append us, ?_⟩
    rw [Platform.newcomers_append_of_spares,
      Platform.newcomers_of_not_opening fun r hr => (hstatus us hus r hr).2, List.append_nil]
    · exact hperm
    · intro r hr k _ _
      rw [Request.concerns, (hstatus us hus r hr).1]
      rfl

/-- In the end there is a discussion for each issue that is due, and one for the summary if there
was no current one. -/
theorem newcomers_plan_all (hnew : s.IsApart p.opened) :
    ∃ threads sums, List.Forall₂ (s.IsThread p) (s.due p.changeset) threads ∧
      s.EndsWithSummary p sums ∧
      (p.newcomers (s.plan p.changeset p.opened)).Perm (threads ++ sums) := by
  have hstatus : p.newcomers (s.plan p.changeset p.opened) =
      p.newcomers (s.reconciliation p.changeset p.opened) := by
    rw [plan, Platform.newcomers_append_of_spares]
    · exact List.append_nil _
    · intro r hr k _ _
      rw [List.mem_singleton.mp hr]
      rfl
  rw [hstatus, reconciliation]
  split
  · have hopened := Platform.opened_after p (s.summaryRequests p.opened)
    have hchangeset := Platform.changeset_after p (s.summaryRequests p.opened)
    have hthreads := newcomers_issuePlan_all (p := p.after (s.summaryRequests p.opened))
      (hnew.mono (hopened ▸ Nat.le_add_right ..))
    rw [hchangeset] at hthreads
    refine ⟨_, p.newcomers (s.summaryRequests p.opened),
      hthreads.imp fun _ _ => Platform.IsNew.after, newcomers_summaryRequests_all, ?_⟩
    rw [Platform.newcomers_append_of_spares fun r hr k hk _ =>
      spares_issuePlan p.changeset hnew r hr k hk]
    exact List.perm_append_comm
  · rw [← Platform.opened_after]
    refine ⟨_, (p.after (s.issuePlan p.changeset)).newcomers
      (s.summaryRequests (p.after (s.issuePlan p.changeset)).opened),
      newcomers_issuePlan_all hnew, newcomers_summaryRequests_all.after, ?_⟩
    rw [Platform.newcomers_append_of_spares fun r hr k hk hlt =>
      spares_summaryRequests hnew hk (Nat.ne_of_lt hlt) r hr]

end Snapshot
end MergeDecoration
