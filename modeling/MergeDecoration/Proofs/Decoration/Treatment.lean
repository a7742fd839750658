import MergeDecoration.Proofs.Decoration.Plan
import MergeDecoration.Proofs.Discussion.Classification

/-!
The part of a plan that concerns one discussion. Ids being unique, it is what the discussion's own
kind calls for.
-/
namespace MergeDecoration
namespace Snapshot

variable {s : Snapshot} {c k : Classified} {r : Request}

/-- Whether the summary in a discussion is the one that is edited. -/
def isCurrent (s : Snapshot) (c : Classified) : Bool :=
  s.current?.any fun k => c.discussion.id.same k.discussion.id

/-- Whether the summary in a discussion is retired. -/
def isRetired (s : Snapshot) (c : Classified) : Bool :=
  c.kind == .summary && (s.current?.isNone || !s.flagged c)

/-- What a run asks for a discussion. -/
def treatment (s : Snapshot) (c : Classified) : List Request :=
  if s.isCurrent c then s.editing c :: s.closing c.discussion.id
  else if s.isRetired c then s.retirement c
  else s.staleRequests s.openKeys c

/-- Discussions have ids of their own. -/
def HasOwnIds (s : Snapshot) : Prop :=
  (∀ c ∈ s.discussions, c.discussion.id.same c.discussion.id = true) ∧
    s.discussions.Pairwise fun c k => c.discussion.id.Apart k.discussion.id

theorem same_iff (hids : s.HasOwnIds) (hc : c ∈ s.discussions) (hk : k ∈ s.discussions) :
    c.discussion.id.same k.discussion.id = true ↔ c = k := by
  constructor
  · intro hsame
    by_contra hne
    have : Std.Symm fun c k : Classified => c.discussion.id.Apart k.discussion.id :=
      ⟨fun _ _ h => h.symm⟩
    have hapart := hids.2.forall hc hk hne
    rw [hapart.1] at hsame
    cases hsame
  · rintro rfl
    exact hids.1 c hc

theorem target_staleRequests {keys : List String} (h : r ∈ s.staleRequests keys c) :
    r.target? = some c.discussion.id := by
  unfold staleRequests at h
  split_ifs at h
  · rw [List.mem_singleton.mp h]
    rfl
  · rw [List.mem_singleton.mp h]
    rfl
  · cases h

theorem target_retirement (h : r ∈ s.retirement c) : r.target? = some c.discussion.id := by
  unfold retirement at h
  split_ifs at h
  · rw [List.mem_singleton.mp h]
    rfl
  · cases h
  · rw [List.mem_singleton.mp h]
    rfl

theorem target_closing {d : Value} (h : r ∈ s.closing d) : r.target? = some d := by
  unfold closing at h
  split_ifs at h
  · rw [List.mem_singleton.mp h]
    rfl
  · cases h

theorem target_issueRequests {changeset : Value → Int → Option String} {keys : List String}
    {i : Issue} (h : r ∈ s.issueRequests changeset keys i) : r.target? = none := by
  unfold issueRequests at h
  split at h
  · cases h
  · split_ifs at h
    · cases h
    · rcases List.mem_cons.mp h with rfl | h
      · rfl
      · rw [List.mem_singleton.mp h]
        rfl
    · rw [List.mem_singleton.mp h]
      rfl

/-- Of what is asked for discussions of a part, one of the part is concerned by its own share. -/
theorem filter_flatMap_concerns {part : List Classified} {share : Classified → List Request}
    (hids : s.HasOwnIds) (hpart : part.Sublist s.discussions) (hc : c ∈ s.discussions)
    (htarget : ∀ k, ∀ r ∈ share k, r.target? = some k.discussion.id) :
    (c ∈ part → (part.flatMap share).filter (·.concerns c.discussion.id) = share c) ∧
      (c ∉ part → (part.flatMap share).filter (·.concerns c.discussion.id) = []) := by
  have hconcerns : ∀ k r, r ∈ share k →
      r.concerns c.discussion.id = c.discussion.id.same k.discussion.id := by
    intro k r hr
    rw [Request.concerns, htarget k r hr, Option.any_some]
  have hown : (share c).filter (·.concerns c.discussion.id) = share c := by
    rw [List.filter_eq_self]
    intro r hr
    rw [hconcerns c r hr, hids.1 c hc]
  have hother : ∀ k ∈ s.discussions, c ≠ k →
      (share k).filter (·.concerns c.discussion.id) = [] := by
    intro k hk hne
    rw [List.filter_eq_nil_iff]
    intro r hr
    rw [hconcerns k r hr, same_iff hids hc hk]
    exact hne
  have hnodup : part.Pairwise fun k l => k ≠ l := by
    apply (hids.2.sublist hpart).imp_of_mem
    rintro k l hk - hapart rfl
    exact Bool.noConfusion ((hids.1 k (hpart.subset hk)).symm.trans hapart.1)
  induction part with
  | nil => exact ⟨nofun, fun _ => rfl⟩
  | cons k part ih =>
    rw [List.pairwise_cons] at hnodup
    obtain ⟨hin, hout⟩ := ih ((List.sublist_cons_self k part).trans hpart) hnodup.2
    have hk : k ∈ s.discussions := hpart.subset (List.mem_cons_self ..)
    rw [List.flatMap_cons, List.filter_append]
    constructor
    · intro hmem
      rcases List.mem_cons.mp hmem with rfl | hmem
      · rw [hown, hout fun hmem => hnodup.1 c hmem rfl, List.append_nil]
      · rw [hother k hk fun heq => hnodup.1 c hmem heq.symm, hin hmem, List.nil_append]
    · intro hmem
      rw [List.mem_cons, not_or] at hmem
      rw [hother k hk hmem.1, hout hmem.2, List.append_nil]

theorem filter_issuePlan (changeset : Value → Int → Option String) (hids : s.HasOwnIds)
    (hc : c ∈ s.discussions) :
    (s.issuePlan changeset).filter (·.concerns c.discussion.id) = s.staleRequests s.openKeys c := by
  have hissues : (s.analysis.openIssues.flatMap
      (s.issueRequests changeset s.representedKeys)).filter (·.concerns c.discussion.id) = [] := by
    rw [List.filter_eq_nil_iff]
    intro r hr
    obtain ⟨i, -, hr⟩ := List.mem_flatMap.mp hr
    rw [Request.concerns, target_issueRequests hr]
    exact Bool.false_ne_true
  rw [issuePlan, List.filter_append, hissues, List.nil_append]
  exact (filter_flatMap_concerns hids (List.Sublist.refl _) hc fun _ _ => target_staleRequests).1 hc

theorem live_sublist : s.live.Sublist s.discussions :=
  List.filter_sublist.trans List.filter_sublist

theorem mem_summaries : c ∈ s.summaries ↔ c ∈ s.discussions ∧ (c.kind == .summary) = true :=
  List.mem_filter

theorem mem_live :
    c ∈ s.live ↔ c ∈ s.discussions ∧ (c.kind == .summary) = true ∧ s.flagged c = false := by
  rw [live, List.mem_filter, mem_summaries, and_assoc, Bool.not_eq_true']

/-- The current summary is the last of the live ones. -/
theorem live_eq_of_current? (h : s.current? = some k) : s.live = s.live.dropLast ++ [k] := by
  unfold current? at h
  split at h
  · exact (List.dropLast_append_getLast? k h).symm
  · cases h

theorem mem_live_of_current? (h : s.current? = some k) : k ∈ s.live := by
  rw [live_eq_of_current? h]
  exact List.mem_append_right _ (List.mem_singleton_self k)

theorem isCurrent_iff (hids : s.HasOwnIds) (hc : c ∈ s.discussions) :
    s.isCurrent c = true ↔ s.current? = some c := by
  unfold isCurrent
  cases hk : s.current? with
  | none => simp
  | some k =>
    have hmem : k ∈ s.discussions := (mem_live.mp (mem_live_of_current? hk)).1
    rw [Option.any_some, same_iff hids hc hmem, Option.some.injEq, eq_comm]

theorem isCurrent_eq_false (hids : s.HasOwnIds) (hc : c ∈ s.discussions)
    (hne : s.current? ≠ some c) : s.isCurrent c = false := by
  rw [← Bool.not_eq_true, isCurrent_iff hids hc]
  exact hne

/-- The current summary stands among the live ones only once. -/
theorem mem_dropLast_iff (hids : s.HasOwnIds) (hk : s.current? = some k) :
    c ∈ s.live.dropLast ↔ c ∈ s.live ∧ c ≠ k := by
  have hlive := live_eq_of_current? hk
  have hpair := hids.2.sublist live_sublist
  rw [hlive] at hpair
  obtain ⟨-, -, hapart⟩ := List.pairwise_append.mp hpair
  have hself : k.discussion.id.same k.discussion.id = true :=
    hids.1 k (mem_live.mp (mem_live_of_current? hk)).1
  constructor
  · intro hc
    refine ⟨(List.dropLast_sublist _).subset hc, ?_⟩
    rintro rfl
    have hsame := (hapart c hc c (List.mem_singleton_self c)).1
    exact Bool.noConfusion (hself.symm.trans hsame)
  · rintro ⟨hc, hne⟩
    rw [hlive] at hc
    rcases List.mem_append.mp hc with hc | hc
    · exact hc
    · exact absurd (List.mem_singleton.mp hc) hne

theorem filter_closing (id d : Value) :
    (s.closing d).filter (·.concerns id) = if id.same d then s.closing d else [] := by
  split
  · next hsame =>
    rw [List.filter_eq_self]
    intro r hr
    rw [Request.concerns, target_closing hr, Option.any_some, hsame]
  · next hsame =>
    rw [List.filter_eq_nil_iff]
    intro r hr
    rw [Request.concerns, target_closing hr, Option.any_some]
    exact hsame

/-- If no summary is current, all are retired. -/
theorem filter_summaryRequests_of_none {opened : Nat} (hids : s.HasOwnIds) (hc : c ∈ s.discussions)
    (hnew : c.discussion.id.same (Platform.discussionId opened) = false) (hk : s.current? = none) :
    (s.summaryRequests opened).filter (·.concerns c.discussion.id) =
      if c.kind == .summary then s.retirement c else [] := by
  have hpart : s.summaries.Sublist s.discussions := List.filter_sublist
  obtain ⟨hin, hout⟩ :=
    filter_flatMap_concerns hids hpart hc fun _ _ => target_retirement (s := s)
  have hcreate : ∀ r : Request, r.target? = none →
      [r].filter (·.concerns c.discussion.id) = [] := by
    intro r hr
    rw [List.filter_singleton, Request.concerns, hr]
    rfl
  unfold summaryRequests summaryText summaryDiscussion
  rw [hk]
  dsimp only
  rw [List.filter_append, List.filter_append, hcreate _ rfl, filter_closing, hnew,
    if_neg Bool.false_ne_true, List.append_nil, List.append_nil]
  by_cases hsummary : (c.kind == .summary) = true
  · rw [if_pos hsummary, hin (mem_summaries.mpr ⟨hc, hsummary⟩)]
  · rw [if_neg hsummary, hout fun hmem => hsummary (mem_summaries.mp hmem).2]

/-- If a summary is current, the other live ones are retired. -/
theorem filter_summaryRequests_of_some {opened : Nat} (hids : s.HasOwnIds) (hc : c ∈ s.discussions)
    (hk : s.current? = some k) :
    (s.summaryRequests opened).filter (·.concerns c.discussion.id) =
      if s.isCurrent c then s.editing c :: s.closing c.discussion.id
      else if c.kind == .summary && !s.flagged c then s.retirement c
      else [] := by
  have hkdisc := (mem_live.mp (mem_live_of_current? hk)).1
  have hpart : s.live.dropLast.Sublist s.discussions := (List.dropLast_sublist _).trans live_sublist
  obtain ⟨hin, hout⟩ :=
    filter_flatMap_concerns hids hpart hc fun _ _ => target_retirement (s := s)
  have hedit : [s.editing k].filter (·.concerns c.discussion.id) =
      if c.discussion.id.same k.discussion.id then [s.editing k] else [] := by
    rw [List.filter_singleton, Bool.cond_eq_ite]
    rfl
  unfold summaryRequests summaryText summaryDiscussion
  rw [hk]
  dsimp only
  rw [List.filter_append, List.filter_append, hedit, filter_closing]
  by_cases heq : c = k
  · subst heq
    have hnot : c ∉ s.live.dropLast := fun hmem => ((mem_dropLast_iff hids hk).mp hmem).2 rfl
    rw [hout hnot, hids.1 c hc, (isCurrent_iff hids hc).mpr hk]
    rfl
  · have hother : c.discussion.id.same k.discussion.id = false := by
      rw [← Bool.not_eq_true, same_iff hids hc hkdisc]
      exact heq
    have hcurrent : s.isCurrent c = false := by
      apply isCurrent_eq_false hids hc
      rw [hk]
      exact fun h => heq (Option.some.inj h).symm
    rw [hother, hcurrent, if_neg Bool.false_ne_true, if_neg Bool.false_ne_true,
      if_neg Bool.false_ne_true, List.append_nil, List.append_nil]
    by_cases hlive : c ∈ s.live
    · obtain ⟨-, hsummary, hflag⟩ := mem_live.mp hlive
      rw [hin ((mem_dropLast_iff hids hk).mpr ⟨hlive, heq⟩), hsummary, hflag]
      rfl
    · rw [hout fun hmem => hlive ((mem_dropLast_iff hids hk).mp hmem).1, if_neg]
      rw [Bool.and_eq_true, Bool.not_eq_true']
      exact fun h => hlive (mem_live.mpr ⟨hc, h⟩)

/-- The share of a discussion in what is asked for the summaries. -/
theorem filter_summaryRequests {opened : Nat} (hids : s.HasOwnIds) (hc : c ∈ s.discussions)
    (hnew : c.discussion.id.same (Platform.discussionId opened) = false) :
    (s.summaryRequests opened).filter (·.concerns c.discussion.id) =
      if s.isCurrent c then s.editing c :: s.closing c.discussion.id
      else if s.isRetired c then s.retirement c
      else [] := by
  cases hk : s.current? with
  | none =>
    have hcurrent := isCurrent_eq_false hids hc (by rw [hk]; nofun)
    rw [filter_summaryRequests_of_none hids hc hnew hk, hcurrent, if_neg Bool.false_ne_true,
      isRetired, hk, Option.isNone_none, Bool.true_or, Bool.and_true]
  | some k =>
    rw [filter_summaryRequests_of_some hids hc hk, isRetired, hk, Option.isNone_some,
      Bool.false_or]

theorem staleRequests_of_summary {keys : List String} (h : c.kind = .summary) :
    s.staleRequests keys c = [] := by
  rw [staleRequests, isStale, Classified.isLiveIssue, h]
  rfl

theorem kind_of_isCurrent (hids : s.HasOwnIds) (hc : c ∈ s.discussions)
    (h : s.isCurrent c = true) : c.kind = .summary := by
  have hk := (isCurrent_iff hids hc).mp h
  exact beq_iff_eq.mp (mem_live.mp (mem_live_of_current? hk)).2.1

theorem kind_of_isRetired (h : s.isRetired c = true) : c.kind = .summary := by
  rw [isRetired, Bool.and_eq_true] at h
  exact beq_iff_eq.mp h.1

/-- A discussion without a summary is treated as a thread. -/
theorem treatment_of_ne_summary (hids : s.HasOwnIds) (hc : c ∈ s.discussions)
    (hkind : c.kind ≠ .summary) : s.treatment c = s.staleRequests s.openKeys c := by
  have hcurrent : ¬s.isCurrent c = true := fun h => hkind (kind_of_isCurrent hids hc h)
  have hretired : ¬s.isRetired c = true := fun h => hkind (kind_of_isRetired h)
  rw [treatment, if_neg hcurrent, if_neg hretired]

theorem staleRequests_of_isStale_eq_false {keys : List String} (h : s.isStale keys c = false) :
    s.staleRequests keys c = [] := by
  rw [staleRequests, h, if_neg Bool.false_ne_true]

theorem kind_of_isLiveIssue {project : String} (h : c.isLiveIssue project = true) :
    c.kind ≠ .summary := by
  intro hkind
  rw [Classified.isLiveIssue, hkind] at h
  cases h

/-- The part of a plan that concerns a discussion is the treatment of its kind. -/
theorem filter_plan {opened : Nat} (changeset : Value → Int → Option String) (hids : s.HasOwnIds)
    (hc : c ∈ s.discussions)
    (hnew : ∀ k, opened ≤ k → c.discussion.id.same (Platform.discussionId k) = false) :
    (s.plan changeset opened).filter (·.concerns c.discussion.id) = s.treatment c := by
  have hstatus : ∀ project revision status,
      [Request.pushStatus project revision status].filter (·.concerns c.discussion.id) = [] :=
    fun _ _ _ => rfl
  have hsummary := fun k hk => filter_summaryRequests hids hc (hnew k hk)
  have hissues := filter_issuePlan changeset hids hc
  have hshares : (s.reconciliation changeset opened).filter (·.concerns c.discussion.id) =
      s.treatment c := by
    unfold reconciliation treatment
    split
    all_goals
      rw [List.filter_append, hissues]
      rw [hsummary _ (by omega)]
      split
      · next hcurrent =>
        rw [staleRequests_of_summary (kind_of_isCurrent hids hc hcurrent)]
        simp
      · split
        · next hretired =>
          rw [staleRequests_of_summary (kind_of_isRetired hretired)]
          simp
        · simp
  rw [plan, List.filter_append, hshares, hstatus, List.append_nil]

theorem closing_cases (s : Snapshot) (d : Value) : s.closing d = [] ∨
    s.closing d = [.resolve s.mergeRequest.targetProject s.mergeRequest.iid d] := by
  unfold closing
  split_ifs
  · exact Or.inr rfl
  · exact Or.inl rfl

/-- What is asked last for the summary resolves it if the gate passed. -/
theorem carried_closing {p : Platform} {rs : List Request} {d : Discussion} {id : Value}
    (h : rs.filter (·.concerns d.id) = s.closing id) :
    p.carried rs d = some (if s.analysis.passed then d.resolve else d) := by
  unfold closing at h
  split_ifs at h with hpassed
  · obtain ⟨k, -, hcarried⟩ := Platform.carried_of_filter_singleton h
    rw [hcarried, if_pos hpassed]
    rfl
  · rw [Platform.carried_of_filter_nil h, if_neg hpassed]

end Snapshot
end MergeDecoration
