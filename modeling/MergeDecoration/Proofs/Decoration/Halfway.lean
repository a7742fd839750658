import MergeDecoration.Proofs.Decoration.Newcomers
import MergeDecoration.Proofs.Decoration.Reclassification

/-!
A platform on which a part of a plan came through. The next run can read everything there: what
became of the old discussions, the new threads, and the new summary.
-/
namespace MergeDecoration

open Platform (noteId discussionId)

namespace Snapshot

/-- A snapshot of a platform with unique ids. -/
structure Sees (s : Snapshot) (p : Platform) : Prop where
  numbered : p.IsNumbered
  username : s.username = p.username
  discussions : List.Forall₂ (fun d c =>
    d.classify p.username (some s.analysis.projectKey) = .ok c) p.discussions s.discussions

/-- A snapshot from which everything can be written, and where the program's notes are read back as
what they were written for. -/
structure Sound (s : Snapshot) (p : Platform) : Prop extends s.Sees p where
  same : p.username.same p.username = true
  system : ∀ d ∈ p.discussions, ∀ n ∈ d.notes, n.system = true → n.IsPlain
  ready : s.Ready p.changeset
  issue : ∀ i ∈ s.analysis.openIssues, ∀ body, s.analysis.issueNote i = .ok body →
    Identity.issue? body = .ok (some ⟨some s.analysis.projectKey, i.key⟩) ∧
      Identity.isSummary body (some s.analysis.projectKey) = .ok false
  summary : Identity.isSummary s.summaryBody (some s.analysis.projectKey) = .ok true

variable {s : Snapshot} {p : Platform} {rs : List Request} {c : Classified}

namespace Sees

theorem discussions_eq (h : s.Sees p) : s.discussions.map (·.discussion) = p.discussions := by
  have hlist := h.discussions
  generalize s.discussions = cs at hlist
  generalize p.discussions = ds at hlist
  induction hlist with
  | nil => rfl
  | cons hc _ ih => rw [List.map_cons, ih, Discussion.discussion_of_classify hc]

theorem mem_discussions (h : s.Sees p) (hc : c ∈ s.discussions) :
    c.discussion ∈ p.discussions := by
  rw [← h.discussions_eq]
  exact List.mem_map_of_mem hc

theorem classify_of_mem (h : s.Sees p) (hc : c ∈ s.discussions) :
    c.discussion.classify s.username (some s.analysis.projectKey) = .ok c := by
  have hlist := h.discussions
  rw [← h.username] at hlist
  generalize s.discussions = cs at hlist hc
  generalize p.discussions = ds at hlist
  induction hlist with
  | nil => cases hc
  | cons hd _ ih =>
    rcases List.mem_cons.mp hc with rfl | hc
    · rwa [Discussion.discussion_of_classify hd]
    · exact ih hc

theorem hasOwnIds (h : s.Sees p) : s.HasOwnIds := by
  have hids := h.numbered.discussions
  rw [← h.discussions_eq, List.map_map] at hids
  exact ⟨fun _ hc => hids.same _ (List.mem_map_of_mem hc), List.pairwise_map.mp hids.apart⟩

theorem isApart (h : s.Sees p) : s.IsApart p.opened := fun _ hc k hk =>
  h.numbered.discussions.fresh _ (List.mem_map_of_mem (h.mem_discussions hc)) k hk

theorem filter_plan (h : s.Sees p) (hc : c ∈ s.discussions) :
    (s.plan p.changeset p.opened).filter (·.concerns c.discussion.id) = s.treatment c :=
  Snapshot.filter_plan p.changeset h.hasOwnIds hc fun k hk => (h.isApart c hc k hk).1

/-- Asked the whole plan, each old discussion is treated. -/
theorem treated (h : s.Sees p) (hc : c ∈ s.discussions) :
    ∃ k, p.written ≤ k ∧
      p.carried (s.plan p.changeset p.opened) c.discussion = s.treated (noteId k) c :=
  carried_eq_treated h.username (h.filter_plan hc)

end Sees

namespace Sound

theorem reads (h : s.Sound p) (hc : c ∈ s.discussions) : s.Reads c := by
  refine ⟨by rw [h.username]; exact h.same, h.classify_of_mem hc,
    ⟨p.written, h.numbered.notes _ (h.mem_discussions hc)⟩,
    h.system _ (h.mem_discussions hc), ?_, ?_, h.summary⟩
  · intro hkind
    exact h.ready.flags c (mem_summaries.mpr ⟨hc, beq_iff_eq.mpr hkind⟩)
  · intro hcurrent
    have hlive := mem_live.mp (mem_live_of_current? ((isCurrent_iff h.hasOwnIds hc).mp hcurrent))
    exact ⟨beq_iff_eq.mp hlive.2.1, hlive.2.2⟩

/-- Asked a part of the plan, each old discussion is at a stage of its treatment. -/
theorem stage (h : s.Sound p) (hrs : rs <+: s.plan p.changeset p.opened)
    (hc : c ∈ s.discussions) : s.Stage p.written c (p.carried rs c.discussion) := by
  apply stage_of_prefix h.username
  rw [← h.filter_plan hc]
  exact hrs.filter _

theorem retired_of_current?_none (hnone : s.current? = none) (hkind : c.kind = .summary) :
    s.isRetired c = true ∧ s.isCurrent c = false := by
  rw [isRetired, hkind, isCurrent, hnone]
  exact ⟨rfl, rfl⟩

/-- When the new summary is there, all old ones are retired. -/
theorem treated_of_retirement (h : s.Sound p) (hrs : rs <+: s.plan p.changeset p.opened)
    (hnone : s.current? = none) (hretired : (s.summaries.flatMap s.retirement).Sublist rs)
    (hc : c ∈ s.discussions) (hkind : c.kind = .summary) :
    ∃ k, p.written ≤ k ∧ p.carried rs c.discussion = s.treated (noteId k) c := by
  obtain ⟨hretire, hcurrent⟩ := retired_of_current?_none hnone hkind
  have hmem : c ∈ s.summaries := mem_summaries.mpr ⟨hc, beq_iff_eq.mpr hkind⟩
  have hpart : s.summaries.Sublist s.discussions := List.filter_sublist
  have hshare := (filter_flatMap_concerns h.hasOwnIds hpart hc
    fun _ _ => target_retirement (s := s)).1 hmem
  have hasked := hrs.filter (·.concerns c.discussion.id)
  have hsub := hretired.filter (·.concerns c.discussion.id)
  rw [h.filter_plan hc] at hasked
  rw [hshare, ← treatment_of_isRetired hretire hcurrent] at hsub
  exact carried_eq_treated h.username
    (hasked.eq_of_length (Nat.le_antisymm hasked.length_le hsub.length_le))

end Sound

/-- What a discussion is to a run of the same user on the same project. -/
def reread (s : Snapshot) (d : Discussion) : Option Classified :=
  (d.classify s.username (some s.analysis.projectKey)).toOption

/-- What the next run knows; all but the discussions is as before. -/
def again (s : Snapshot) (q : Platform) : Snapshot :=
  { s with discussions := q.discussions.filterMap s.reread }

/-- What an old discussion is to the next run, if it is still there. -/
def successor (s : Snapshot) (p : Platform) (rs : List Request) (c : Classified) :
    Option Classified :=
  (p.carried rs c.discussion).bind s.reread

theorem reread_of_classify {d : Discussion}
    (h : d.classify s.username (some s.analysis.projectKey) = .ok c) : s.reread d = some c := by
  rw [reread, h]
  rfl

theorem classify_of_reread {d : Discussion} (h : s.reread d = some c) :
    d.classify s.username (some s.analysis.projectKey) = .ok c := by
  unfold reread at h
  cases hd : d.classify s.username (some s.analysis.projectKey) with
  | ok k =>
    rw [hd] at h
    rw [Option.some.inj h]
  | error e =>
    rw [hd] at h
    cases h

theorem Sees.discussions_again (h : s.Sees p) (rs : List Request) :
    (s.again (p.after rs)).discussions =
      s.discussions.filterMap (s.successor p rs) ++ (p.newcomers rs).filterMap s.reread := by
  rw [again, Platform.discussions_after, List.filterMap_append, ← h.discussions_eq,
    List.filterMap_map, List.filterMap_filterMap]
  rfl

theorem Sees.mem_again_of_successor {k : Classified} (h : s.Sees p) (hc : c ∈ s.discussions)
    (hk : s.successor p rs c = some k) : k ∈ (s.again (p.after rs)).discussions := by
  rw [h.discussions_again]
  exact List.mem_append_left _ (List.mem_filterMap.mpr ⟨c, hc, hk⟩)

theorem Sees.mem_again_of_newcomer {d : Discussion} {k : Classified} (h : s.Sees p)
    (hd : d ∈ p.newcomers rs) (hk : s.reread d = some k) :
    k ∈ (s.again (p.after rs)).discussions := by
  rw [h.discussions_again]
  exact List.mem_append_right _ (List.mem_filterMap.mpr ⟨d, hd, hk⟩)

/-- A new thread, as the next run sees it. -/
def thread (s : Snapshot) (i : Issue) (d : Discussion) : Classified :=
  ⟨d, .singleIdentified, some ⟨some s.analysis.projectKey, i.key⟩, false⟩

theorem Sound.reread_thread {i : Issue} {d : Discussion} (h : s.Sound p)
    (hi : i ∈ s.due p.changeset) (hd : s.IsThread p i d) : s.reread d = some (s.thread i d) := by
  obtain ⟨hopen, hdue⟩ := List.mem_filter.mp hi
  obtain ⟨body, hbody⟩ := h.ready.notes i hopen hdue
  obtain ⟨hissue, hsummary⟩ := h.issue i hopen body hbody
  have heq : s.issueBody i = body := by
    rw [issueBody, hbody]
    rfl
  rw [IsThread, heq] at hd
  apply reread_of_classify
  rw [h.username]
  exact hd.classify_issue h.same hsummary hissue

theorem Sound.reread_summary {resolved : Bool} {d : Discussion} (h : s.Sound p)
    (hd : p.IsNew s.summaryBody resolved d) :
    s.reread d = some ⟨d, .summary, none, resolved⟩ := by
  apply reread_of_classify
  rw [h.username]
  exact hd.classify_summary h.same h.summary

/-- A run that was asked a part of its plan, and what it has opened by then: threads for the first
of the issues that are due, and possibly the summary. -/
structure Halfway (s : Snapshot) (p : Platform) (rs : List Request) (done : List Issue)
    (threads sums : List Discussion) : Prop where
  sound : s.Sound p
  asked : rs <+: s.plan p.changeset p.opened
  isDue : done <+: s.due p.changeset
  isThread : List.Forall₂ (s.IsThread p) done threads
  summary : s.HasSummary p rs sums
  newcomers : (p.newcomers rs).Perm (threads ++ sums)

theorem Sound.halfway (h : s.Sound p) (hrs : rs <+: s.plan p.changeset p.opened) :
    ∃ done threads sums, s.Halfway p rs done threads sums := by
  obtain ⟨done, threads, sums, hdone, hthreads, hsums, hperm⟩ := opens_plan h.isApart hrs
  exact ⟨done, threads, sums, h, hrs, hdone, hthreads, hsums, hperm⟩

theorem retirements_sublist_plan (hnone : s.current? = none)
    (changeset : Value → Int → Option String) (opened : Nat) :
    (s.summaries.flatMap s.retirement).Sublist (s.plan changeset opened) := by
  have hblock : ∀ k, (s.summaries.flatMap s.retirement).Sublist (s.summaryRequests k) := by
    intro k
    rw [summaryRequests_of_none hnone]
    exact List.sublist_append_left ..
  rw [plan, reconciliation]
  refine List.Sublist.trans ?_ (List.sublist_append_left ..)
  split
  · exact (hblock opened).trans (List.sublist_append_left ..)
  · exact (hblock _).trans (List.sublist_append_right ..)

/-- After the whole plan, all issues that were due have threads, and the summary is there. -/
theorem Sound.halfway_all (h : s.Sound p) : ∃ threads sums,
    s.Halfway p (s.plan p.changeset p.opened) (s.due p.changeset) threads sums ∧
      s.EndsWithSummary p sums := by
  obtain ⟨threads, sums, hthreads, hsums, hperm⟩ := newcomers_plan_all h.isApart
  refine ⟨threads, sums, ⟨h, List.prefix_rfl, List.prefix_rfl, hthreads, ?_, hperm⟩, hsums⟩
  rcases hsums with ⟨-, hnil⟩ | ⟨hnone, d, hd, rfl⟩
  · exact Or.inl hnil
  · exact Or.inr ⟨hnone, retirements_sublist_plan hnone .., d, s.analysis.passed, hd, id, rfl⟩

namespace Halfway

variable {done : List Issue} {threads sums : List Discussion} {k : Classified}

/-- An old discussion is gone, or the next run sees it as one that is treated in part or in full. -/
theorem successor_cases (h : s.Halfway p rs done threads sums) (hc : c ∈ s.discussions) :
    p.carried rs c.discussion = none ∧ s.successor p rs c = none ∨
      ∃ k, p.carried rs c.discussion = some k.discussion ∧ s.successor p rs c = some k ∧
        s.Next p.written c k := by
  have hstage := h.sound.stage h.asked hc
  cases he : p.carried rs c.discussion with
  | none =>
    left
    rw [successor, he]
    exact ⟨rfl, rfl⟩
  | some e =>
    right
    rw [he] at hstage
    obtain ⟨k, hk, hnext⟩ := next_of_stage (h.sound.reads hc) hstage
    refine ⟨k, ?_, ?_, hnext⟩
    · rw [Discussion.discussion_of_classify hk]
    · rw [successor, he]
      exact reread_of_classify hk

theorem thread_of_mem {d : Discussion} (h : s.Halfway p rs done threads sums) (hd : d ∈ threads) :
    ∃ i ∈ done, s.IsThread p i d ∧ s.reread d = some (s.thread i d) := by
  obtain ⟨i, hi, hthread⟩ := exists_of_mem_of_forall₂ h.isThread hd
  exact ⟨i, hi, hthread, h.sound.reread_thread (h.isDue.subset hi) hthread⟩

theorem exists_thread {i : Issue} (h : s.Halfway p rs done threads sums) (hi : i ∈ done) :
    ∃ d ∈ threads, s.IsThread p i d ∧ s.reread d = some (s.thread i d) := by
  obtain ⟨d, hd, hthread⟩ := exists_of_mem_of_forall₂ h.isThread.flip hi
  exact ⟨d, hd, hthread, h.sound.reread_thread (h.isDue.subset hi) hthread⟩

theorem summary_of_mem {d : Discussion} (h : s.Halfway p rs done threads sums) (hd : d ∈ sums) :
    ∃ resolved, p.IsNew s.summaryBody resolved d ∧
      s.reread d = some ⟨d, .summary, none, resolved⟩ := by
  rcases h.summary with rfl | ⟨-, -, e, resolved, he, -, rfl⟩
  · cases hd
  · rw [List.mem_singleton.mp hd]
    exact ⟨resolved, he, h.sound.reread_summary he⟩

/-- What the next run sees: what became of the old discussions, new threads, and the new summary. -/
theorem mem_again (h : s.Halfway p rs done threads sums)
    (hk : k ∈ (s.again (p.after rs)).discussions) :
    (∃ c ∈ s.discussions, p.carried rs c.discussion = some k.discussion ∧
      s.successor p rs c = some k ∧ s.Next p.written c k) ∨
    (∃ i ∈ done, ∃ d ∈ threads, s.IsThread p i d ∧ k = s.thread i d) ∨
    ∃ d ∈ sums, ∃ resolved, p.IsNew s.summaryBody resolved d ∧
      k = ⟨d, .summary, none, resolved⟩ := by
  rw [h.sound.discussions_again] at hk
  rcases List.mem_append.mp hk with hk | hk
  · obtain ⟨c, hc, hsuccessor⟩ := List.mem_filterMap.mp hk
    rcases h.successor_cases hc with ⟨-, hnone⟩ | ⟨k', hcarried, hk', hnext⟩
    · rw [hnone] at hsuccessor
      cases hsuccessor
    · rw [hk', Option.some.injEq] at hsuccessor
      subst hsuccessor
      exact Or.inl ⟨c, hc, hcarried, hk', hnext⟩
  · obtain ⟨d, hd, hreread⟩ := List.mem_filterMap.mp hk
    right
    rcases List.mem_append.mp (h.newcomers.mem_iff.mp hd) with hd | hd
    · obtain ⟨i, hi, hthread, hd'⟩ := h.thread_of_mem hd
      rw [hd', Option.some.injEq] at hreread
      exact Or.inl ⟨i, hi, d, hd, hthread, hreread.symm⟩
    · obtain ⟨resolved, hnew, hd'⟩ := h.summary_of_mem hd
      rw [hd', Option.some.injEq] at hreread
      exact Or.inr ⟨d, hd, resolved, hnew, hreread.symm⟩

/-- The next run can read everything. -/
theorem sees (h : s.Halfway p rs done threads sums) :
    (s.again (p.after rs)).Sees (p.after rs) := by
  refine ⟨Platform.isNumbered_after h.sound.numbered rs, ?_, ?_⟩
  · rw [Platform.username_after]
    exact h.sound.username
  · apply forall₂_filterMap
    intro d hd
    have hread : ∃ k, s.reread d = some k := by
      rw [Platform.discussions_after] at hd
      rcases List.mem_append.mp hd with hd | hd
      · obtain ⟨e, he, hcarried⟩ := List.mem_filterMap.mp hd
        rw [← h.sound.discussions_eq] at he
        obtain ⟨c, hc, rfl⟩ := List.mem_map.mp he
        rcases h.successor_cases hc with ⟨hnone, -⟩ | ⟨k, hk, hsuccessor, -⟩
        · rw [hnone] at hcarried
          cases hcarried
        · rw [successor, hcarried] at hsuccessor
          exact ⟨k, hsuccessor⟩
      · rcases List.mem_append.mp (h.newcomers.mem_iff.mp hd) with hd | hd
        · obtain ⟨i, -, -, hreread⟩ := h.thread_of_mem hd
          exact ⟨_, hreread⟩
        · obtain ⟨resolved, -, hreread⟩ := h.summary_of_mem hd
          exact ⟨_, hreread⟩
    obtain ⟨k, hk⟩ := hread
    refine ⟨k, hk, ?_⟩
    rw [Platform.username_after, ← h.sound.username]
    exact classify_of_reread hk

end Halfway
end Snapshot
end MergeDecoration
