import MergeDecoration.Proofs.Decoration.Resumption

/-!
Runs converge. However much of a run came through, the next run leads the platform to where one
whole run would have led it; and after a whole run there is nothing left to do but the summary.
-/
namespace MergeDecoration

open Platform (noteId discussionId)

namespace Platform

variable {p : Platform} {body : String} {resolved : Bool} {d : Discussion}

theorem IsNew.resolve (h : p.IsNew body resolved d) : p.IsNew body true d.resolve := by
  obtain ⟨k, m, hk, hm, rfl⟩ := h
  exact ⟨k, m, hk, hm, rfl⟩

theorem IsNew.notes (h : p.IsNew body resolved d) : ∃ first count, d.notes = [first] ∧
    first.body = .text body ∧ Value.Numbered noteId count d.noteIds := by
  obtain ⟨k, m, hk, hm, rfl⟩ := h
  exact ⟨_, m + 1, rfl, rfl,
    (Value.Numbered.nil noteId m).append_next (noteId_same m) fun _ => noteId_apart⟩

/-- A new note that is given its own text stays what it is. -/
theorem IsNew.editNote (h : p.IsNew body resolved d) :
    d.editNote (Snapshot.firstNoteId ⟨d, .summary, none, resolved⟩) body = d := by
  obtain ⟨first, count, hn, hbody, hids⟩ := h.notes
  rw [Snapshot.firstNoteId_of_notes (c := ⟨d, .summary, none, resolved⟩) hn,
    Discussion.editNote_first hn hids, ← hbody, ← hn]

/-- A new discussion goes with its note. -/
theorem IsNew.deleteNote (h : p.IsNew body resolved d) :
    d.deleteNote (Snapshot.firstNoteId ⟨d, .summary, none, resolved⟩) = none := by
  obtain ⟨first, count, hn, -, hids⟩ := h.notes
  rw [Snapshot.firstNoteId_of_notes (c := ⟨d, .summary, none, resolved⟩) hn,
    Discussion.deleteNote_first hn hids, if_pos rfl]

theorem IsNew.replies (h : p.IsNew body resolved d) : d.replies.isEmpty = true := by
  obtain ⟨k, m, hk, hm, rfl⟩ := h
  rfl

end Platform

namespace Snapshot

/-- What the next run asks. -/
def nextPlan (s : Snapshot) (q : Platform) : List Request :=
  (s.again q).plan q.changeset q.opened

namespace Halfway

variable {s : Snapshot} {p : Platform} {rs : List Request} {c k : Classified}
  {done : List Issue} {threads sums : List Discussion}

/-- The next run treats what it sees. -/
theorem carried_nextPlan (h : s.Halfway p rs done threads sums)
    (hk : k ∈ (s.again (p.after rs)).discussions) :
    ∃ m, p.written ≤ m ∧ (p.after rs).carried (s.nextPlan (p.after rs)) k.discussion =
      (s.again (p.after rs)).treated (noteId m) k := by
  obtain ⟨m, hm, hcarried⟩ := h.sees.treated hk
  exact ⟨m, (Platform.written_le_after p rs).trans hm, hcarried⟩

theorem outline_carried (h : s.Halfway p rs done threads sums) (hc : c ∈ s.discussions) :
    ((p.carried rs c.discussion).bind ((p.after rs).carried (s.nextPlan (p.after rs)))).map
        p.outline =
      (p.carried (s.plan p.changeset p.opened) c.discussion).map p.outline := by
  obtain ⟨n, hn, hcarried⟩ := h.sound.treated hc
  rw [hcarried]
  rcases h.successor_cases hc with ⟨hgone, -⟩ | ⟨k, hk, hsuccessor, -⟩
  · have hstage := h.sound.stage h.asked hc
    obtain ⟨m, hm, htreated⟩ := hstage.exists_treated_eq_none hgone
    rw [hgone, ← outline_treated h.sound.numbered hm hn, htreated]
    rfl
  · have hmem := h.sound.mem_again_of_successor hc hsuccessor
    obtain ⟨m, hm, hagain⟩ := h.carried_nextPlan hmem
    rw [hk, Option.bind_some, hagain]
    exact h.outline_old hc hsuccessor hm hn

/-- The old discussions end as they would have. -/
theorem outline_olds (h : s.Halfway p rs done threads sums) :
    ((p.discussions.filterMap (p.carried rs)).filterMap
        ((p.after rs).carried (s.nextPlan (p.after rs)))).map p.outline =
      (p.discussions.filterMap (p.carried (s.plan p.changeset p.opened))).map p.outline := by
  rw [← h.sound.discussions_eq, List.filterMap_filterMap, List.filterMap_map, List.filterMap_map,
    List.map_filterMap, List.map_filterMap]
  apply List.filterMap_congr
  intro c hc
  exact h.outline_carried hc

/-- The next run leaves the new threads alone. -/
theorem carried_thread {d : Discussion} (h : s.Halfway p rs done threads sums) (hd : d ∈ threads) :
    (p.after rs).carried (s.nextPlan (p.after rs)) d =
      some d := by
  obtain ⟨i, hi, -, hreread⟩ := h.thread_of_mem hd
  have hmem := h.sound.mem_again_of_newcomer
    (h.newcomers.mem_iff.mpr (List.mem_append_left _ hd)) hreread
  have hopen : i.key ∈ (s.again (p.after rs)).openKeys :=
    List.mem_map_of_mem (List.mem_filter.mp (h.isDue.subset hi)).1
  have ht := treatment_of_isLiveIssue h.sees.hasOwnIds hmem (isLiveIssue_thread s i d) rfl hopen
  have hnil := h.sees.filter_plan hmem
  rw [ht] at hnil
  exact Platform.carried_of_filter_nil hnil

/-- The next run edits a new summary and resolves it if it has to be, or it deletes the summary. -/
theorem carried_newSummary {d : Discussion} {resolved : Bool} (h : s.Halfway p rs done threads [d])
    (hd : p.IsNew s.summaryBody resolved d) (hpassed : resolved = true → s.analysis.passed = true) :
    ((s.again (p.after rs)).current? ≠ none ∧ ∃ e, p.IsNew s.summaryBody s.analysis.passed e ∧
      (p.after rs).carried (s.nextPlan (p.after rs)) d = some e) ∨
    ((s.again (p.after rs)).current? = none ∧
      (p.after rs).carried (s.nextPlan (p.after rs)) d = none) := by
  have hmem := h.sound.mem_again_of_newcomer
    (h.newcomers.mem_iff.mpr (List.mem_append_right _ (List.mem_singleton_self d)))
    (h.sound.reread_summary hd)
  obtain ⟨m, -, hcarried⟩ := h.carried_nextPlan hmem
  have hcurrent := h.current?_again_of_new hd
  split at hcurrent
  · left
    have hown : (s.again (p.after rs)).isCurrent ⟨d, .summary, none, resolved⟩ = true :=
      (isCurrent_iff h.sees.hasOwnIds hmem).mpr hcurrent
    have hedit : d.editNote (firstNoteId ⟨d, .summary, none, resolved⟩) s.summaryBody = d :=
      hd.editNote
    rw [treated_of_isCurrent _ hown] at hcarried
    refine ⟨hcurrent ▸ nofun, _, ?_, hcarried⟩
    change p.IsNew _ _ (if s.analysis.passed then (d.editNote _ s.summaryBody).resolve
      else d.editNote _ s.summaryBody)
    rw [hedit]
    cases hp : s.analysis.passed with
    | true => exact hd.resolve
    | false =>
      have hfalse : resolved = false := by
        by_contra hne
        rw [hpassed (Bool.not_eq_false _ ▸ hne)] at hp
        cases hp
      rw [hfalse] at hd
      exact hd
  · right
    have hown : (s.again (p.after rs)).isCurrent ⟨d, .summary, none, resolved⟩ = false := by
      rw [isCurrent, hcurrent]
      rfl
    have hretired : (s.again (p.after rs)).isRetired ⟨d, .summary, none, resolved⟩ = true := by
      rw [isRetired, hcurrent]
      rfl
    rw [treated, treatment_of_isRetired hretired hown, retirement, if_pos hd.replies,
      Discussion.changes_singleton] at hcarried
    exact ⟨hcurrent, hcarried.trans hd.deleteNote⟩

/-- A new summary that is not yet resolved, or not even there, ends as it would have. -/
theorem endsWithSummary {again : List Discussion} (h : s.Halfway p rs done threads sums)
    (hagain : (s.again (p.after rs)).EndsWithSummary (p.after rs) again) :
    s.EndsWithSummary p
      (sums.filterMap ((p.after rs).carried (s.nextPlan (p.after rs))) ++ again) := by
  rcases h.summary with rfl | ⟨hnone, -, d, resolved, hd, hpassed, rfl⟩
  · rw [List.filterMap_nil, List.nil_append]
    have hiff : (s.again (p.after rs)).current? = none ↔ s.current? = none := by
      rw [← Option.isNone_iff_eq_none, ← Option.isNone_iff_eq_none, h.isNone_current?_again]
    rcases hagain.after with ⟨hsome, rfl⟩ | ⟨hnone, hnew⟩
    · exact Or.inl ⟨mt hiff.mpr hsome, rfl⟩
    · exact Or.inr ⟨hiff.mp hnone, hnew⟩
  · right
    refine ⟨hnone, ?_⟩
    rcases h.carried_newSummary hd hpassed with ⟨hsome, e, he, hcarried⟩ | ⟨hgone, hcarried⟩
    · rw [List.filterMap_cons_some hcarried, List.filterMap_nil]
      rcases hagain with ⟨-, rfl⟩ | ⟨hgone, -⟩
      · exact ⟨e, he, rfl⟩
      · exact absurd hgone hsome
    · rw [List.filterMap_cons_none hcarried, List.filterMap_nil, List.nil_append]
      rcases hagain.after with ⟨hsome, -⟩ | ⟨-, hnew⟩
      · exact absurd hgone hsome
      · exact hnew

theorem outline_summary {xs ys : List Discussion} (hp : p.IsNumbered)
    (hx : s.EndsWithSummary p xs) (hy : s.EndsWithSummary p ys) :
    xs.map p.outline = ys.map p.outline := by
  rcases hx with ⟨hsome, rfl⟩ | ⟨hnone, d, hd, rfl⟩
  · rcases hy with ⟨-, rfl⟩ | ⟨hnone, -⟩
    · rfl
    · exact absurd hnone hsome
  · rcases hy with ⟨hsome, -⟩ | ⟨-, e, he, rfl⟩
    · exact absurd hnone hsome
    · rw [List.map_singleton, List.map_singleton, Platform.outline_of_isNew hp hd,
        Platform.outline_of_isNew hp he]

theorem outline_threads {issues : List Issue} {ds es : List Discussion} (hp : p.IsNumbered)
    (hd : List.Forall₂ (s.IsThread p) issues ds) (he : List.Forall₂ (s.IsThread p) issues es) :
    ds.map p.outline = es.map p.outline := by
  induction hd generalizing es with
  | nil =>
    cases he
    rfl
  | cons hd _ ih =>
    cases he with
    | cons he hes =>
      rw [List.map_cons, List.map_cons, ih hes, Platform.outline_of_isNew hp hd,
        Platform.outline_of_isNew hp he]

/-- The new discussions end as they would have. -/
theorem outline_newcomers (h : s.Halfway p rs done threads sums)
    (hkeys : (s.analysis.openIssues.map (·.key)).Nodup) :
    (((p.newcomers rs).filterMap ((p.after rs).carried (s.nextPlan (p.after rs))) ++
        (p.after rs).newcomers (s.nextPlan (p.after rs))).map p.outline).Perm
      ((p.newcomers (s.plan p.changeset p.opened)).map p.outline) := by
  obtain ⟨whole, once, hwhole, honce, hperm⟩ := newcomers_plan_all h.sound.isApart
  obtain ⟨rest, again, hrest, hagain, hperm'⟩ := newcomers_plan_all h.sees.isApart
  generalize hf : (p.after rs).carried (s.nextPlan (p.after rs)) = f at *
  have hthreads : threads.filterMap f = threads := by
    conv_rhs => rw [← List.filterMap_some (l := threads)]
    apply List.filterMap_congr
    intro d hd
    rw [← hf]
    exact h.carried_thread hd
  have hall : (threads ++ rest).map p.outline = whole.map p.outline := by
    rw [Platform.changeset_after] at hrest
    have hlater : List.Forall₂ (s.IsThread p) ((s.again (p.after rs)).due p.changeset) rest :=
      hrest.imp fun _ _ => Platform.IsNew.after
    have happend : List.Forall₂ (s.IsThread p) (done ++ (s.again (p.after rs)).due p.changeset)
        (threads ++ rest) := List.rel_append h.isThread hlater
    rw [h.done_append_due_again hkeys] at happend
    exact outline_threads h.sound.numbered happend hwhole
  have hsums := outline_summary h.sound.numbered (h.endsWithSummary hagain) honce
  rw [hf] at hsums
  have hleft : ((p.newcomers rs).filterMap f ++
      (p.after rs).newcomers (s.nextPlan (p.after rs))).Perm
        ((threads ++ rest) ++ (sums.filterMap f ++ again)) := by
    have hold := h.newcomers.filterMap f
    rw [List.filterMap_append, hthreads] at hold
    refine (hold.append hperm').trans ?_
    rw [List.append_assoc, List.append_assoc]
    apply List.Perm.append_left
    rw [← List.append_assoc, ← List.append_assoc]
    exact List.perm_append_comm.append_right again
  refine (hleft.map p.outline).trans ?_
  rw [List.map_append, hall, hsums, ← List.map_append]
  exact (hperm.map p.outline).symm

/-- The next run leads the platform to where the whole run would have led it. -/
theorem alike (h : s.Halfway p rs done threads sums)
    (hkeys : (s.analysis.openIssues.map (·.key)).Nodup) :
    p.Alike ((p.after rs).after (s.nextPlan (p.after rs)))
      (p.after (s.plan p.changeset p.opened)) := by
  refine ⟨by simp, by simp, by simp, by simp, ?_⟩
  rw [Platform.discussions_after, Platform.discussions_after, Platform.discussions_after,
    List.filterMap_append, List.append_assoc, List.map_append, h.outline_olds]
  refine ((h.outline_newcomers hkeys).append_left _).trans ?_
  rw [List.map_append]

/-- After the whole plan, no thread is left whose issue is gone. -/
theorem isStale_again (h : s.Halfway p rs done threads sums)
    (hall : rs = s.plan p.changeset p.opened) (hk : k ∈ (s.again (p.after rs)).discussions) :
    (s.again (p.after rs)).isStale s.openKeys k = false := by
  by_contra hne
  have hstale : s.isStale s.openKeys k = true := Bool.not_eq_false _ ▸ hne
  have hlive := hstale
  rw [isStale, Bool.and_eq_true] at hlive
  have hkind := kind_of_isLiveIssue hlive.1
  rcases h.mem_again hk with ⟨c, hc, hcarried, -, hnext⟩ | ⟨i, hi, d, -, -, rfl⟩ |
    ⟨d, -, resolved, -, rfl⟩
  · cases hnext with
    | same =>
      have hcurrent := (Bool.not_eq_true _).mp fun hcur =>
        hkind (kind_of_isCurrent h.sound.hasOwnIds hc hcur)
      have ht := treatment_of_ne_summary h.sound.hasOwnIds hc hkind
      obtain ⟨n, hn, htreated⟩ := h.sound.treated hc
      rw [← hall, hcarried] at htreated
      obtain ⟨l, hl, -, hidle⟩ :=
        next_of_stale (h.sound.reads hc) hstale hcurrent ht hn htreated.symm
      rw [h.sound.classify_of_mem hc, Except.ok.injEq] at hl
      rw [← hl] at hidle
      exact Bool.noConfusion (hlive.1.symm.trans hidle.2)
    | current _ hsummary => exact hkind hsummary
    | idle _ hidle => exact Bool.noConfusion (hlive.1.symm.trans hidle.2)
    | flagged _ hsummary => exact hkind hsummary
  · have hopen : i.key ∈ s.openKeys :=
      List.mem_map_of_mem (List.mem_filter.mp (h.isDue.subset hi)).1
    have hcontains : s.openKeys.contains ((s.thread i d).issueKey?.getD "") = true :=
      List.contains_iff_mem.mpr hopen
    rw [hcontains] at hlive
    cases hlive.2
  · exact hkind rfl

end Halfway
end Snapshot
end MergeDecoration
