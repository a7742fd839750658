import MergeDecoration.Proofs.Decoration.Halfway

/-!
What the next run has left to write: discussions for the issues that were due and have no thread
yet, all of which it can write.
-/
namespace MergeDecoration
namespace Snapshot

variable {s : Snapshot} {p : Platform} {rs : List Request} {c : Classified}

namespace Halfway

variable {done : List Issue} {threads sums : List Discussion} {k : Classified}

/-- A thread with nothing to be done has been left alone. -/
theorem successor_of_treatment (h : s.Halfway p rs done threads sums) (hc : c ∈ s.discussions)
    (ht : s.treatment c = []) : s.successor p rs c = some c := by
  have hasked := h.asked.filter (·.concerns c.discussion.id)
  rw [h.sound.filter_plan hc, ht, List.prefix_nil] at hasked
  rw [successor, Platform.carried_of_filter_nil hasked]
  exact reread_of_classify (h.sound.classify_of_mem hc)

theorem isLiveIssue_thread (s : Snapshot) (i : Issue) (d : Discussion) :
    (s.thread i d).isLiveIssue s.analysis.projectKey = true := by
  simp [Classified.isLiveIssue, thread]

theorem mem_representedKeys {key : String} : key ∈ s.representedKeys ↔
    ∃ c ∈ s.discussions, c.isLiveIssue s.analysis.projectKey = true ∧ c.issueKey? = some key := by
  simp only [representedKeys, List.mem_filterMap, List.mem_filter, and_assoc]

/-- The thread of an open issue needs nothing. -/
theorem treatment_of_isLiveIssue (hids : s.HasOwnIds) (hc : c ∈ s.discussions) {key : String}
    (hlive : c.isLiveIssue s.analysis.projectKey = true) (hkey : c.issueKey? = some key)
    (hopen : key ∈ s.openKeys) : s.treatment c = [] := by
  have hstale : s.isStale s.openKeys c = false := by
    rw [isStale, hkey, Option.getD_some, List.contains_iff_mem.mpr hopen, Bool.not_true,
      Bool.and_false]
  rw [treatment_of_ne_summary hids hc (kind_of_isLiveIssue hlive)]
  exact staleRequests_of_isStale_eq_false hstale

/-- To the next run, the open issues with threads are those that had one and those that got one. -/
theorem mem_representedKeys_again (h : s.Halfway p rs done threads sums) {i : Issue}
    (hi : i ∈ s.analysis.openIssues) :
    i.key ∈ (s.again (p.after rs)).representedKeys ↔
      i.key ∈ s.representedKeys ∨ i.key ∈ done.map (·.key) := by
  rw [mem_representedKeys, mem_representedKeys]
  constructor
  · rintro ⟨k, hk, hlive, hkey⟩
    rcases h.mem_again hk with ⟨c, hc, -, -, hnext⟩ | ⟨j, hj, d, -, -, rfl⟩ |
      ⟨d, -, resolved, -, rfl⟩
    · cases hnext with
      | same => exact Or.inl ⟨k, hc, hlive, hkey⟩
      | current _ hkind => exact absurd hkind (kind_of_isLiveIssue hlive)
      | idle _ hidle => cases hidle.2.symm.trans hlive
      | flagged _ hkind => exact absurd hkind (kind_of_isLiveIssue hlive)
    · rw [← Option.some.inj hkey]
      exact Or.inr (List.mem_map_of_mem hj)
    · cases hlive
  · rintro (⟨c, hc, hlive, hkey⟩ | hmem)
    · have hopen : i.key ∈ s.openKeys := List.mem_map_of_mem hi
      have ht := treatment_of_isLiveIssue h.sound.hasOwnIds hc hlive hkey hopen
      have hsuccessor := h.successor_of_treatment hc ht
      exact ⟨c, h.sound.mem_again_of_successor hc hsuccessor, hlive, hkey⟩
    · obtain ⟨j, hj, hkey⟩ := List.mem_map.mp hmem
      obtain ⟨d, hd, -, hreread⟩ := h.exists_thread hj
      have hmem := h.sound.mem_again_of_newcomer
        (h.newcomers.mem_iff.mpr (List.mem_append_left _ hd)) hreread
      refine ⟨s.thread j d, hmem, isLiveIssue_thread s j d, ?_⟩
      rw [← hkey]
      rfl

/-- An issue is due in the next run if it was due and got no thread yet. -/
theorem isDue_again (h : s.Halfway p rs done threads sums) {i : Issue}
    (hi : i ∈ s.analysis.openIssues) (changeset : Value → Int → Option String) :
    (s.again (p.after rs)).isDue changeset (s.again (p.after rs)).representedKeys i =
      (s.isDue changeset s.representedKeys i && !(done.map (·.key)).contains i.key) := by
  have hkeys : (s.again (p.after rs)).representedKeys.contains i.key =
      (s.representedKeys.contains i.key || (done.map (·.key)).contains i.key) := by
    rw [Bool.eq_iff_iff, Bool.or_eq_true]
    simp only [List.contains_iff_mem]
    exact h.mem_representedKeys_again hi
  have hline : ∀ path line, (s.again (p.after rs)).isOwnLine changeset path line =
      s.isOwnLine changeset path line := fun _ _ => rfl
  unfold Snapshot.isDue
  cases i.anchor? with
  | none => rfl
  | some anchor =>
    dsimp only
    rw [hkeys, hline, Bool.not_or, Bool.and_right_comm]

theorem due_again (h : s.Halfway p rs done threads sums) :
    (s.again (p.after rs)).due p.changeset =
      (s.due p.changeset).filter fun i => !(done.map (·.key)).contains i.key := by
  rw [due, due, List.filter_filter]
  apply List.filter_congr
  intro i hi
  rw [h.isDue_again hi, Bool.and_comm]

/-- With distinct keys, the next run opens what is still to be opened. -/
theorem done_append_due_again (h : s.Halfway p rs done threads sums)
    (hkeys : (s.analysis.openIssues.map (·.key)).Nodup) :
    done ++ (s.again (p.after rs)).due p.changeset = s.due p.changeset := by
  obtain ⟨rest, hrest⟩ := h.isDue
  have hnodup : ((done ++ rest).map (·.key)).Nodup := by
    rw [hrest]
    exact hkeys.sublist (List.filter_sublist.map _)
  rw [List.map_append, List.nodup_append] at hnodup
  have hdone : done.filter (fun i => !(done.map (·.key)).contains i.key) = [] := by
    rw [List.filter_eq_nil_iff]
    intro i hi
    rw [List.contains_iff_mem.mpr (List.mem_map_of_mem hi)]
    exact Bool.false_ne_true
  have hothers : rest.filter (fun i => !(done.map (·.key)).contains i.key) = rest := by
    rw [List.filter_eq_self]
    intro i hi
    rw [Bool.not_eq_true', ← Bool.not_eq_true, List.contains_iff_mem]
    exact fun hmem => hnodup.2.2 _ hmem _ (List.mem_map_of_mem hi) rfl
  rw [h.due_again, ← hrest, List.filter_append, hdone, hothers, List.nil_append]

/-- When all due issues have their threads, the next run opens none. -/
theorem due_again_of_all (h : s.Halfway p rs done threads sums) (hall : done = s.due p.changeset) :
    (s.again (p.after rs)).due p.changeset = [] := by
  rw [h.due_again, ← hall, List.filter_eq_nil_iff]
  intro i hi
  rw [List.contains_iff_mem.mpr (List.mem_map_of_mem hi)]
  exact Bool.false_ne_true

theorem isFlagged_of_mem_again (h : s.Halfway p rs done threads sums)
    (hk : k ∈ (s.again (p.after rs)).discussions) (hkind : k.kind = .summary) :
    ∃ b, s.isFlagged k = .ok b := by
  rcases h.mem_again hk with ⟨c, hc, -, -, hnext⟩ | ⟨j, hj, d, -, -, rfl⟩ |
    ⟨d, -, resolved, ⟨n, m, -, -, rfl⟩, rfl⟩
  · cases hnext with
    | same => exact h.sound.ready.flags k (mem_summaries.mpr ⟨hc, beq_iff_eq.mpr hkind⟩)
    | current _ _ hflag => exact ⟨false, hflag⟩
    | idle _ hidle => exact absurd hkind hidle.1
    | flagged _ _ hflag => exact ⟨true, hflag⟩
  · cases hkind
  · exact ⟨false, rfl⟩

/-- The next run can write everything. -/
theorem ready (h : s.Halfway p rs done threads sums) :
    (s.again (p.after rs)).Ready (p.after rs).changeset := by
  rw [Platform.changeset_after]
  refine ⟨h.sound.ready.url, ?_, h.sound.ready.summary, ?_, h.sound.ready.dashboard⟩
  · intro i hi hdue
    rw [h.isDue_again hi, Bool.and_eq_true] at hdue
    exact h.sound.ready.notes i hi hdue.1
  · intro k hk
    obtain ⟨hmem, hkind⟩ := mem_summaries.mp hk
    exact h.isFlagged_of_mem_again hmem (beq_iff_eq.mp hkind)

end Halfway
end Snapshot
end MergeDecoration
