import MergeDecoration.Proofs.Decoration.Treatment

/-!
The platform in the middle of a run and at its end. Each old discussion is at some stage of its
treatment, and the first few of the new ones are there.
-/
namespace MergeDecoration

open Platform (noteId discussionId)

/-- What writes, one after another, make of a discussion if new notes are called `note`. -/
def Discussion.changes (user note : Value) : List Request → Discussion → Option Discussion
  | [], d => some d
  | r :: rs, d => (d.change user note r).bind (changes user note rs)

theorem Discussion.changes_singleton (user note : Value) (r : Request) (d : Discussion) :
    d.changes user note [r] = d.change user note r := by
  rw [changes]
  cases d.change user note r <;> rfl

namespace Snapshot

variable {s : Snapshot} {c : Classified} {p : Platform} {rs : List Request}

/-- What a discussion is in the end; `note` is the id of a note that it may get. -/
def treated (s : Snapshot) (note : Value) (c : Classified) : Option Discussion :=
  c.discussion.changes s.username note (s.treatment c)

/-- What a discussion can be in the course of a run. -/
inductive Stage (s : Snapshot) (written : Nat) (c : Classified) : Option Discussion → Prop
  | untouched : Stage s written c (some c.discussion)
  /-- The summary is edited and not yet resolved. -/
  | edited (h : s.isCurrent c = true) :
    Stage s written c (some (c.discussion.editNote (firstNoteId c) s.summaryBody))
  | treated {k : Nat} (h : written ≤ k) : Stage s written c (s.treated (noteId k) c)

/-- A discussion that is gone is treated in full. -/
theorem Stage.exists_treated_eq_none {written : Nat} {e : Option Discussion}
    (h : s.Stage written c e) (he : e = none) :
    ∃ k, written ≤ k ∧ s.treated (noteId k) c = none := by
  cases h with
  | untouched => cases he
  | edited => cases he
  | @treated k hk => exact ⟨k, hk, he⟩

/-- Only the current summary takes more than one request. -/
theorem treatment_cases (s : Snapshot) (c : Classified) :
    s.isCurrent c = true ∧ s.treatment c = s.editing c :: s.closing c.discussion.id ∨
      s.treatment c = [] ∨ ∃ r, s.treatment c = [r] := by
  unfold treatment
  split
  · next h => exact Or.inl ⟨h, rfl⟩
  · right
    unfold retirement staleRequests
    split_ifs
    all_goals first | exact Or.inl rfl | exact Or.inr ⟨_, rfl⟩

theorem changes_closing (user note : Value) (d : Discussion) (id : Value) :
    d.changes user note (s.closing id) = some (if s.analysis.passed then d.resolve else d) := by
  unfold closing
  split_ifs
  · rfl
  · rfl

theorem treated_of_isCurrent (note : Value) (h : s.isCurrent c = true) :
    s.treated note c =
      let edited := c.discussion.editNote (firstNoteId c) s.summaryBody
      some (if s.analysis.passed then edited.resolve else edited) := by
  have hedit : ∀ rs, c.discussion.changes s.username note (s.editing c :: rs) =
      (c.discussion.editNote (firstNoteId c) s.summaryBody).changes s.username note rs :=
    fun _ => rfl
  rw [treated, treatment, if_pos h, hedit, changes_closing]

/-- When all that concerns a discussion is asked, the discussion is treated. -/
theorem carried_eq_treated (hu : s.username = p.username)
    (h : rs.filter (·.concerns c.discussion.id) = s.treatment c) :
    ∃ k, p.written ≤ k ∧ p.carried rs c.discussion = s.treated (noteId k) c := by
  rcases s.treatment_cases c with ⟨hcurrent, ht⟩ | ht | ⟨r, ht⟩
  · rw [ht] at h
    obtain ⟨q, k, ts, -, hk, -, hts, hcarried⟩ := Platform.carried_of_filter_cons h
    refine ⟨k, hk, hcarried.trans ?_⟩
    rw [treated_of_isCurrent _ hcurrent]
    exact carried_closing hts
  · rw [ht] at h
    refine ⟨p.written, Nat.le_refl _, ?_⟩
    rw [treated, ht]
    exact Platform.carried_of_filter_nil h
  · rw [ht] at h
    obtain ⟨k, hk, hcarried⟩ := Platform.carried_of_filter_singleton h
    refine ⟨k, hk, ?_⟩
    rw [treated, ht, hcarried, hu, Discussion.changes_singleton]

/-- When a part of what concerns a discussion is asked, the discussion is at a stage. -/
theorem stage_of_prefix (hu : s.username = p.username)
    (h : rs.filter (·.concerns c.discussion.id) <+: s.treatment c) :
    s.Stage p.written c (p.carried rs c.discussion) := by
  obtain ⟨rest, hrest⟩ := h
  by_cases hall : rest = []
  · rw [hall, List.append_nil] at hrest
    obtain ⟨k, hk, hcarried⟩ := carried_eq_treated hu hrest
    rw [hcarried]
    exact .treated hk
  by_cases hnone : rs.filter (·.concerns c.discussion.id) = []
  · rw [Platform.carried_of_filter_nil hnone]
    exact .untouched
  obtain ⟨r, asked, hasked⟩ := List.exists_cons_of_ne_nil hnone
  obtain ⟨u, others, hothers⟩ := List.exists_cons_of_ne_nil hall
  -- Two requests or more concern the current summary alone, and then the first is the edit.
  rw [hasked, hothers, List.cons_append] at hrest
  rcases s.treatment_cases c with ⟨hcurrent, ht⟩ | ht | ⟨v, ht⟩
  · rw [ht] at hrest
    obtain ⟨rfl, hclosing⟩ := List.cons.inj hrest
    have hlength : (asked ++ u :: others).length ≤ 1 := by
      rw [hclosing]
      rcases s.closing_cases c.discussion.id with hc | hc
      · rw [hc]
        exact Nat.zero_le 1
      · rw [hc]
        exact Nat.le_refl 1
    have hnil : asked = [] := by
      rw [List.length_append, List.length_cons] at hlength
      exact List.eq_nil_of_length_eq_zero (by omega)
    rw [hnil] at hasked
    obtain ⟨k, -, hcarried⟩ := Platform.carried_of_filter_singleton hasked
    rw [hcarried]
    exact .edited hcurrent
  · rw [ht] at hrest
    cases hrest
  · rw [ht] at hrest
    have hlength := congrArg List.length hrest
    simp at hlength

end Snapshot
end MergeDecoration
