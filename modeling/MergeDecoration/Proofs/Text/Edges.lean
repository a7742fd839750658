import Mathlib
import MergeDecoration.Text.Blank

/-!
The edges of a text. Trimming undoes what was put around it, and a run of characters of one kind
ends where another character follows.
-/
namespace MergeDecoration.Text

/-- A text whose first and last characters are not among those that are trimmed. -/
structure HasEdges (p : Char → Bool) (s : List Char) : Prop where
  head : ∃ c t, s = c :: t ∧ p c = false
  last : ∃ t c, s = t ++ [c] ∧ p c = false

variable {p : Char → Bool} {before s t after : List Char}

theorem HasEdges.append (hs : HasEdges p s) (ht : HasEdges p t) (between : List Char) :
    HasEdges p (s ++ (between ++ t)) := by
  constructor
  · obtain ⟨c, s, rfl, hc⟩ := hs.head
    exact ⟨c, s ++ (between ++ t), List.cons_append, hc⟩
  · obtain ⟨t, c, rfl, hc⟩ := ht.last
    refine ⟨s ++ (between ++ t), c, ?_, hc⟩
    simp only [List.append_assoc]

theorem hasEdges_of_forall (hne : s ≠ []) (h : ∀ c ∈ s, p c = false) : HasEdges p s := by
  constructor
  · obtain ⟨c, t, rfl⟩ := List.exists_cons_of_ne_nil hne
    exact ⟨c, t, rfl, h c List.mem_cons_self⟩
  · exact ⟨s.dropLast, s.getLast hne, (List.dropLast_append_getLast hne).symm,
      h _ (List.getLast_mem hne)⟩

theorem dropTailWhile_of_last (h : ∃ t c, s = t ++ [c] ∧ p c = false) : dropTailWhile p s = s := by
  obtain ⟨t, c, rfl, hc⟩ := h
  rw [dropTailWhile, List.reverse_concat,
    List.dropWhile_cons_of_neg (by rw [hc]; exact Bool.false_ne_true), ← List.reverse_concat,
    List.reverse_reverse]

/-- Trimming undoes what was put around a text with edges. -/
theorem trimWhile_append (hs : HasEdges p s) (hbefore : ∀ c ∈ before, p c = true)
    (hafter : ∀ c ∈ after, p c = true) : trimWhile p (before ++ (s ++ after)) = s := by
  have hhead : (s ++ after).dropWhile p = s ++ after := by
    obtain ⟨c, t, rfl, hc⟩ := hs.head
    rw [List.cons_append, List.dropWhile_cons_of_neg (by rw [hc]; exact Bool.false_ne_true)]
  have htail : ∀ c ∈ after.reverse, p c = true := fun c hc => hafter c (List.mem_reverse.mp hc)
  calc trimWhile p (before ++ (s ++ after)) = dropTailWhile p (s ++ after) := by
        rw [trimWhile, List.dropWhile_append_of_pos hbefore, hhead]
    _ = dropTailWhile p s := by
        rw [dropTailWhile, List.reverse_append, List.dropWhile_append_of_pos htail, dropTailWhile]
    _ = s := dropTailWhile_of_last hs.last

/-- A text that does not go on with a character of the kind. -/
def Stops (p : Char → Bool) (t : List Char) : Prop := ∀ c ∈ t.head?, p c = false

theorem stops_of_forall (h : ∀ c ∈ t, p c = false) : Stops p t :=
  fun c hc => h c (List.mem_of_mem_head? hc)

theorem takeWhile_append_of_stops (hs : ∀ c ∈ s, p c = true) (ht : Stops p t) :
    (s ++ t).takeWhile p = s := by
  have hnil : t.takeWhile p = [] := by
    cases t with
    | nil => rfl
    | cons c t => exact List.takeWhile_cons_of_neg (Bool.eq_false_iff.mp (ht c rfl))
  rw [List.takeWhile_append_of_pos hs, hnil, List.append_nil]

theorem dropWhile_append_of_stops (hs : ∀ c ∈ s, p c = true) (ht : Stops p t) :
    (s ++ t).dropWhile p = t := by
  rw [List.dropWhile_append_of_pos hs]
  cases t with
  | nil => rfl
  | cons c t => exact List.dropWhile_cons_of_neg (Bool.eq_false_iff.mp (ht c rfl))

end MergeDecoration.Text
