import Mathlib

/-!
Lists: what a filter, a count and a pass over the elements come to, and what two lists have in common
whose elements are related in pairs.
-/
namespace MergeDecoration

variable {α β : Type}

theorem countP_or_le (q r : α → Bool) (xs : List α) :
    xs.countP (fun x => q x || r x) ≤ xs.countP q + xs.countP r := by
  induction xs with
  | nil => exact Nat.le_refl 0
  | cons x xs ih =>
    simp only [List.countP_cons]
    cases q x <;> cases r x <;> simp only [Bool.or_false, Bool.or_true, Bool.or_self, if_true,
      Bool.false_eq_true, if_false] <;> omega

/-- A filter does not show what becomes of the elements that it drops, if it drops them still. -/
theorem filter_filterMap {q : α → Bool} {f : α → Option α} {xs : List α}
    (h : ∀ a ∈ xs, f a = some a ∨ q a = false ∧ ∀ b, f a = some b → q b = false) :
    (xs.filterMap f).filter q = xs.filter q := by
  induction xs with
  | nil => rfl
  | cons a xs ih =>
    have hrest := ih fun b hb => h b (List.mem_cons_of_mem a hb)
    rcases h a (List.mem_cons_self ..) with hsame | ⟨hgone, hnew⟩
    · rw [List.filterMap_cons_some hsame, List.filter_cons, List.filter_cons, hrest]
    · rw [List.filter_cons_of_neg (by rw [hgone]; exact Bool.false_ne_true), ← hrest]
      cases hb : f a with
      | none => rw [List.filterMap_cons_none hb]
      | some b =>
        rw [List.filterMap_cons_some hb,
          List.filter_cons_of_neg (by rw [hnew b hb]; exact Bool.false_ne_true)]

/-- One share for each element that is wanted. -/
theorem flatMap_ite (q : α → Bool) (f : α → β) (xs : List α) :
    (xs.flatMap fun x => if q x then [f x] else []) = (xs.filter q).map f := by
  induction xs with
  | nil => rfl
  | cons x xs ih =>
    rw [List.flatMap_cons, List.filter_cons, ih]
    split <;> rfl

theorem lookup_map (f : α → β) (table : List (String × α)) (name : String) :
    (table.map fun e => (e.1, f e.2)).lookup name = (table.lookup name).map f := by
  induction table with
  | nil => rfl
  | cons e table ih =>
    rw [List.map_cons, List.lookup_cons, List.lookup_cons, ih]
    split <;> rfl

/-! ### Members and ends -/

theorem mem_or_mem_of_mem_intercalate {c : α} {separator : List α} {ps : List (List α)}
    (h : c ∈ separator.intercalate ps) : c ∈ separator ∨ ∃ p ∈ ps, c ∈ p := by
  induction ps with
  | nil => simp at h
  | cons p ps ih =>
    cases ps with
    | nil => exact .inr ⟨p, by simp, by simpa using h⟩
    | cons q qs =>
      rw [List.intercalate_cons_cons, List.mem_append, List.mem_append] at h
      rcases h with (h | h) | h
      · exact .inr ⟨p, by simp, h⟩
      · exact .inl h
      · rcases ih h with h | ⟨r, hr, h⟩
        · exact .inl h
        · exact .inr ⟨r, List.mem_cons_of_mem p hr, h⟩

theorem notMem_append {c : Char} {s t : String} (hs : c ∉ s.toList) (ht : c ∉ t.toList) :
    c ∉ (s ++ t).toList := by
  rw [String.toList_append, List.mem_append, not_or]
  exact ⟨hs, ht⟩

theorem not_suffix_of_suffix {xs ys : List α} (h : xs <:+ ys) {c : α} (hne : xs ≠ [])
    (hc : ¬[c] <:+ xs) : ¬[c] <:+ ys := by
  intro hsuf
  rcases List.suffix_or_suffix_of_suffix hsuf h with hs | hs
  · exact hc hs
  · cases xs with
    | nil => exact hne rfl
    | cons d xs =>
      have hlen := hs.length_le
      have : d :: xs = [c] := hs.eq_of_length (by simp at hlen ⊢; omega)
      exact hc (this ▸ List.suffix_refl _)

/-- A prefix of two lists is one of the first, or the first and a prefix of the second. -/
theorem prefix_append_cases {xs ys zs : List α} (h : xs <+: ys ++ zs) :
    xs <+: ys ∨ ∃ us, us <+: zs ∧ ys ++ us = xs := by
  obtain ⟨rest, hrest⟩ := h
  rcases List.append_eq_append_iff.mp hrest with ⟨as, hys, -⟩ | ⟨bs, hxs, hzs⟩
  · exact Or.inl ⟨as, hys.symm⟩
  · exact Or.inr ⟨bs, ⟨rest, hzs.symm⟩, hxs.symm⟩

/-! ### Elements related in pairs -/

section

variable {R : α → β → Prop}

theorem countP_le_of_forall₂ {q : α → Bool} {r : β → Bool} {xs : List α} {ys : List β}
    (h : List.Forall₂ R xs ys) (hR : ∀ x y, R x y → r y = true → q x = true) :
    ys.countP r ≤ xs.countP q := by
  induction h with
  | nil => exact Nat.le_refl 0
  | @cons x y xs ys hxy _ ih =>
    rw [List.countP_cons, List.countP_cons]
    refine Nat.add_le_add ih ?_
    by_cases hy : r y = true
    · rw [if_pos hy, if_pos (hR x y hxy hy)]
    · rw [if_neg hy]
      exact Nat.zero_le _

/-- Of two lists related in pairs, each member of the second belongs to one of the first. -/
theorem exists_of_mem_of_forall₂ {xs : List α} {ys : List β} (h : List.Forall₂ R xs ys) {y : β}
    (hy : y ∈ ys) : ∃ x ∈ xs, R x y := by
  induction h with
  | nil => cases hy
  | cons hxy _ ih =>
    rcases List.mem_cons.mp hy with rfl | hy
    · exact ⟨_, List.mem_cons_self .., hxy⟩
    · obtain ⟨x, hx, hrest⟩ := ih hy
      exact ⟨x, List.mem_cons_of_mem _ hx, hrest⟩

theorem forall₂_filterMap {f : α → Option β} {xs : List α}
    (h : ∀ x ∈ xs, ∃ y, f x = some y ∧ R x y) : List.Forall₂ R xs (xs.filterMap f) := by
  induction xs with
  | nil => exact .nil
  | cons x xs ih =>
    obtain ⟨y, hy, hxy⟩ := h x (List.mem_cons_self ..)
    rw [List.filterMap_cons_some hy]
    exact .cons hxy (ih fun z hz => h z (List.mem_cons_of_mem x hz))

/-- If each element has its share of one if it is wanted and of none if it is not, the shares are in
line with the wanted elements. -/
theorem forall₂_filter_flatMap {q : α → Bool} {r : β → Bool} {f : α → List β} {xs : List α}
    (h : ∀ x ∈ xs, (q x = true ∧ ∃ y, (f x).filter r = [y] ∧ R x y) ∨
      q x = false ∧ (f x).filter r = []) :
    List.Forall₂ R (xs.filter q) ((xs.flatMap f).filter r) := by
  induction xs with
  | nil => exact .nil
  | cons x xs ih =>
    obtain ⟨hx, hrest⟩ := List.forall_mem_cons.mp h
    rw [List.flatMap_cons, List.filter_append]
    rcases hx with ⟨hq, y, hy, hR⟩ | ⟨hq, hnil⟩
    · rw [List.filter_cons_of_pos hq, hy]
      exact .cons hR (ih hrest)
    · rw [List.filter_cons_of_neg (by rw [hq]; exact Bool.false_ne_true), hnil]
      exact ih hrest

end

/-! ### Passes that can fail -/

theorem anyM_append {ε : Type} (q : α → Except ε Bool) (xs ys : List α) :
    (xs ++ ys).anyM q = xs.anyM q >>= fun b => if b then .ok true else ys.anyM q := by
  induction xs with
  | nil => rfl
  | cons x xs ih =>
    rw [List.cons_append, List.anyM_cons, List.anyM_cons, ih]
    cases q x with
    | error e => rfl
    | ok b => cases b <;> rfl

/-- Testing the images of a list is testing the list. -/
theorem filterM_map {m : Type → Type} [Monad m] [LawfulMonad m] {f : α → β} {q : α → m Bool}
    {q' : β → m Bool} {xs : List α} (h : ∀ x, q' (f x) = q x) :
    (xs.map f).filterM q' = (xs.filterM q >>= fun found => pure (found.map f)) := by
  have haux : ∀ found : List α, (xs.map f).filterAuxM q' (found.map f) =
      (xs.filterAuxM q found >>= fun all => pure (all.map f)) := by
    induction xs with
    | nil =>
      intro found
      rw [List.map_nil, List.filterAuxM, List.filterAuxM, pure_bind]
    | cons x xs ih =>
      intro found
      rw [List.map_cons, List.filterAuxM, List.filterAuxM, h, bind_assoc]
      congr 1
      funext keep
      cases keep with
      | true => exact ih (x :: found)
      | false => exact ih found
  rw [List.filterM, List.filterM, show ([] : List β) = [].map f from rfl, haux, bind_assoc,
    bind_assoc]
  congr 1
  funext all
  rw [pure_bind, pure_bind, List.map_reverse]

end MergeDecoration
