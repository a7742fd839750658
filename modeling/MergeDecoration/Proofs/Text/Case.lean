import Mathlib
import MergeDecoration.Text.Case

/-!
What changes of case cannot produce: no upper case holds a small `i`, no lower case a capital `V`,
and no word in title case starts with a small `i`.
-/
namespace MergeDecoration.Text

/-- No run of the table leads to the code point. -/
def avoids (runs : List CaseRun) (k : ℕ) : Bool :=
  runs.all fun r => decide ((k : ℤ) < r.first + r.shift ∨ r.last + r.shift < (k : ℤ))

theorem shifted?_ne {runs : List CaseRun} {k n m : ℕ} (hk : 0 < k) (ha : avoids runs k = true)
    (h : shifted? runs n = some m) : m ≠ k := by
  obtain ⟨r, hr, rfl⟩ := Option.map_eq_some_iff.mp h
  have hin := List.find?_some hr
  have hav := List.all_eq_true.mp ha r (List.mem_of_find?_eq_some hr)
  simp only [Bool.and_eq_true, decide_eq_true_eq] at hin hav
  have hle : r.first ≤ n ∧ n ≤ r.last := hin.1
  intro heq
  rw [Int.ofNat_eq_natCast] at heq
  omega

theorem ofNat_ne {c : Char} {n : ℕ} (hc : c ≠ '\x00') (h : n ≠ c.toNat) : Char.ofNat n ≠ c := by
  rw [Char.ofNat]
  split
  · rintro rfl
    exact h rfl
  · exact hc.symm

/-- No entry of the table holds the code point. -/
def spares (table : List (ℕ × List ℕ)) (k : ℕ) : Bool := table.all fun e => !e.2.contains k

theorem notMem_of_expanded? {table : List (ℕ × List ℕ)} {c : Char} {n : ℕ} {cs : List Char}
    (hc : c ≠ '\x00') (hs : spares table c.toNat = true) (h : expanded? table n = some cs) :
    c ∉ cs := by
  obtain ⟨e, he, rfl⟩ := Option.map_eq_some_iff.mp h
  have hall := List.all_eq_true.mp hs e (List.mem_of_find?_eq_some he)
  simp only [List.contains_eq_mem, Bool.not_eq_true', decide_eq_false_iff_not] at hall
  intro hm
  obtain ⟨m, hm, hmc⟩ := List.mem_map.mp hm
  exact ofNat_ne hc (fun heq => hall (heq ▸ hm)) hmc

/-- What holds of every ASCII character holds of every character below the 128th. -/
theorem forall_ascii {p : Char → Bool} (h : (List.range 128).all (fun n => p (Char.ofNat n)) = true)
    {c : Char} (hc : c.toNat < 0x80) : p c = true := by
  have hn := List.all_eq_true.mp h c.toNat (List.mem_range.mpr hc)
  rwa [Char.ofNat_toNat] at hn

/-- A character above ASCII that is mapped by runs and expansions sparing an ASCII character does
not become that character. -/
theorem notMem_mapped {table : List (ℕ × List ℕ)} {runs : List CaseRun} {c k : Char}
    (hk : 0 < k.toNat ∧ k.toNat < 0x80) (hs : spares table k.toNat = true)
    (ha : avoids runs k.toNat = true) (hc : ¬c.toNat < 0x80) :
    k ∉ (expanded? table c.toNat).getD [((shifted? runs c.toNat).map Char.ofNat).getD c] := by
  have hk0 : k ≠ '\x00' := by
    rintro rfl
    exact absurd hk.1 (by decide)
  cases he : expanded? table c.toNat with
  | some cs => exact notMem_of_expanded? hk0 hs he
  | none =>
    rw [Option.getD_none, List.mem_singleton]
    cases hr : shifted? runs c.toNat with
    | none =>
      rintro rfl
      exact hc hk.2
    | some n => exact (ofNat_ne hk0 (shifted?_ne hk.1 ha hr)).symm

theorem small_i_notMem_upperChar (c : Char) : 'i' ∉ upperChar c := by
  unfold upperChar
  split
  · next hc =>
    exact of_decide_eq_true (forall_ascii (p := fun c => 'i' ∉ [c.toUpper]) (by decide) hc)
  · next hc => exact notMem_mapped (by decide) (by decide) (by decide) hc

theorem small_i_notMem_upper (s : String) : 'i' ∉ (upper s).toList := by
  simp [upper, small_i_notMem_upperChar]

theorem blank_notMem_upperChar {c : Char} (h : c ≠ ' ') : ' ' ∉ upperChar c := by
  unfold upperChar
  split
  · next hc =>
    exact of_decide_eq_true
      (forall_ascii (p := fun c => c ≠ ' ' → ' ' ∉ [c.toUpper]) (by decide) hc) h
  · next hc => exact notMem_mapped (by decide) (by decide) (by decide) hc

theorem capital_v_notMem_lowerChar (c : Char) : 'V' ∉ lowerChar c := by
  unfold lowerChar
  split
  · next hc =>
    exact of_decide_eq_true (forall_ascii (p := fun c => 'V' ∉ [c.toLower]) (by decide) hc)
  · next hc =>
    split
    · decide
    · exact notMem_mapped (by decide) (List.all_nil : spares [] _ = true) (by decide) hc

theorem blank_notMem_lowerChar {c : Char} (h : c ≠ ' ') : ' ' ∉ lowerChar c := by
  unfold lowerChar
  split
  · next hc =>
    exact of_decide_eq_true
      (forall_ascii (p := fun c => c ≠ ' ' → ' ' ∉ [c.toLower]) (by decide) hc) h
  · next hc =>
    split
    · decide
    · exact notMem_mapped (by decide) (List.all_nil : spares [] _ = true) (by decide) hc

theorem capital_v_notMem_lowerIn (before : List Char) (c : Char) (after : List Char) :
    'V' ∉ lowerIn before c after := by
  unfold lowerIn
  split
  · split <;> decide
  · exact capital_v_notMem_lowerChar c

theorem blank_notMem_lowerIn {c : Char} (h : c ≠ ' ') (before after : List Char) :
    ' ' ∉ lowerIn before c after := by
  unfold lowerIn
  split
  · split <;> decide
  · exact blank_notMem_lowerChar h

theorem capital_v_notMem_lower (s : String) : 'V' ∉ (lower s).toList := by
  have hfrom (before cs : List Char) : 'V' ∉ lowerFrom before cs := by
    induction cs generalizing before with
    | nil => simp [lowerFrom]
    | cons c cs ih =>
      rw [lowerFrom, List.mem_append, not_or]
      exact ⟨capital_v_notMem_lowerIn _ _ _, ih _⟩
  simpa [lower] using hfrom [] s.toList

theorem blank_notMem_titleChar {c : Char} (h : c ≠ ' ') : ' ' ∉ titleChar c := by
  unfold titleChar
  split
  · next hc =>
    exact of_decide_eq_true
      (forall_ascii (p := fun c => c ≠ ' ' → ' ' ∉ [c.toUpper]) (by decide) hc) h
  · next hc =>
    split
    · next he => exact notMem_of_expanded? (by decide) (by decide) he
    · next hr =>
      rw [List.mem_singleton]
      exact (ofNat_ne (by decide) (shifted?_ne (by decide) (by decide) hr)).symm
    · exact blank_notMem_upperChar h

/-- Every entry of the table has a first code point, and it is another one. -/
def startsOtherwise (table : List (ℕ × List ℕ)) (k : ℕ) : Bool :=
  table.all fun e => e.2.head?.any (· != k)

theorem exists_cons_of_expanded? {table : List (ℕ × List ℕ)} {c : Char} {n : ℕ} {cs : List Char}
    (hc : c ≠ '\x00') (hs : startsOtherwise table c.toNat = true)
    (h : expanded? table n = some cs) : ∃ d rest, cs = d :: rest ∧ d ≠ c := by
  obtain ⟨e, he, rfl⟩ := Option.map_eq_some_iff.mp h
  have hall := List.all_eq_true.mp hs e (List.mem_of_find?_eq_some he)
  cases hcs : e.2 with
  | nil => simp [hcs] at hall
  | cons m ms =>
    rw [hcs, List.head?_cons, Option.any_some, bne_iff_ne] at hall
    exact ⟨Char.ofNat m, ms.map Char.ofNat, rfl, ofNat_ne hc hall⟩

theorem exists_cons_upperChar (c : Char) : ∃ d rest, upperChar c = d :: rest ∧ d ≠ 'i' := by
  have hi := small_i_notMem_upperChar c
  suffices h : upperChar c ≠ [] by
    obtain ⟨d, rest, hcons⟩ := List.exists_cons_of_ne_nil h
    exact ⟨d, rest, hcons, fun hd => hi (by simp [hcons, hd])⟩
  unfold upperChar
  split
  · simp
  · cases he : expanded? upperExpansions c.toNat with
    | none => simp
    | some cs =>
      obtain ⟨d, rest, rfl, -⟩ :=
        exists_cons_of_expanded? (c := 'i') (by decide) (by decide) he
      simp

/-- A word in title case starts with some character, and not with a small `i`. -/
theorem exists_cons_titleChar (c : Char) : ∃ d rest, titleChar c = d :: rest ∧ d ≠ 'i' := by
  unfold titleChar
  split
  · next hc =>
    exact ⟨c.toUpper, [], rfl,
      of_decide_eq_true (forall_ascii (p := fun c => c.toUpper ≠ 'i') (by decide) hc)⟩
  · split
    · next he => exact exists_cons_of_expanded? (by decide) (by decide) he
    · next n _ hr =>
      exact ⟨Char.ofNat n, [], rfl,
        ofNat_ne (by decide) (shifted?_ne (by decide) (by decide) hr)⟩
    · exact exists_cons_upperChar c

/-- In title case no small `i` follows a space: the space is one of the text itself, and the
character after it starts a word. -/
theorem not_infix_titleFrom (before cs : List Char) :
    ¬[' ', 'i'] <:+: titleFrom before cs ∧
      (before.head? = some ' ' → (titleFrom before cs).head? ≠ some 'i') := by
  induction cs generalizing before with
  | nil => simp [titleFrom]
  | cons c cs ih =>
    obtain ⟨ihlink, ihhead⟩ := ih (c :: before)
    rw [titleFrom]
    constructor
    · generalize hmapped : (if (before.head?.map isCased).getD false then lowerIn before c cs
        else titleChar c) = mapped
      intro h
      have hblank : ' ' ∈ mapped → c = ' ' := by
        intro hm
        by_contra hc
        rw [← hmapped] at hm
        split at hm
        · exact blank_notMem_lowerIn hc _ _ hm
        · exact blank_notMem_titleChar hc hm
      have hone : c = ' ' → mapped = [' '] := by
        rintro rfl
        rw [← hmapped]
        split <;> rfl
      rcases List.infix_append_iff_ne_nil.mp h with h | h | ⟨l₁, l₂, h₁, h₂, heq, hsuf, hpre⟩
      · have hle := h.length_le
        rw [hone (hblank (h.subset (by simp)))] at hle
        exact absurd hle (by decide)
      · exact ihlink h
      · obtain ⟨rfl, rfl⟩ : l₁ = [' '] ∧ l₂ = ['i'] := by
          match l₁, l₂, h₁, h₂ with
          | [a], [b], _, _ => simpa [eq_comm] using heq
          | [a], b :: d :: l, _, _ => simp at heq
          | a :: d :: l, b :: l', _, _ => simp at heq
        have hc := hblank (hsuf.subset (by simp))
        exact ihhead (by rw [hc, List.head?_cons])
          (List.singleton_prefix_iff_head?_eq_some.mp hpre)
    · intro hb
      obtain ⟨d, rest, htitle, hd⟩ := exists_cons_titleChar c
      have hcased : isCased ' ' = false := by decide
      simp [hb, hcased, htitle, hd]

theorem not_infix_title (s : String) : ¬[' ', 'i'] <:+: (title s).toList := by
  simpa [title] using (not_infix_titleFrom [] s.toList).1

end MergeDecoration.Text
