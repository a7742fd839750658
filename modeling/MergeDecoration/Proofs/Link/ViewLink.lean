import Mathlib
import MergeDecoration.Link.ViewLink

/-!
Links are found line by line, and a text without the opening of a link has none. So the links of
a text are those of its lines, one after another. Text around a line adds no link unless it opens
or completes one.
-/
namespace MergeDecoration.ViewLink

theorem targets_of_at?_eq_some {s target tail : List Char} (h : at? s = some (target, tail)) :
    targets s = target :: targets tail := by
  rw [targets]
  split
  · next heq =>
    obtain ⟨rfl, rfl⟩ : target = _ ∧ tail = _ := by simpa [h] using heq
    rfl
  · next heq => simp [h] at heq

theorem targets_cons_of_at?_eq_none {c : Char} {s : List Char} (h : at? (c :: s) = none) :
    targets (c :: s) = targets s := by
  rw [targets]
  split
  · next heq => simp [h] at heq
  · rfl

theorem at?_nil : at? [] = none := by decide

@[simp] theorem targets_nil : targets [] = [] := by
  rw [targets]
  split
  · next heq => simp [at?_nil] at heq
  · rfl

/-- A link at the start of a text: the opening, the target, and the closing parenthesis. -/
theorem at?_eq_some_iff {s target tail : List Char} :
    at? s = some (target, tail) ↔
      s = opening ++ (target ++ ')' :: tail) ∧ target ≠ [] ∧ ∀ c ∈ target, isTargetChar c = true := by
  have hend : isTargetChar ')' = false := by decide
  constructor
  · intro h
    have hopen : opening <+: s := by
      by_contra hno
      simp [at?, Text.after?, hno] at h
    obtain ⟨rest, rfl⟩ := hopen
    have hparts := List.takeWhile_append_dropWhile (p := isTargetChar) (l := rest)
    have hall : ∀ c ∈ rest.takeWhile isTargetChar, isTargetChar c = true :=
      fun c hc => (List.mem_takeWhile_imp hc)
    simp only [at?, Text.after?, List.isPrefixOf_iff_prefix, List.prefix_append, if_true,
      List.drop_left, Option.bind_eq_bind, Option.bind_some] at h
    split at h
    · next c t u htake hdrop =>
      obtain ⟨rfl, rfl⟩ : c :: t = target ∧ u = tail := by simpa using h
      rw [htake, hdrop] at hparts
      rw [htake] at hall
      exact ⟨by rw [hparts], List.cons_ne_nil c t, hall⟩
    · cases h
  · rintro ⟨rfl, hne, hall⟩
    have htake : (target ++ ')' :: tail).takeWhile isTargetChar = target := by
      rw [List.takeWhile_append_of_pos hall, List.takeWhile_cons_of_neg (by simp [hend]),
        List.append_nil]
    have hdrop : (target ++ ')' :: tail).dropWhile isTargetChar = ')' :: tail := by
      rw [List.dropWhile_append_of_pos hall, List.dropWhile_cons_of_neg (by simp [hend])]
    obtain ⟨c, rest, rfl⟩ := List.exists_cons_of_ne_nil hne
    simp only [at?, Text.after?, List.isPrefixOf_iff_prefix, List.prefix_append, if_true,
      List.drop_left, Option.bind_eq_bind, Option.bind_some, htake, hdrop]

/-- A text in front that has no bracket adds no link. -/
theorem targets_append_of_bracket_notMem {a : List Char} (ha : '[' ∉ a) (b : List Char) :
    targets (a ++ b) = targets b := by
  induction a with
  | nil => rfl
  | cons c a ih =>
    simp only [List.mem_cons, not_or] at ha
    obtain ⟨hc, ha⟩ := ha
    have hat : at? (c :: (a ++ b)) = none := by
      rw [Option.eq_none_iff_forall_ne_some]
      rintro ⟨target, tail⟩ h
      obtain ⟨hs, -⟩ := at?_eq_some_iff.mp h
      exact hc (List.cons.inj hs).1.symm
    rw [List.cons_append, targets_cons_of_at?_eq_none hat, ih ha]

theorem targets_eq_nil_of_parenthesis_notMem {s : List Char} (h : ')' ∉ s) : targets s = [] := by
  induction s with
  | nil => exact targets_nil
  | cons c s ih =>
    have hat : at? (c :: s) = none := by
      rw [Option.eq_none_iff_forall_ne_some]
      rintro ⟨target, tail⟩ hs
      obtain ⟨hs, -⟩ := at?_eq_some_iff.mp hs
      exact h (by simp [hs])
    rw [targets_cons_of_at?_eq_none hat]
    exact ih fun hmem => h (List.mem_cons_of_mem c hmem)

/-- A text behind that has no parenthesis completes no link. -/
theorem at?_append_of_parenthesis_notMem (a : List Char) {b : List Char} (hb : ')' ∉ b) :
    at? (a ++ b) = (at? a).map fun r => (r.1, r.2 ++ b) := by
  cases ha : at? a with
  | some r =>
    obtain ⟨hs, hne, hall⟩ := at?_eq_some_iff.mp ha
    rw [Option.map_some, at?_eq_some_iff]
    exact ⟨by simp [hs], hne, hall⟩
  | none =>
    rw [Option.map_none, Option.eq_none_iff_forall_ne_some]
    rintro ⟨target, tail⟩ h
    obtain ⟨hs, hne, hall⟩ := at?_eq_some_iff.mp h
    have hsplit : a ++ b = (opening ++ target) ++ ')' :: tail := by simp [hs]
    rcases List.append_eq_append_iff.mp hsplit with ⟨more, -, hmore⟩ | ⟨more, hmore, hrest⟩
    · exact hb (by simp [hmore])
    · cases more with
      | nil =>
        have hmem : ')' ∈ [] ++ b := hrest ▸ List.mem_cons_self
        exact hb hmem
      | cons c more =>
        obtain ⟨rfl, -⟩ := List.cons.inj hrest
        have hat : at? a = some (target, more) :=
          at?_eq_some_iff.mpr ⟨by simp [hmore], hne, hall⟩
        rw [ha] at hat
        cases hat

theorem targets_append_of_parenthesis_notMem (a : List Char) {b : List Char} (hb : ')' ∉ b) :
    targets (a ++ b) = targets a := by
  induction h : a.length using Nat.strong_induction_on generalizing a with
  | _ n ih =>
    subst h
    have hat := at?_append_of_parenthesis_notMem a hb
    cases ha : at? a with
    | some r =>
      rw [ha, Option.map_some] at hat
      rw [targets_of_at?_eq_some hat, targets_of_at?_eq_some ha, ih _ (at?_length_lt ha) r.2 rfl]
    | none =>
      rw [ha, Option.map_none] at hat
      cases a with
      | nil =>
        rw [List.nil_append, targets_nil]
        exact targets_eq_nil_of_parenthesis_notMem hb
      | cons c a =>
        rw [List.cons_append] at hat ⊢
        rw [targets_cons_of_at?_eq_none hat, targets_cons_of_at?_eq_none ha]
        exact ih a.length (by simp) a rfl

/-- Whether a text holds the opening of a link. -/
def Opens (s : List Char) : Prop := opening <:+: s

instance (s : List Char) : Decidable (Opens s) := inferInstanceAs (Decidable (_ <:+: _))

/-- A text that holds the opening nowhere has no links. -/
theorem targets_eq_nil {s : List Char} (h : ¬Opens s) : targets s = [] := by
  induction s with
  | nil => exact targets_nil
  | cons c s ih =>
    have hat : at? (c :: s) = none := by
      rw [at?, Text.after?, if_neg]
      · rfl
      · exact fun hp => h (List.isPrefixOf_iff_prefix.mp hp).isInfix
    rw [targets_cons_of_at?_eq_none hat]
    exact ih fun hs => h (hs.trans (List.suffix_cons c s).isInfix)

theorem opens_of_notMem_left {a b : List Char} (ha : '[' ∉ a) (h : Opens (a ++ b)) : Opens b := by
  rcases List.infix_append_iff_ne_nil.mp h with h | h | ⟨l₁, l₂, hne, -, heq, hsuf, -⟩
  · exact absurd (h.subset (by decide)) ha
  · exact h
  · cases l₁ with
    | nil => exact absurd rfl hne
    | cons c l₁ =>
      obtain ⟨hc, -⟩ := List.cons.inj heq
      exact absurd (hsuf.subset (hc ▸ List.mem_cons_self)) ha

theorem opens_of_notMem_right {a b : List Char} (hb : '(' ∉ b) (h : Opens (a ++ b)) : Opens a := by
  rcases List.infix_append_iff_ne_nil.mp h with h | h | ⟨l₁, l₂, -, hne, heq, -, hpre⟩
  · exact h
  · exact absurd (h.subset (by decide)) hb
  · have hlast : (l₁ ++ l₂).getLast? = some '(' := heq ▸ by decide
    rw [List.getLast?_append_of_ne_nil _ hne] at hlast
    exact absurd (hpre.subset (List.mem_of_getLast? hlast)) hb

/-- A character that the opening lacks stands before it or behind it. -/
theorem opens_of_separated {c : Char} {a b : List Char} (hc : c ∉ opening)
    (h : Opens (a ++ c :: b)) : Opens a ∨ Opens b := by
  rcases List.infix_append_iff_ne_nil.mp h with h | h | ⟨l₁, l₂, -, hne, heq, -, hpre⟩
  · exact .inl h
  · rcases List.infix_cons_iff.mp h with h | h
    · obtain ⟨t, ht⟩ := h
      exact absurd (List.mem_of_mem_head? (by rw [← (List.cons.inj ht).1]; rfl)) hc
    · exact .inr h
  · cases l₂ with
    | nil => exact absurd rfl hne
    | cons d l₂ =>
      obtain ⟨t, ht⟩ := hpre
      obtain ⟨rfl, -⟩ := List.cons.inj ht
      exact absurd (heq ▸ by simp) hc

theorem opening_prefix_append_newline {a b : List Char} :
    opening <+: a ++ '\n' :: b ↔ opening <+: a := by
  constructor
  · rintro ⟨t, ht⟩
    rcases List.append_eq_append_iff.mp ht with ⟨more, ha, -⟩ | ⟨cut, ho, hb⟩
    · exact ⟨more, ha.symm⟩
    · cases cut with
      | nil => exact ⟨[], by rw [ho, List.append_nil, List.append_nil]⟩
      | cons c cut =>
        obtain ⟨rfl, -⟩ : '\n' = c ∧ b = cut ++ t := by simpa using hb
        have hmem : '\n' ∈ opening := by simp [ho]
        exact absurd hmem (by decide)
  · exact fun h => h.trans (List.prefix_append a _)

/-- A link that starts in a line ends in it. -/
theorem at?_append_newline (a b : List Char) :
    at? (a ++ '\n' :: b) = (at? a).map fun r => (r.1, r.2 ++ '\n' :: b) := by
  by_cases hp : opening <+: a
  · obtain ⟨rest, rfl⟩ := hp
    have htake : (rest ++ '\n' :: b).takeWhile isTargetChar = rest.takeWhile isTargetChar := by
      rw [List.takeWhile_append]
      split
      · next h => rw [(List.takeWhile_prefix _).eq_of_length h]; simp [isTargetChar, Text.isBlank]
      · rfl
    have hdrop : (rest ++ '\n' :: b).dropWhile isTargetChar =
        rest.dropWhile isTargetChar ++ '\n' :: b := by
      rw [List.dropWhile_append]
      split
      · next h => rw [List.isEmpty_iff.mp h]; simp [isTargetChar, Text.isBlank]
      · rfl
    simp only [at?, Text.after?, List.append_assoc, List.isPrefixOf_iff_prefix,
      List.prefix_append, if_true, List.drop_left, Option.bind_eq_bind, Option.bind_some, htake,
      hdrop]
    cases rest.takeWhile isTargetChar with
    | nil => rfl
    | cons c target =>
      cases rest.dropWhile isTargetChar with
      | nil => rfl
      | cons d tail =>
        by_cases hd : d = ')' <;> simp [hd]
  · have hp' : ¬opening <+: a ++ '\n' :: b := fun h => hp (opening_prefix_append_newline.mp h)
    simp [at?, Text.after?, hp, hp']

theorem targets_append_newline (a b : List Char) :
    targets (a ++ '\n' :: b) = targets a ++ targets b := by
  induction h : a.length using Nat.strong_induction_on generalizing a with
  | _ n ih =>
    subst h
    have hat := at?_append_newline a b
    cases ha : at? a with
    | none =>
      rw [ha, Option.map_none] at hat
      cases a with
      | nil =>
        rw [List.nil_append] at hat ⊢
        rw [targets_cons_of_at?_eq_none hat, targets_nil, List.nil_append]
      | cons c a =>
        rw [List.cons_append] at hat ⊢
        rw [targets_cons_of_at?_eq_none hat, targets_cons_of_at?_eq_none ha]
        exact ih a.length (by simp) a rfl
    | some r =>
      rw [ha, Option.map_some] at hat
      rw [targets_of_at?_eq_some hat, targets_of_at?_eq_some ha,
        ih r.2.length (at?_length_lt ha) r.2 rfl, List.cons_append]

/-- The links of a text are those of its lines. -/
theorem targets_lines (lines : List (List Char)) :
    targets (['\n'].intercalate lines) = lines.flatMap targets := by
  induction lines with
  | nil => exact targets_nil
  | cons line lines ih =>
    cases lines with
    | nil => simp
    | cons next rest =>
      rw [List.intercalate_cons_cons, List.append_assoc, List.singleton_append,
        targets_append_newline, ih]
      exact List.flatMap_cons.symm

/-- A written link is found again, with nothing else. -/
theorem targets_write {target : String} (hne : target ≠ "")
    (h : ∀ c ∈ target.toList, isTargetChar c = true) :
    targets (write target).toList = [target.toList] := by
  have hwrite : (write target).toList = opening ++ (target.toList ++ [')']) := by
    simp [write, opening]
  have hat : at? (write target).toList = some (target.toList, []) :=
    at?_eq_some_iff.mpr ⟨hwrite, mt String.toList_eq_nil_iff.mp hne, h⟩
  rw [targets_of_at?_eq_some hat, targets_nil]

end MergeDecoration.ViewLink
