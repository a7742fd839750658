import Mathlib
import MergeDecoration.Number.Numeral
import MergeDecoration.Proofs.Text.Edges

/-!
The grammar of integer numerals. A text is read as an integer just if it is one of these.
-/
namespace MergeDecoration.Numeral

open Text

/-- Decimal digits of any script, with single underscores between digits. -/
inductive IsDigits : List Char → Prop
  | one {c : Char} (hc : (digitValue? c).isSome = true) : IsDigits [c]
  | cons {c : Char} {cs : List Char} (hc : (digitValue? c).isSome = true) (hcs : IsDigits cs) :
    IsDigits (c :: cs)
  | underscore {c : Char} {cs : List Char} (hc : (digitValue? c).isSome = true)
    (hcs : IsDigits cs) : IsDigits (c :: '_' :: cs)

/-- Digits after at most one sign, with white space around the whole. -/
def IsNumeral (s : List Char) : Prop :=
  ∃ before sign digits after, s = before ++ (sign ++ (digits ++ after)) ∧
    (∀ c ∈ before, isBlank c = true) ∧ (sign = [] ∨ sign = ['+'] ∨ sign = ['-']) ∧
    IsDigits digits ∧ ∀ c ∈ after, isBlank c = true

/-- The white space that may stand around a numeral; the separators U+001C to U+001F may not. -/
def isPadding (c : Char) : Bool := isBlank c && !(28 ≤ c.toNat && c.toNat ≤ 31)

def IsSign (s : List Char) : Prop := s = [] ∨ s = ['+'] ∨ s = ['-']

/-- A text of a grammar after at most one sign, with white space around the whole. -/
def Padded (grammar : List Char → Prop) (s : List Char) : Prop :=
  ∃ before sign body after, s = before ++ (sign ++ (body ++ after)) ∧
    (∀ c ∈ before, isPadding c = true) ∧ IsSign sign ∧ grammar body ∧
    ∀ c ∈ after, isPadding c = true

/-- The numeral of an integer. It has no more digits than there may be. -/
def IsInteger (s : List Char) : Prop :=
  Padded (fun ds => IsDigits ds ∧ (ds.filter (· != '_')).length ≤ digitLimit) s

theorem isNumeral_append {s before after : List Char} (h : IsNumeral s)
    (hbefore : ∀ c ∈ before, isBlank c = true) (hafter : ∀ c ∈ after, isBlank c = true) :
    IsNumeral (before ++ (s ++ after)) := by
  obtain ⟨before', sign, digits, after', rfl, hbefore', hsign, hdigits, hafter'⟩ := h
  refine ⟨before ++ before', sign, digits, after' ++ after, ?_, ?_, hsign, hdigits, ?_⟩
  · simp only [List.append_assoc]
  · exact List.forall_mem_append.mpr ⟨hbefore, hbefore'⟩
  · exact List.forall_mem_append.mpr ⟨hafter', hafter⟩

/-- What is cut off around a text is white space. -/
theorem isNumeral_of_trimWhile {s : List Char} (h : IsNumeral (trimWhile isBlank s)) :
    IsNumeral s := by
  obtain ⟨before, after, hs, hbefore, hafter⟩ := exists_append_trimWhile isBlank s
  rw [hs]
  exact isNumeral_append h hbefore hafter

section

variable {c : Char}

theorem digitValue?_isSome_of_isDigit (h : c.isDigit = true) : (digitValue? c).isSome = true := by
  rw [digitValue?, Option.isSome_map, List.find?_isSome]
  refine ⟨48, by decide, ?_⟩
  have hc : 48 ≤ c.toNat ∧ c.toNat ≤ 57 := by
    simpa [Char.isDigit, UInt32.le_iff_toNat_le] using h
  simp only [Bool.and_eq_true, decide_eq_true_eq]
  omega

theorem isBlank_of_isAsciiBlank (h : isAsciiBlank c = true) : isBlank c = true := by
  simp only [isAsciiBlank, Bool.or_eq_true, beq_iff_eq, Bool.and_eq_true, decide_eq_true_eq] at h
  rcases h with rfl | h
  · decide
  · simp only [isBlank, Bool.or_eq_true, Bool.and_eq_true, decide_eq_true_eq, beq_iff_eq]
    omega

theorem not_isDigit_of_isAsciiBlank (h : isAsciiBlank c = true) : c.isDigit = false := by
  simp only [isAsciiBlank, Bool.or_eq_true, beq_iff_eq, Bool.and_eq_true, decide_eq_true_eq] at h
  rcases h with rfl | h
  · rfl
  · have hlow : ¬48 ≤ c.toNat := by omega
    simpa [Char.isDigit, UInt32.le_iff_toNat_le] using fun h48 => absurd h48 hlow

/-- A character is read as itself, as a space if it is white space, or as a digit if it is one. -/
theorem plain_cases (c : Char) :
    plain c = c ∨ (plain c = ' ' ∧ isBlank c = true) ∨
      ((plain c).isDigit = true ∧ (digitValue? c).isSome = true) := by
  unfold plain
  split
  · exact Or.inl rfl
  · split
    · next h => exact Or.inr (Or.inl ⟨rfl, h⟩)
    · split
      · next d hd =>
        have hlt := digitValue?_lt hd
        refine Or.inr (Or.inr ⟨?_, by rw [hd]; rfl⟩)
        interval_cases d <;> decide
      · exact Or.inl rfl

theorem isBlank_of_plain (h : isAsciiBlank (plain c) = true) : isBlank c = true := by
  rcases plain_cases c with heq | ⟨-, hblank⟩ | ⟨hdigit, -⟩
  · rw [heq] at h
    exact isBlank_of_isAsciiBlank h
  · exact hblank
  · rw [not_isDigit_of_isAsciiBlank h] at hdigit
    cases hdigit

theorem digitValue?_isSome_of_plain (h : (plain c).isDigit = true) :
    (digitValue? c).isSome = true := by
  rcases plain_cases c with heq | ⟨heq, -⟩ | ⟨-, hdigit⟩
  · rw [heq] at h
    exact digitValue?_isSome_of_isDigit h
  · rw [heq] at h
    cases h
  · exact hdigit

theorem plain_of_ascii (h : c.toNat < 0x80) : plain c = c := if_pos h

/-- The digits beyond ASCII lie apart from the white space. -/
theorem digitZeros_apart : ∀ z ∈ digitZeros, z = 48 ∨ (0xa0 < z ∧ z + 10 ≤ 0x1680) ∨
    (0x1680 < z ∧ z + 10 ≤ 0x2000) ∨ 0x3000 < z := by decide

theorem isDigit_plain : (plain c).isDigit = (digitValue? c).isSome := by
  rw [Bool.eq_iff_iff]
  refine ⟨digitValue?_isSome_of_plain, fun h => ?_⟩
  obtain ⟨d, hd⟩ := Option.isSome_iff_exists.mp h
  obtain ⟨z, hz, -⟩ := Option.map_eq_some_iff.mp hd
  have hrange := List.find?_some hz
  simp only [Bool.and_eq_true, decide_eq_true_eq] at hrange
  rcases digitZeros_apart z (List.mem_of_find?_eq_some hz) with rfl | hapart
  · have hdigit : 48 ≤ c.toNat ∧ c.toNat ≤ 57 := ⟨hrange.1, Nat.le_of_lt_succ hrange.2⟩
    rw [plain_of_ascii (by omega)]
    simpa [Char.isDigit, UInt32.le_iff_toNat_le] using hdigit
  · have hbeyond : ¬c.toNat < 0x80 := by omega
    have hblank : ¬isBlank c = true := by
      simp only [isBlank, Bool.or_eq_true, Bool.and_eq_true, decide_eq_true_eq, beq_iff_eq]
      omega
    have hten : ∀ d < 10, (Char.ofNat (48 + d)).isDigit = true := by decide
    rw [plain, if_neg hbeyond, if_neg hblank, hd]
    exact hten d (digitValue?_lt hd)

theorem isAsciiBlank_plain : isAsciiBlank (plain c) = isPadding c := by
  have hspace : c = ' ' ↔ c.toNat = 32 :=
    ⟨fun h => h ▸ rfl, fun h => Char.ext (UInt32.toNat_inj.mp h)⟩
  by_cases hascii : c.toNat < 0x80
  · rw [plain_of_ascii hascii, Bool.eq_iff_iff]
    simp only [isAsciiBlank, isPadding, isBlank, Bool.or_eq_true, Bool.and_eq_true,
      Bool.not_eq_true', Bool.and_eq_false_iff, decide_eq_true_eq, decide_eq_false_iff_not,
      beq_iff_eq, hspace]
    omega
  · have hpadding : isPadding c = isBlank c := by
      have hbeyond : (28 ≤ c.toNat && c.toNat ≤ 31) = false := by
        rw [Bool.and_eq_false_iff, decide_eq_false_iff_not, decide_eq_false_iff_not]
        omega
      rw [isPadding, hbeyond, Bool.not_false, Bool.and_true]
    rw [hpadding]
    cases hblank : isBlank c with
    | true =>
      rw [plain, if_neg hascii, if_pos hblank]
      rfl
    | false =>
      rw [Bool.eq_false_iff]
      intro h
      rw [isBlank_of_plain h] at hblank
      cases hblank

theorem isBlank_of_isPadding (h : isPadding c = true) : isBlank c = true :=
  (Bool.and_eq_true_iff.mp h).1

theorem isPadding_eq_false_of_isDigit (h : (digitValue? c).isSome = true) :
    isPadding c = false := by
  rw [← isAsciiBlank_plain, Bool.eq_false_iff]
  intro hblank
  rw [← isDigit_plain, not_isDigit_of_isAsciiBlank hblank] at h
  cases h

theorem ne_of_isDigit {x : Char} (h : c.isDigit = true) (hx : x.isDigit = false) : c ≠ x := by
  rintro rfl
  rw [hx] at h
  cases h

theorem isAsciiBlank_of_mem_map {s : List Char} (h : ∀ c ∈ s, isPadding c = true) :
    ∀ c ∈ s.map plain, isAsciiBlank c = true := by
  intro c hc
  obtain ⟨b, hb, rfl⟩ := List.mem_map.mp hc
  exact isAsciiBlank_plain.trans (h b hb)

/-- A mark is read as itself only. -/
theorem eq_of_plain_eq {x : Char} (h : plain c = x) (hspace : x ≠ ' ')
    (hdigit : x.isDigit = false) : c = x := by
  rcases plain_cases c with heq | ⟨heq, -⟩ | ⟨hd, -⟩
  · exact heq.symm.trans h
  · exact absurd (h.symm.trans heq) hspace
  · rw [h, hdigit] at hd
    cases hd

end

/-- Groups that can be joined are digits with single underscores between them; the first group may
have begun before. -/
theorem isDigits_of_joinGroups {s ds : List Char} {afterDigit : Bool}
    (h : joinGroups afterDigit (s.map plain) = some ds) :
    (afterDigit = false → IsDigits s) ∧
      (afterDigit = true → ∀ c, (digitValue? c).isSome = true → IsDigits (c :: s)) := by
  induction s generalizing afterDigit ds with
  | nil =>
    refine ⟨?_, fun _ c hc => .one hc⟩
    rintro rfl
    cases h
  | cons d s ih =>
    rw [List.map_cons, joinGroups] at h
    split at h
    · next hd =>
      obtain rfl := eq_of_plain_eq hd (by decide) (by decide)
      split at h
      · next hafter =>
        subst hafter
        exact ⟨nofun, fun _ c hc => .underscore hc ((ih h).1 rfl)⟩
      · cases h
    · split at h
      · next hd =>
        obtain ⟨es, hes, -⟩ := Option.map_eq_some_iff.mp h
        have hs := (ih hes).2 rfl d (digitValue?_isSome_of_plain hd)
        exact ⟨fun _ => hs, fun _ c hc => .cons hc hs⟩
      · cases h

theorem plain_eq_underscore_iff (c : Char) : plain c = '_' ↔ c = '_' := by
  refine ⟨fun h => eq_of_plain_eq h (by decide) (by decide), ?_⟩
  rintro rfl
  rfl

theorem joinGroups_eq_filter {afterDigit : Bool} {s ds : List Char}
    (h : joinGroups afterDigit s = some ds) : ds = s.filter (· != '_') := by
  induction s generalizing afterDigit ds with
  | nil =>
    rw [joinGroups] at h
    split_ifs at h
    exact (Option.some.inj h).symm
  | cons c s ih =>
    rw [joinGroups] at h
    split_ifs at h with hc hafter hdigit
    · subst hc
      exact ih h
    · obtain ⟨es, hes, rfl⟩ := Option.map_eq_some_iff.mp h
      have hkeep : (c != '_') = true := bne_iff_ne.mpr hc
      rw [List.filter_cons, if_pos hkeep, ← ih hes]

theorem length_filter_plain (s : List Char) :
    ((s.map plain).filter (· != '_')).length = (s.filter (· != '_')).length := by
  rw [List.filter_map, List.length_map]
  congr 2
  funext c
  rw [Bool.eq_iff_iff, Function.comp_apply, bne_iff_ne, bne_iff_ne, Ne, plain_eq_underscore_iff]

theorem joinGroups_cons_of_isDigit {afterDigit : Bool} {c : Char} {s : List Char}
    (hc : (digitValue? c).isSome = true) :
    joinGroups afterDigit (plain c :: s) = (joinGroups true s).map (plain c :: ·) := by
  rw [← isDigit_plain] at hc
  have hmark : plain c ≠ '_' := by
    intro h
    rw [h] at hc
    cases hc
  rw [joinGroups, if_neg hmark, if_pos hc]

namespace IsDigits

variable {s : List Char}

theorem exists_joinGroups (h : IsDigits s) (afterDigit : Bool) :
    ∃ ds, joinGroups afterDigit (s.map plain) = some ds := by
  induction h generalizing afterDigit with
  | one hc => exact ⟨_, joinGroups_cons_of_isDigit hc⟩
  | cons hc _ ih =>
    obtain ⟨ds, hds⟩ := ih true
    rw [List.map_cons, joinGroups_cons_of_isDigit hc, hds]
    exact ⟨_, rfl⟩
  | underscore hc _ ih =>
    obtain ⟨ds, hds⟩ := ih false
    have hjoin : ∀ t, joinGroups true (plain '_' :: t) = joinGroups false t := fun t => rfl
    rw [List.map_cons, joinGroups_cons_of_isDigit hc, List.map_cons, hjoin, hds]
    exact ⟨_, rfl⟩

theorem exists_cons (h : IsDigits s) : ∃ c t, s = c :: t ∧ (digitValue? c).isSome = true := by
  cases h with
  | one hc => exact ⟨_, _, rfl, hc⟩
  | cons hc => exact ⟨_, _, rfl, hc⟩
  | underscore hc => exact ⟨_, _, rfl, hc⟩

theorem isDigit_or_underscore (h : IsDigits s) :
    ∀ c ∈ s, (digitValue? c).isSome = true ∨ c = '_' := by
  induction h with
  | one hc => exact List.forall_mem_singleton.mpr (Or.inl hc)
  | cons hc _ ih => exact List.forall_mem_cons.mpr ⟨Or.inl hc, ih⟩
  | underscore hc _ ih =>
    exact List.forall_mem_cons.mpr ⟨Or.inl hc, List.forall_mem_cons.mpr ⟨Or.inr rfl, ih⟩⟩

end IsDigits

theorem IsSign.map_plain {sign : List Char} (h : IsSign sign) : sign.map plain = sign := by
  rcases h with rfl | rfl | rfl <;> rfl

theorem exists_of_splitSign (s : List Char) : ∃ sign body, s = sign ++ body ∧ IsSign sign ∧
    (splitSign (s.map plain)).2 = body.map plain := by
  cases s with
  | nil => exact ⟨[], [], rfl, Or.inl rfl, rfl⟩
  | cons c s =>
    rw [List.map_cons]
    unfold splitSign
    split
    · next heq =>
      obtain ⟨hc, rfl⟩ := List.cons.inj heq
      obtain rfl := eq_of_plain_eq hc (by decide) (by decide)
      exact ⟨['-'], s, rfl, Or.inr (Or.inr rfl), rfl⟩
    · next heq =>
      obtain ⟨hc, rfl⟩ := List.cons.inj heq
      obtain rfl := eq_of_plain_eq hc (by decide) (by decide)
      exact ⟨['+'], s, rfl, Or.inr (Or.inl rfl), rfl⟩
    · exact ⟨[], c :: s, rfl, Or.inl rfl, rfl⟩

/-- A sign is split off from what does not start with a sign itself. -/
theorem splitSign_append {sign body : List Char} {c : Char} (hsign : IsSign sign)
    (hminus : c ≠ '-') (hplus : c ≠ '+') : (splitSign (sign ++ c :: body)).2 = c :: body := by
  rcases hsign with rfl | rfl | rfl
  · rw [List.nil_append, splitSign.eq_3]
    · intro rest h
      exact hminus (List.cons.inj h).1
    · intro rest h
      exact hplus (List.cons.inj h).1
  · rfl
  · rfl

/-- A text falls apart where the plain form of it does. -/
theorem isInteger_of_readInt {s : List Char} {i : Int} (h : readInt s = .value i) :
    IsInteger s := by
  let blank := isAsciiBlank ∘ plain
  let part := (fun c => c.isDigit || c == '_') ∘ plain
  obtain ⟨sign, body, hbody, hsign, hsplit⟩ := exists_of_splitSign (s.dropWhile blank)
  have hs : s = s.takeWhile blank ++ (sign ++ (body.takeWhile part ++ body.dropWhile part)) := by
    rw [List.takeWhile_append_dropWhile, ← hbody, List.takeWhile_append_dropWhile]
  have hbefore : ∀ c ∈ s.takeWhile blank, isPadding c = true := by
    intro c hc
    exact isAsciiBlank_plain.symm.trans (List.mem_takeWhile_imp (p := blank) hc)
  simp only [readInt, List.dropWhile_map, blank, hsplit, List.takeWhile_map] at h
  split at h
  · cases h
  · next ds hds =>
    have hdigits : IsDigits (body.takeWhile part) := (isDigits_of_joinGroups hds).1 rfl
    split at h
    · cases h
    · next hlimit =>
      have hlength : ((body.takeWhile part).filter (· != '_')).length = ds.length := by
        rw [← length_filter_plain, joinGroups_eq_filter hds]
      split at h
      · next hall =>
        have hafter : ∀ c ∈ body.dropWhile part, isPadding c = true := by
          intro c hc
          exact isAsciiBlank_plain.symm.trans
            (List.all_eq_true.mp hall _ (List.mem_map_of_mem hc))
        exact ⟨_, sign, _, _, hs, hbefore, hsign, ⟨hdigits, by omega⟩, hafter⟩
      · cases h

theorem stops_isAsciiBlank {sign body : List Char} {c : Char} (hsign : IsSign sign)
    (hc : isPadding c = false) : Stops isAsciiBlank (sign ++ plain c :: body) := by
  rcases hsign with rfl | rfl | rfl
  · intro x hx
    obtain rfl := Option.some.inj hx
    exact isAsciiBlank_plain.trans hc
  · intro x hx
    obtain rfl := Option.some.inj hx
    rfl
  · intro x hx
    obtain rfl := Option.some.inj hx
    rfl

/-- Digits and underscores, of which the digits of a numeral are the longest run. -/
def isPart (c : Char) : Bool := c.isDigit || c == '_'

theorem stops_isPart {s : List Char} (h : ∀ c ∈ s, isAsciiBlank c = true) : Stops isPart s := by
  apply stops_of_forall
  intro c hc
  have hmark : c ≠ '_' := by
    rintro rfl
    cases h _ hc
  rw [isPart, not_isDigit_of_isAsciiBlank (h c hc), beq_eq_false_iff_ne.mpr hmark, Bool.or_false]

theorem IsDigits.isPart_of_mem_map {s : List Char} (h : IsDigits s) :
    ∀ c ∈ s.map plain, isPart c = true := by
  intro c hc
  obtain ⟨b, hb, rfl⟩ := List.mem_map.mp hc
  rcases h.isDigit_or_underscore b hb with hb | rfl
  · exact Bool.or_eq_true_iff.mpr (Or.inl (isDigit_plain.trans hb))
  · rfl

theorem exists_readInt_of_isInteger {s : List Char} (h : IsInteger s) :
    ∃ i, readInt s = .value i := by
  obtain ⟨before, sign, digits, after, rfl, hbefore, hsign, ⟨hdigits, hlimit⟩, hafter⟩ := h
  obtain ⟨es, hes⟩ := hdigits.exists_joinGroups false
  have hlength : ¬digitLimit < es.length := by
    rwa [joinGroups_eq_filter hes, length_filter_plain, not_lt]
  have hblank := isAsciiBlank_of_mem_map hafter
  have hparts := hdigits.isPart_of_mem_map
  have htake : (digits.map plain ++ after.map plain).takeWhile (fun c => c.isDigit || c == '_') =
      digits.map plain := takeWhile_append_of_stops hparts (stops_isPart hblank)
  have hdrop : (digits.map plain ++ after.map plain).dropWhile (fun c => c.isDigit || c == '_') =
      after.map plain := dropWhile_append_of_stops hparts (stops_isPart hblank)
  -- The digits start with one, so neither white space nor a sign is left before them.
  obtain ⟨d, ds, rfl, hd⟩ := hdigits.exists_cons
  have hdigit : (plain d).isDigit = true := isDigit_plain.trans hd
  have htrim : ((before ++ (sign ++ ((d :: ds) ++ after))).map plain).dropWhile isAsciiBlank =
      sign ++ ((d :: ds).map plain ++ after.map plain) := by
    rw [List.map_append, List.map_append, List.map_append, hsign.map_plain]
    exact dropWhile_append_of_stops (isAsciiBlank_of_mem_map hbefore)
      (stops_isAsciiBlank hsign (isPadding_eq_false_of_isDigit hd))
  have hsplit : (splitSign (sign ++ ((d :: ds).map plain ++ after.map plain))).2 =
      (d :: ds).map plain ++ after.map plain :=
    splitSign_append hsign (ne_of_isDigit hdigit rfl) (ne_of_isDigit hdigit rfl)
  simp only [readInt, htrim, hsplit, htake, hdrop, hes]
  rw [if_neg hlength, if_pos (List.all_eq_true.mpr hblank)]
  exact ⟨_, rfl⟩

theorem exists_readInt_iff {s : List Char} : (∃ i, readInt s = .value i) ↔ IsInteger s := by
  refine ⟨?_, exists_readInt_of_isInteger⟩
  rintro ⟨i, h⟩
  exact isInteger_of_readInt h

/-- Only numerals are read as integers. -/
theorem isNumeral_of_readInt {s : List Char} {i : Int} (h : readInt s = .value i) :
    IsNumeral s := by
  obtain ⟨before, sign, digits, after, hs, hbefore, hsign, ⟨hdigits, -⟩, hafter⟩ :=
    isInteger_of_readInt h
  exact ⟨before, sign, digits, after, hs, fun c hc => isBlank_of_isPadding (hbefore c hc), hsign,
    hdigits, fun c hc => isBlank_of_isPadding (hafter c hc)⟩

end MergeDecoration.Numeral
