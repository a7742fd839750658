import Mathlib
import MergeDecoration.Proofs.Number.Numeral
import MergeDecoration.Proofs.Text.Case

/-!
The grammar of the numerals of doubles. A text is read as a double just if it is one of these.
-/
namespace MergeDecoration.Numeral

open Text

/-- An exponent is a mark, at most one sign and digits; it may be missing. -/
inductive IsExponent : List Char → Prop
  | missing : IsExponent []
  | marked {mark : Char} {sign digits : List Char} (hmark : mark = 'e' ∨ mark = 'E')
    (hsign : IsSign sign) (hdigits : IsDigits digits) : IsExponent (mark :: (sign ++ digits))

/-- Digits, or a point with digits on one side of it or on both, and an exponent if any. -/
inductive IsDecimal : List Char → Prop
  | whole {whole exponent : List Char} (hwhole : IsDigits whole)
    (hexponent : IsExponent exponent) : IsDecimal (whole ++ exponent)
  | point {whole places exponent : List Char} (hwhole : whole = [] ∨ IsDigits whole)
    (hplaces : places = [] ∨ IsDigits places) (hdigits : whole ≠ [] ∨ places ≠ [])
    (hexponent : IsExponent exponent) : IsDecimal (whole ++ '.' :: (places ++ exponent))

/-- A word for an infinite double or for none, in letters of any case. -/
def IsWord (s : List Char) : Prop :=
  s.map Char.toLower = ['i', 'n', 'f'] ∨
    s.map Char.toLower = ['i', 'n', 'f', 'i', 'n', 'i', 't', 'y'] ∨
    s.map Char.toLower = ['n', 'a', 'n']

/-- The numeral of a double. -/
def IsReal (s : List Char) : Prop := Padded (fun body => IsWord body ∨ IsDecimal body) s

section

variable {c x : Char} {s t u v : List Char} {after : Bool}

/-! Underscores -/

theorem dropUnderscores_cons (hc : c ≠ '_') :
    dropUnderscores after (c :: s) = (dropUnderscores c.isDigit s).map (c :: ·) := by
  rw [dropUnderscores.eq_def]
  split
  · next heq => cases heq
  · next heq => exact absurd (List.cons.inj heq).1 hc
  · next heq => exact absurd (List.cons.inj heq).1 hc
  · next heq =>
    obtain ⟨rfl, rfl⟩ := List.cons.inj heq
    rfl

/-- An underscore stands after a digit and before one. -/
theorem dropUnderscores_underscore : dropUnderscores after ('_' :: s) = some u ↔
    after = true ∧ (∃ c t, s = c :: t ∧ c.isDigit = true) ∧ dropUnderscores false s = some u := by
  cases s with
  | nil => simp [dropUnderscores]
  | cons c t =>
    rw [dropUnderscores]
    cases hdigit : c.isDigit with
    | false => simp [hdigit]
    | true =>
      rw [dropUnderscores_cons (ne_of_isDigit hdigit rfl), hdigit]
      cases after <;> simp [hdigit]

theorem dropUnderscores_of_notMem (h : '_' ∉ s) : dropUnderscores after s = some s := by
  induction s generalizing after with
  | nil => rw [dropUnderscores]
  | cons c s ih =>
    rw [List.mem_cons, not_or] at h
    rw [dropUnderscores_cons (Ne.symm h.1), ih h.2, Option.map_some]

theorem readUnderscored_eq (s : List Char) : readUnderscored s = dropUnderscores false s := by
  rw [readUnderscored]
  split
  · rfl
  · next h =>
    rw [dropUnderscores_of_notMem]
    rwa [← List.contains_iff_mem]

theorem eq_nil_of_dropUnderscores (h : dropUnderscores false (s.map plain) = some []) : s = [] := by
  cases s with
  | nil => rfl
  | cons c s =>
    rw [List.map_cons] at h
    by_cases hc : plain c = '_'
    · rw [hc] at h
      exact absurd (dropUnderscores_underscore.mp h).1 Bool.false_ne_true
    · rw [dropUnderscores_cons hc] at h
      obtain ⟨v, -, hv⟩ := Option.map_eq_some_iff.mp h
      cases hv

/-- What comes first and is no digit stands there in the text. -/
theorem exists_cons_of_dropUnderscores (h : dropUnderscores false (s.map plain) = some (x :: v))
    (hx : x.isDigit = false) :
    ∃ c t, s = c :: t ∧ plain c = x ∧ dropUnderscores false (t.map plain) = some v := by
  cases s with
  | nil => cases h
  | cons c t =>
    rw [List.map_cons] at h
    by_cases hc : plain c = '_'
    · rw [hc] at h
      exact absurd (dropUnderscores_underscore.mp h).1 Bool.false_ne_true
    · rw [dropUnderscores_cons hc] at h
      obtain ⟨w, hw, hcons⟩ := Option.map_eq_some_iff.mp h
      obtain ⟨rfl, rfl⟩ := List.cons.inj hcons
      rw [hx] at hw
      exact ⟨c, t, rfl, rfl, hw⟩

theorem eq_cons_of_dropUnderscores (h : dropUnderscores false (s.map plain) = some (x :: v))
    (hspace : x ≠ ' ') (hdigit : x.isDigit = false) :
    ∃ t, s = x :: t ∧ dropUnderscores false (t.map plain) = some v := by
  obtain ⟨c, t, rfl, hc, ht⟩ := exists_cons_of_dropUnderscores h hdigit
  obtain rfl := eq_of_plain_eq hc hspace hdigit
  exact ⟨t, rfl, ht⟩

theorem eq_of_dropUnderscores (h : dropUnderscores false (s.map plain) = some u)
    (hu : ∀ c ∈ u, c ≠ ' ' ∧ c.isDigit = false) : s = u := by
  induction u generalizing s with
  | nil => exact eq_nil_of_dropUnderscores h
  | cons x v ih =>
    obtain ⟨hx, hv⟩ := List.forall_mem_cons.mp hu
    obtain ⟨t, rfl, ht⟩ := eq_cons_of_dropUnderscores h hx.1 hx.2
    rw [ih ht hv]

/-- The digits that come first are those of digits with underscores in the text; these may go on
with digits from before. -/
theorem exists_digits_of_dropUnderscores (h : dropUnderscores after (s.map plain) = some u) :
    ∃ ds rest, s = ds ++ rest ∧ (ds = [] ↔ u.takeWhile Char.isDigit = []) ∧
      dropUnderscores false (rest.map plain) = some (u.dropWhile Char.isDigit) ∧
      (after = false → ds = [] ∨ IsDigits ds) ∧
      (after = true → ∀ c, (digitValue? c).isSome = true → IsDigits (c :: ds)) := by
  -- A digit hands over to digits that go on with it, and an underscore to digits that start anew.
  induction s generalizing after u with
  | nil =>
    rw [List.map_nil, dropUnderscores] at h
    obtain rfl := Option.some.inj h
    exact ⟨[], [], rfl, by simp, rfl, fun _ => Or.inl rfl, fun _ c hc => .one hc⟩
  | cons c s ih =>
    rw [List.map_cons] at h
    by_cases hc : plain c = '_'
    · obtain rfl := (plain_eq_underscore_iff c).mp hc
      rw [hc] at h
      obtain ⟨rfl, ⟨d, t, hs, hd⟩, hrest⟩ := dropUnderscores_underscore.mp h
      obtain ⟨ds, rest, rfl, hne, hrest', hds, -⟩ := ih hrest
      have hu : u.takeWhile Char.isDigit ≠ [] := by
        rw [hs, dropUnderscores_cons (ne_of_isDigit hd rfl)] at hrest
        obtain ⟨w, -, rfl⟩ := Option.map_eq_some_iff.mp hrest
        rw [List.takeWhile_cons_of_pos hd]
        exact List.cons_ne_nil _ _
      have hdigits : IsDigits ds := (hds rfl).resolve_left fun hnil => hu (hne.mp hnil)
      refine ⟨'_' :: ds, rest, rfl, by simp [hu], hrest', ?_, fun _ c hc => .underscore hc hdigits⟩
      intro hafter
      cases hafter
    · rw [dropUnderscores_cons hc] at h
      obtain ⟨w, hw, rfl⟩ := Option.map_eq_some_iff.mp h
      cases hdigit : (plain c).isDigit with
      | true =>
        have hvalue : (digitValue? c).isSome = true := isDigit_plain.symm.trans hdigit
        rw [hdigit] at hw
        obtain ⟨ds, rest, rfl, -, hrest, -, hds⟩ := ih hw
        have hdigits : IsDigits (c :: ds) := hds rfl c hvalue
        rw [List.takeWhile_cons_of_pos hdigit, List.dropWhile_cons_of_pos hdigit]
        exact ⟨c :: ds, rest, rfl, by simp, hrest, fun _ => Or.inr hdigits,
          fun _ c' hc' => .cons hc' hdigits⟩
      | false =>
        have hstop : ¬(plain c).isDigit = true := Bool.eq_false_iff.mp hdigit
        rw [List.takeWhile_cons_of_neg hstop, List.dropWhile_cons_of_neg hstop]
        refine ⟨[], c :: s, rfl, by simp, ?_, fun _ => Or.inl rfl, fun _ c hc => .one hc⟩
        rw [List.map_cons, dropUnderscores_cons hc, hw]
        rfl

/-- Digits with underscores between them leave digits; what follows may be read on its own. -/
theorem IsDigits.exists_dropUnderscores (h : IsDigits s)
    (ht : dropUnderscores true (t.map plain) = some v) :
    ∃ d ds, (∀ after, dropUnderscores after ((s ++ t).map plain) = some (d :: ds ++ v)) ∧
      ∀ c ∈ d :: ds, c.isDigit = true := by
  induction h with
  | @one c hc =>
    have hdigit : (plain c).isDigit = true := isDigit_plain.trans hc
    refine ⟨plain c, [], fun after => ?_, List.forall_mem_singleton.mpr hdigit⟩
    rw [List.singleton_append, List.map_cons, dropUnderscores_cons (ne_of_isDigit hdigit rfl),
      hdigit, ht]
    rfl
  | @cons c cs hc _ ih =>
    have hdigit : (plain c).isDigit = true := isDigit_plain.trans hc
    obtain ⟨d, ds, hds, hdigits⟩ := ih
    refine ⟨plain c, d :: ds, fun after => ?_, List.forall_mem_cons.mpr ⟨hdigit, hdigits⟩⟩
    rw [List.cons_append, List.map_cons, dropUnderscores_cons (ne_of_isDigit hdigit rfl), hds]
    rfl
  | @underscore c cs hc hcs ih =>
    have hdigit : (plain c).isDigit = true := isDigit_plain.trans hc
    obtain ⟨d, ds, hds, hdigits⟩ := ih
    obtain ⟨e, es, rfl, he⟩ := hcs.exists_cons
    refine ⟨plain c, d :: ds, fun after => ?_, List.forall_mem_cons.mpr ⟨hdigit, hdigits⟩⟩
    -- The digits behind the underscore are what lets it stand.
    have hunderscore : dropUnderscores true (('_' :: (e :: es ++ t)).map plain) =
        some (d :: ds ++ v) :=
      dropUnderscores_underscore.mpr ⟨rfl, ⟨_, _, rfl, isDigit_plain.trans he⟩, hds false⟩
    rw [List.cons_append, List.map_cons, dropUnderscores_cons (ne_of_isDigit hdigit rfl), hdigit]
    exact congrArg _ hunderscore

theorem IsSign.dropUnderscores_append (h : IsSign s)
    (ht : dropUnderscores false (t.map plain) = some v) :
    dropUnderscores false ((s ++ t).map plain) = some (s ++ v) := by
  rcases h with rfl | rfl | rfl
  · exact ht
  · exact (dropUnderscores_cons (by decide)).trans (congrArg _ ht)
  · exact (dropUnderscores_cons (by decide)).trans (congrArg _ ht)

/-! Decimals -/

theorem readPower_isSome_iff : (readPower s).isSome = true ↔
    (splitSign s).2 ≠ [] ∧ ∀ c ∈ (splitSign s).2, c.isDigit = true := by
  rw [readPower]
  obtain ⟨negative, ds⟩ := splitSign s
  dsimp only
  split_ifs with h
  · simpa [imp_iff_not_or] using h
  · simpa using h

theorem readDecimal_isSome_iff : (readDecimal s).isSome = true ↔
    (s.takeWhile Char.isDigit ≠ [] ∨ (splitPlaces (s.dropWhile Char.isDigit)).1 ≠ []) ∧
      (readExponent (splitPlaces (s.dropWhile Char.isDigit)).2).isSome = true := by
  rw [readDecimal]
  obtain ⟨places, rest⟩ := splitPlaces (s.dropWhile Char.isDigit)
  dsimp only
  split_ifs with h
  · rw [Bool.and_eq_true, List.isEmpty_iff, List.isEmpty_iff] at h
    simp [h]
  · rw [Bool.and_eq_true, List.isEmpty_iff, List.isEmpty_iff, not_and_or] at h
    rw [Option.isSome_map, and_iff_right h]

theorem splitPlaces_of_ne (h : ∀ t, s ≠ '.' :: t) : splitPlaces s = ([], s) := by
  unfold splitPlaces
  split
  · exact absurd rfl (h _)
  · rfl

theorem exists_sign_of_dropUnderscores (h : dropUnderscores false (s.map plain) = some u) :
    ∃ sign body, s = sign ++ body ∧ IsSign sign ∧
      dropUnderscores false (body.map plain) = some (splitSign u).2 := by
  unfold splitSign
  split
  · obtain ⟨t, rfl, ht⟩ := eq_cons_of_dropUnderscores h (by decide) (by decide)
    exact ⟨['-'], t, rfl, Or.inr (Or.inr rfl), ht⟩
  · obtain ⟨t, rfl, ht⟩ := eq_cons_of_dropUnderscores h (by decide) (by decide)
    exact ⟨['+'], t, rfl, Or.inr (Or.inl rfl), ht⟩
  · exact ⟨[], s, rfl, Or.inl rfl, h⟩

theorem isExponent_of_readExponent (h : dropUnderscores false (s.map plain) = some u)
    (hread : (readExponent u).isSome = true) : IsExponent s := by
  cases u with
  | nil =>
    obtain rfl := eq_nil_of_dropUnderscores h
    exact .missing
  | cons mark v =>
    rw [readExponent] at hread
    split_ifs at hread with hmark
    · obtain ⟨hne, hdigits⟩ := readPower_isSome_iff.mp hread
      have hplain : mark ≠ ' ' ∧ mark.isDigit = false := by
        rcases hmark with rfl | rfl <;> decide
      obtain ⟨t, rfl, ht⟩ := eq_cons_of_dropUnderscores h hplain.1 hplain.2
      obtain ⟨sign, body, rfl, hsign, hbody⟩ := exists_sign_of_dropUnderscores ht
      obtain ⟨ds, rest, rfl, hnil, hrest, hds, -⟩ := exists_digits_of_dropUnderscores hbody
      rw [List.takeWhile_eq_self_iff.mpr hdigits] at hnil
      rw [List.dropWhile_eq_nil_iff.mpr hdigits] at hrest
      obtain rfl := eq_nil_of_dropUnderscores hrest
      rw [List.append_nil]
      exact .marked hmark hsign ((hds rfl).resolve_left fun h => hne (hnil.mp h))
    · cases hread

theorem isDecimal_of_readDecimal (h : dropUnderscores false (s.map plain) = some u)
    (hread : (readDecimal u).isSome = true) : IsDecimal s := by
  obtain ⟨hne, hexponent⟩ := readDecimal_isSome_iff.mp hread
  obtain ⟨whole, rest, rfl, hnil, hrest, hwhole, -⟩ := exists_digits_of_dropUnderscores h
  generalize u.takeWhile Char.isDigit = ds at hne hnil
  generalize u.dropWhile Char.isDigit = v at hne hexponent hrest
  by_cases hpoint : ∃ w, v = '.' :: w
  · obtain ⟨w, rfl⟩ := hpoint
    obtain ⟨t, rfl, ht⟩ := eq_cons_of_dropUnderscores hrest (by decide) (by decide)
    obtain ⟨places, rest, rfl, hnil', hrest', hplaces, -⟩ := exists_digits_of_dropUnderscores ht
    refine .point (hwhole rfl) (hplaces rfl) ?_ (isExponent_of_readExponent hrest' hexponent)
    rwa [Ne, hnil, Ne, hnil']
  · rw [splitPlaces_of_ne fun w hw => hpoint ⟨w, hw⟩] at hne hexponent
    have hds : ds ≠ [] := hne.resolve_right fun h => h rfl
    refine .whole ((hwhole rfl).resolve_left fun h => hds (hnil.mp h)) ?_
    exact isExponent_of_readExponent hrest hexponent

/-- Digits, if any, leave digits. -/
theorem exists_dropUnderscores_of_digits (h : s = [] ∨ IsDigits s)
    (ht : ∀ after, dropUnderscores after (t.map plain) = some v) :
    ∃ ds, (∀ after, dropUnderscores after ((s ++ t).map plain) = some (ds ++ v)) ∧
      (∀ c ∈ ds, c.isDigit = true) ∧ (ds = [] ↔ s = []) := by
  rcases h with rfl | h
  · exact ⟨[], ht, List.forall_mem_nil _, Iff.rfl⟩
  · obtain ⟨d, ds, hds, hdigits⟩ := h.exists_dropUnderscores (ht true)
    obtain ⟨c, cs, rfl, -⟩ := h.exists_cons
    exact ⟨d :: ds, hds, hdigits, by simp⟩

theorem IsExponent.exists_readExponent (h : IsExponent s) :
    ∃ v, (∀ after, dropUnderscores after (s.map plain) = some v) ∧
      (readExponent v).isSome = true ∧ Stops Char.isDigit v ∧ ∀ t, v ≠ '.' :: t := by
  cases h with
  | missing =>
    refine ⟨[], fun after => by rw [List.map_nil, dropUnderscores], rfl, ?_, by simp⟩
    intro c hc
    cases hc
  | @marked mark sign digits hmark hsign hdigits =>
    have hend : dropUnderscores true (List.map plain []) = some [] := by
      rw [List.map_nil, dropUnderscores]
    obtain ⟨d, ds, hds, hall⟩ := hdigits.exists_dropUnderscores hend
    rw [List.append_nil, List.append_nil] at hds
    have hplain : plain mark = mark ∧ mark.isDigit = false ∧ mark ≠ '_' ∧ mark ≠ '.' := by
      rcases hmark with rfl | rfl <;> decide
    refine ⟨mark :: (sign ++ d :: ds), fun after => ?_, ?_, ?_, ?_⟩
    · rw [List.map_cons, hplain.1, dropUnderscores_cons hplain.2.2.1, hplain.2.1,
        hsign.dropUnderscores_append (hds false)]
      rfl
    · have hd : d.isDigit = true := hall d List.mem_cons_self
      have hsplit : (splitSign (sign ++ d :: ds)).2 = d :: ds :=
        splitSign_append hsign (ne_of_isDigit hd rfl) (ne_of_isDigit hd rfl)
      rw [readExponent, if_pos hmark, readPower_isSome_iff, hsplit]
      exact ⟨List.cons_ne_nil _ _, hall⟩
    · intro c hc
      obtain rfl := Option.some.inj hc
      exact hplain.2.1
    · intro t ht
      exact hplain.2.2.2 (List.cons.inj ht).1

theorem readDecimal_of_whole {ds : List Char} (hds : ∀ c ∈ ds, c.isDigit = true) (hne : ds ≠ [])
    (hv : (readExponent v).isSome = true) (hstop : Stops Char.isDigit v)
    (hpoint : ∀ t, v ≠ '.' :: t) : (readDecimal (ds ++ v)).isSome = true := by
  rw [readDecimal_isSome_iff, takeWhile_append_of_stops hds hstop,
    dropWhile_append_of_stops hds hstop, splitPlaces_of_ne hpoint]
  exact ⟨Or.inl hne, hv⟩

theorem readDecimal_of_point {ds ps : List Char} (hds : ∀ c ∈ ds, c.isDigit = true)
    (hps : ∀ c ∈ ps, c.isDigit = true) (hne : ds ≠ [] ∨ ps ≠ [])
    (hv : (readExponent v).isSome = true) (hstop : Stops Char.isDigit v) :
    (readDecimal (ds ++ '.' :: (ps ++ v))).isSome = true := by
  have hpoint : Stops Char.isDigit ('.' :: (ps ++ v)) := by
    intro c hc
    obtain rfl := Option.some.inj hc
    rfl
  rw [readDecimal_isSome_iff, takeWhile_append_of_stops hds hpoint,
    dropWhile_append_of_stops hds hpoint, splitPlaces, takeWhile_append_of_stops hps hstop,
    dropWhile_append_of_stops hps hstop]
  exact ⟨hne, hv⟩

/-- A decimal starts with a digit or a point, and not with a sign. -/
theorem IsDecimal.exists_readDecimal (h : IsDecimal s) :
    ∃ c t, dropUnderscores false (s.map plain) = some (c :: t) ∧
      (readDecimal (c :: t)).isSome = true ∧ c ≠ '-' ∧ c ≠ '+' := by
  cases h with
  | @whole whole exponent hwhole hexponent =>
    obtain ⟨v, hv, hread, hstop, hpoint⟩ := hexponent.exists_readExponent
    obtain ⟨d, ds, hds, hall⟩ := hwhole.exists_dropUnderscores (hv true)
    have hd : d.isDigit = true := hall d List.mem_cons_self
    exact ⟨d, ds ++ v, hds false,
      readDecimal_of_whole hall (List.cons_ne_nil _ _) hread hstop hpoint, ne_of_isDigit hd rfl,
      ne_of_isDigit hd rfl⟩
  | @point whole places exponent hwhole hplaces hdigits hexponent =>
    obtain ⟨v, hv, hread, hstop, -⟩ := hexponent.exists_readExponent
    obtain ⟨ps, hps, hpsall, hpsnil⟩ := exists_dropUnderscores_of_digits hplaces hv
    have hpoint : ∀ after, dropUnderscores after (('.' :: (places ++ exponent)).map plain) =
        some ('.' :: (ps ++ v)) := by
      intro after
      have hmark : plain '.' = '.' := rfl
      rw [List.map_cons, hmark, dropUnderscores_cons (by decide), hps]
      rfl
    obtain ⟨ds, hds, hdsall, hdsnil⟩ := exists_dropUnderscores_of_digits hwhole hpoint
    have hread : (readDecimal (ds ++ '.' :: (ps ++ v))).isSome = true := by
      refine readDecimal_of_point hdsall hpsall ?_ hread hstop
      rwa [Ne, hdsnil, Ne, hpsnil]
    cases ds with
    | nil => exact ⟨'.', ps ++ v, hds false, hread, by decide, by decide⟩
    | cons d ds =>
      have hd : d.isDigit = true := hdsall d List.mem_cons_self
      exact ⟨d, _, hds false, hread, ne_of_isDigit hd rfl, ne_of_isDigit hd rfl⟩

/-! Words -/

theorem isAlpha_of_isLower_toLower (h : c.toLower.isLower = true) : c.isAlpha = true := by
  rw [Char.isAlpha, Bool.or_eq_true]
  by_cases hupper : c.isUpper = true
  · exact Or.inl hupper
  · have hsame : c.toLower = c := by
      rw [Char.isUpper, decide_eq_true_eq] at hupper
      exact dif_neg hupper
    rw [hsame] at h
    exact Or.inr h

theorem IsWord.isAlpha_of_mem (h : IsWord s) : ∀ c ∈ s, c.isAlpha = true := by
  have hlower : (s.map Char.toLower).all Char.isLower = true := by
    rcases h with h | h | h <;> rw [h] <;> decide
  intro c hc
  exact isAlpha_of_isLower_toLower (List.all_eq_true.mp hlower _ (List.mem_map_of_mem hc))

/-- A character that is read as itself and is no part of a numeral in digits. -/
structure IsInert (c : Char) : Prop where
  plain : plain c = c
  ne_space : c ≠ ' '
  isDigit : c.isDigit = false
  isPadding : isPadding c = false
  ne_underscore : c ≠ '_'
  ne_minus : c ≠ '-'
  ne_plus : c ≠ '+'

theorem isInert_of_isAlpha (h : c.isAlpha = true) : IsInert c := by
  have hascii : c.toNat < 0x80 := by
    have hrange : (65 ≤ c.toNat ∧ c.toNat ≤ 90) ∨ (97 ≤ c.toNat ∧ c.toNat ≤ 122) := by
      simpa [Char.isAlpha, Char.isUpper, Char.isLower, UInt32.le_iff_toNat_le] using h
    omega
  obtain ⟨hspace, hdigit, hpadding, hunderscore, hminus, hplus⟩ := of_decide_eq_true
    (forall_ascii (p := fun c => c.isAlpha = true → c ≠ ' ' ∧ c.isDigit = false ∧
      Numeral.isPadding c = false ∧ c ≠ '_' ∧ c ≠ '-' ∧ c ≠ '+') (by decide +kernel) hascii) h
  exact ⟨plain_of_ascii hascii, hspace, hdigit, hpadding, hunderscore, hminus, hplus⟩

theorem IsWord.isInert_of_mem (h : IsWord s) : ∀ c ∈ s, IsInert c :=
  fun c hc => isInert_of_isAlpha (h.isAlpha_of_mem c hc)

theorem IsDigits.isPadding_of_mem (h : IsDigits s) : ∀ c ∈ s, isPadding c = false := by
  intro c hc
  rcases h.isDigit_or_underscore c hc with hdigit | rfl
  · exact isPadding_eq_false_of_isDigit hdigit
  · decide

theorem IsSign.isPadding_of_mem (h : IsSign s) : ∀ c ∈ s, isPadding c = false := by
  rcases h with rfl | rfl | rfl
  · exact List.forall_mem_nil _
  · exact List.forall_mem_singleton.mpr (by decide)
  · exact List.forall_mem_singleton.mpr (by decide)

theorem IsExponent.isPadding_of_mem (h : IsExponent s) : ∀ c ∈ s, isPadding c = false := by
  cases h with
  | missing => exact List.forall_mem_nil _
  | marked hmark hsign hdigits =>
    refine List.forall_mem_cons.mpr ⟨?_, List.forall_mem_append.mpr
      ⟨hsign.isPadding_of_mem, hdigits.isPadding_of_mem⟩⟩
    rcases hmark with rfl | rfl <;> decide

theorem IsDecimal.isPadding_of_mem (h : IsDecimal s) : ∀ c ∈ s, isPadding c = false := by
  have hoptional : ∀ ds : List Char, ds = [] ∨ IsDigits ds → ∀ c ∈ ds, isPadding c = false := by
    rintro ds (rfl | hds)
    · exact List.forall_mem_nil _
    · exact hds.isPadding_of_mem
  cases h with
  | whole hwhole hexponent =>
    exact List.forall_mem_append.mpr ⟨hwhole.isPadding_of_mem, hexponent.isPadding_of_mem⟩
  | point hwhole hplaces _ hexponent =>
    exact List.forall_mem_append.mpr ⟨hoptional _ hwhole, List.forall_mem_cons.mpr ⟨by decide,
      List.forall_mem_append.mpr ⟨hoptional _ hplaces, hexponent.isPadding_of_mem⟩⟩⟩

/-! Reading -/

theorem readReal?_isSome_iff : (readReal? s).isSome = true ↔
    ∃ u, dropUnderscores false (trimWhile isAsciiBlank (s.map plain)) = some u ∧
      (IsWord (splitSign u).2 ∨ (readDecimal (splitSign u).2).isSome = true) := by
  unfold readReal?
  rw [readUnderscored_eq]
  cases dropUnderscores false (trimWhile isAsciiBlank (s.map plain)) with
  | none => simp
  | some u =>
    simp only [Option.some.injEq, exists_eq_left']
    simp only [Option.bind_eq_bind, Option.bind_some, IsWord, ← or_assoc]
    split_ifs with hinfinite hnan
    · exact iff_of_true rfl (Or.inl (Or.inl hinfinite))
    · exact iff_of_true rfl (Or.inl (Or.inr hnan))
    · rw [or_iff_right (not_or_intro hinfinite hnan)]
      cases readDecimal (splitSign u).2 with
      | none => exact Iff.rfl
      | some r => exact Iff.rfl

/-- Only numerals are read as doubles. -/
theorem isReal_of_readReal? (h : (readReal? s).isSome = true) : IsReal s := by
  obtain ⟨u, hu, hread⟩ := readReal?_isSome_iff.mp h
  obtain ⟨before, after, hs, hbefore, hafter⟩ :=
    exists_append_trimWhile isAsciiBlank (s.map plain)
  obtain ⟨b, r, rfl, rfl, hr⟩ := List.map_eq_append_iff.mp hs
  obtain ⟨t, a, rfl, ht, rfl⟩ := List.map_eq_append_iff.mp hr
  rw [← ht] at hu
  obtain ⟨sign, body, rfl, hsign, hbody⟩ := exists_sign_of_dropUnderscores hu
  have hpadding : ∀ cs : List Char, (∀ c ∈ cs.map plain, isAsciiBlank c = true) →
      ∀ c ∈ cs, isPadding c = true := fun cs h c hc =>
    isAsciiBlank_plain.symm.trans (h _ (List.mem_map_of_mem hc))
  refine ⟨b, sign, body, a, by rw [List.append_assoc], hpadding b hbefore, hsign, ?_,
    hpadding a hafter⟩
  rcases hread with hword | hdecimal
  · rw [eq_of_dropUnderscores hbody fun c hc => ?_]
    · exact Or.inl hword
    · have hinert := hword.isInert_of_mem c hc
      exact ⟨hinert.ne_space, hinert.isDigit⟩
  · exact Or.inr (isDecimal_of_readDecimal hbody hdecimal)

/-- Without underscores and behind at most one sign a word is itself, and a decimal is one. -/
theorem exists_dropUnderscores_of_isReal {sign body : List Char} (hsign : IsSign sign)
    (hbody : IsWord body ∨ IsDecimal body) :
    ∃ u, dropUnderscores false ((sign ++ body).map plain) = some u ∧
      (IsWord (splitSign u).2 ∨ (readDecimal (splitSign u).2).isSome = true) := by
  rcases hbody with hword | hdecimal
  · have hinert := hword.isInert_of_mem
    have hplain : body.map plain = body :=
      (List.map_congr_left fun c hc => (hinert c hc).plain).trans (List.map_id' body)
    have hscan : dropUnderscores false (body.map plain) = some body := by
      rw [hplain]
      exact dropUnderscores_of_notMem fun h => (hinert _ h).ne_underscore rfl
    refine ⟨_, hsign.dropUnderscores_append hscan, Or.inl ?_⟩
    cases body with
    | nil => rcases hword with h | h | h <;> cases h
    | cons c t =>
      have hc := hinert c List.mem_cons_self
      rwa [splitSign_append hsign hc.ne_minus hc.ne_plus]
  · obtain ⟨c, t, hscan, hread, hminus, hplus⟩ := hdecimal.exists_readDecimal
    refine ⟨_, hsign.dropUnderscores_append hscan, Or.inr ?_⟩
    rwa [splitSign_append hsign hminus hplus]

theorem isSome_readReal?_of_isReal (h : IsReal s) : (readReal? s).isSome = true := by
  obtain ⟨before, sign, body, after, rfl, hbefore, hsign, hbody, hafter⟩ := h
  have hne : body ≠ [] := by
    rintro rfl
    rcases hbody with (h | h | h) | h
    · cases h
    · cases h
    · cases h
    · obtain ⟨c, t, hscan, -⟩ := h.exists_readDecimal
      cases hscan
  have hinner : ∀ c ∈ sign ++ body, isPadding c = false := by
    refine List.forall_mem_append.mpr ⟨hsign.isPadding_of_mem, ?_⟩
    rcases hbody with hword | hdecimal
    · exact fun c hc => (hword.isInert_of_mem c hc).isPadding
    · exact hdecimal.isPadding_of_mem
  have hedges : HasEdges isAsciiBlank ((sign ++ body).map plain) := by
    apply hasEdges_of_forall
    · rw [Ne, List.map_eq_nil_iff, List.append_eq_nil_iff]
      exact fun h => hne h.2
    · intro c hc
      obtain ⟨b, hb, rfl⟩ := List.mem_map.mp hc
      exact isAsciiBlank_plain.trans (hinner b hb)
  have htrim : trimWhile isAsciiBlank ((before ++ (sign ++ (body ++ after))).map plain) =
      (sign ++ body).map plain := by
    rw [← List.append_assoc sign, List.map_append, List.map_append]
    exact trimWhile_append hedges (isAsciiBlank_of_mem_map hbefore)
      (isAsciiBlank_of_mem_map hafter)
  rw [readReal?_isSome_iff, htrim]
  exact exists_dropUnderscores_of_isReal hsign hbody

/-- The texts that are read as doubles are the numerals. -/
theorem readReal?_iff : (readReal? s).isSome = true ↔ IsReal s :=
  ⟨isReal_of_readReal?, isSome_readReal?_of_isReal⟩

end
end MergeDecoration.Numeral
