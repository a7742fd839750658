import Mathlib
import MergeDecoration.Link.Query
import MergeDecoration.Proofs.Lists
import MergeDecoration.Proofs.Text.Utf8

/-!
Fields of a query are read back as they were written: percent coding keeps every character, and
no coded name or value holds a separator of the query or of the address around it.
-/
namespace MergeDecoration

theorem Text.toNat_of_isAlphanum {c : Char} (h : c.isAlphanum = true) :
    48 ≤ c.toNat ∧ c.toNat ≤ 122 := by
  simp only [Char.isAlphanum, Char.isAlpha, Char.isUpper, Char.isLower, Char.isDigit,
    Bool.or_eq_true, Bool.and_eq_true, decide_eq_true_eq, ge_iff_le, UInt32.le_iff_toNat_le] at h
  have hv : c.val.toNat = c.toNat := rfl
  simp at h
  omega

namespace PercentCode

/-- Characters that stand in a coded field: those that stand for themselves, escapes and `+`. -/
def isFieldChar (c : Char) : Bool := isUnreserved c || c == '%' || c == '+'

theorem units_cons_of_ne {c : Char} (h : c ≠ '%') (rest : List Char) :
    units (c :: rest) = .char c :: units rest := by
  rw [units]
  rintro a b rest' rfl
  exact absurd rfl h

theorem units_escapeByte (b : UInt8) (rest : List Char) :
    units (escapeByte b ++ rest) = .byte b :: units rest := by
  have hb : b.toNat < 256 := b.toNat_lt
  have hv : 16 * (b.toNat / 16) + b.toNat % 16 = b.toNat := by omega
  simp only [escapeByte, List.cons_append, List.nil_append, units,
    Text.hexValue?_hexDigit (show b.toNat / 16 < 16 by omega),
    Text.hexValue?_hexDigit (show b.toNat % 16 < 16 by omega), hv, UInt8.ofNat_toNat]

theorem units_escapeBytes (bs : List UInt8) (rest : List Char) :
    units (bs.flatMap escapeByte ++ rest) = bs.map .byte ++ units rest := by
  induction bs with
  | nil => rfl
  | cons b bs ih =>
    rw [List.flatMap_cons, List.append_assoc, units_escapeByte, ih, List.map_cons, List.cons_append]

theorem joinRuns_bytes (run bs : List UInt8) (us : List Unit) :
    joinRuns run (bs.map .byte ++ us) = joinRuns (bs.reverse ++ run) us := by
  induction bs generalizing run with
  | nil => rfl
  | cons b bs ih =>
    rw [List.map_cons, List.cons_append, joinRuns, ih]
    simp

theorem isUnreserved_hexDigit {n : ℕ} (h : n < 16) : isUnreserved (Text.hexDigit n) = true := by
  have hall : ∀ m : Fin 16, isUnreserved (Text.hexDigit m) = true := by decide
  exact hall ⟨n, h⟩

theorem mem_encodeChar {c d : Char} (h : d ∈ encodeChar c) : isUnreserved d = true ∨ d = '%' := by
  unfold encodeChar at h
  split at h
  · next hc =>
    rw [List.mem_singleton] at h
    exact .inl (h ▸ hc)
  · obtain ⟨b, -, hd⟩ := List.mem_flatMap.mp h
    have hb : b.toNat < 256 := b.toNat_lt
    simp only [escapeByte, List.mem_cons, List.not_mem_nil, or_false] at hd
    rcases hd with rfl | rfl | rfl
    · exact .inr rfl
    · exact .inl (isUnreserved_hexDigit (by omega))
    · exact .inl (isUnreserved_hexDigit (by omega))

theorem isFieldChar_of_mem_encodeField {s : List Char} {d : Char} (h : d ∈ encodeField s) :
    isFieldChar d = true := by
  obtain ⟨c, -, hd⟩ := List.mem_flatMap.mp h
  split at hd
  · rw [List.mem_singleton] at hd
    exact hd ▸ rfl
  · rcases mem_encodeChar hd with hu | rfl
    · simp [isFieldChar, hu]
    · rfl

theorem encodeChar_ne_nil (c : Char) : encodeChar c ≠ [] := by
  unfold encodeChar Text.Utf8.encodeChar
  split
  · simp
  · simp only
    split_ifs <;> simp [escapeByte]

theorem encodeField_eq_nil {s : List Char} : encodeField s = [] ↔ s = [] := by
  constructor
  · intro h
    cases s with
    | nil => rfl
    | cons c s =>
      rw [encodeField, List.flatMap_cons, List.append_eq_nil_iff] at h
      split at h
      · simp at h
      · exact absurd h.1 (encodeChar_ne_nil c)
  · rintro rfl
    rfl

/-- No coded character is a plus sign, so turning plus signs back touches the coded spaces only. -/
theorem map_encodeField (s : List Char) :
    (encodeField s).map (fun c => if c = '+' then ' ' else c) =
      s.flatMap fun c => if c = ' ' then [' '] else encodeChar c := by
  rw [encodeField, List.map_flatMap]
  congr 1
  funext c
  split
  · rfl
  · have hid : ∀ d ∈ encodeChar c, (if d = '+' then ' ' else d) = d := by
      intro d hd
      rcases mem_encodeChar hd with hu | rfl
      · have : d ≠ '+' := by
          rintro rfl
          exact absurd hu (by decide)
        rw [if_neg this]
      · rfl
    rw [List.map_congr_left hid, List.map_id']

/-- The run of bytes begun before holds whole characters, which stand in front. -/
theorem joinRuns_units (before s : List Char) :
    joinRuns (Text.Utf8.encode before).reverse
      (units (s.flatMap fun c => if c = ' ' then [' '] else encodeChar c)) = before ++ s := by
  induction s generalizing before with
  | nil => simp [units, joinRuns]
  | cons c s ih =>
    rw [List.flatMap_cons]
    by_cases hc : c = ' ' ∨ isUnreserved c = true
    · have hone : (if c = ' ' then [' '] else encodeChar c) = [c] := by
        rcases hc with rfl | hu
        · rfl
        · rw [encodeChar, if_pos hu]
          split
          · next h => rw [h]
          · rfl
      have hne : c ≠ '%' := by
        rintro rfl
        exact absurd hc (by decide)
      have hrest := ih []
      rw [show (Text.Utf8.encode []).reverse = [] from rfl, List.nil_append] at hrest
      rw [hone, List.singleton_append, units_cons_of_ne hne, joinRuns, hrest,
        List.reverse_reverse, Text.Utf8.decodeLossy_encode]
    · rw [not_or] at hc
      rw [if_neg hc.1, encodeChar, if_neg hc.2, units_escapeBytes, joinRuns_bytes]
      have hrun : (Text.Utf8.encodeChar c).reverse ++ (Text.Utf8.encode before).reverse =
          (Text.Utf8.encode (before ++ [c])).reverse := by
        simp [Text.Utf8.encode]
      rw [hrun, ih (before ++ [c]), List.append_assoc, List.singleton_append]

@[simp] theorem decodeField_encodeField (s : List Char) : decodeField (encodeField s) = s := by
  rw [decodeField, map_encodeField, decode]
  exact joinRuns_units [] s

end PercentCode

namespace Text

theorem pieces_eq_splitOn (c : Char) (s : List Char) : pieces c s = s.splitOn c := by
  induction s with
  | nil => rfl
  | cons d s ih =>
    rw [pieces, List.splitOn_cons_eq_if_modifyHead, ih]
    simp only [beq_iff_eq]
    split_ifs
    · rfl
    · cases h : s.splitOn c with
      | nil => exact absurd h (List.splitOn_ne_nil c s)
      | cons p ps => rfl

end Text

namespace Query

theorem readField?_writeField (name value : List Char) :
    readField? (writeField name value) = if value = [] then none else some (name, value) := by
  have hname : '=' ∉ PercentCode.encodeField name := fun h =>
    absurd (PercentCode.isFieldChar_of_mem_encodeField h) (by decide)
  rw [readField?, writeField, Text.cutFirst_append hname]
  cases hv : PercentCode.encodeField value with
  | nil => rw [if_pos (PercentCode.encodeField_eq_nil.mp hv)]
  | cons c cs =>
    have hne : value ≠ [] := fun h => by simp [h, PercentCode.encodeField] at hv
    simp only [if_neg hne, ← hv, PercentCode.decodeField_encodeField]

theorem notMem_writeField (name value : List Char) : '&' ∉ writeField name value := by
  have hcode (s : List Char) : '&' ∉ PercentCode.encodeField s := fun h =>
    absurd (PercentCode.isFieldChar_of_mem_encodeField h) (by decide)
  simp [writeField, hcode]

/-- A query gives back its fields, those with an empty value left out. -/
theorem read_write (fields : List (String × String)) :
    read (write fields) =
      (fields.filter (·.2 ≠ "")).map fun f => (f.1.toList, f.2.toList) := by
  have hread (fs : List (String × String)) :
      (fs.map fun f => writeField f.1.toList f.2.toList).filterMap readField? =
        (fs.filter (·.2 ≠ "")).map fun f => (f.1.toList, f.2.toList) := by
    induction fs with
    | nil => rfl
    | cons f fs ih =>
      rw [List.map_cons, List.filterMap_cons, readField?_writeField, ih]
      by_cases hf : f.2 = "" <;> simp [hf]
  cases fields with
  | nil => rfl
  | cons f fs =>
    rw [read, write, Text.pieces_eq_splitOn, List.splitOn_intercalate, hread]
    · intro p hp
      obtain ⟨g, -, rfl⟩ := List.mem_map.mp hp
      exact notMem_writeField _ _
    · simp

/-- The characters of a written query. -/
def isQueryChar (c : Char) : Bool := PercentCode.isFieldChar c || c == '&' || c == '='

theorem isQueryChar_bounds {c : Char} (h : isQueryChar c = true) :
    0x20 < c.toNat ∧ c.toNat < 0x7f := by
  simp only [isQueryChar, PercentCode.isFieldChar, PercentCode.isUnreserved, Bool.or_eq_true,
    beq_iff_eq] at h
  rcases h with ((((((((ha | rfl) | rfl) | rfl) | rfl) | rfl) | rfl)) | rfl) | rfl
  · have := Text.toNat_of_isAlphanum ha
    omega
  all_goals decide

theorem isQueryChar_of_mem_writeField {name value : List Char} {c : Char}
    (h : c ∈ writeField name value) : isQueryChar c = true := by
  rw [writeField, List.mem_append, List.mem_cons] at h
  rcases h with h | rfl | h
  · simp [isQueryChar, PercentCode.isFieldChar_of_mem_encodeField h]
  · rfl
  · simp [isQueryChar, PercentCode.isFieldChar_of_mem_encodeField h]

theorem isQueryChar_of_mem_write {fields : List (String × String)} {c : Char}
    (h : c ∈ write fields) : isQueryChar c = true := by
  rcases mem_or_mem_of_mem_intercalate h with h | ⟨p, hp, h⟩
  · rw [List.mem_singleton.mp h]
    rfl
  · obtain ⟨f, -, rfl⟩ := List.mem_map.mp hp
    exact isQueryChar_of_mem_writeField h

end Query
end MergeDecoration
