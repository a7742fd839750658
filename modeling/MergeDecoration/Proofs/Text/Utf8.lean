import Mathlib
import MergeDecoration.Text.Utf8

/-!
What is encoded is read back: a lead byte announces as many continuation bytes as were written, and
they add up to the code point.
-/
namespace MergeDecoration.Text.Utf8

/-- A continuation byte within its bounds is read onto the code point. -/
theorem follow_cons {need lo hi acc n m : ℕ} {rest rest' : List UInt8} (hn : n < 256)
    (hb : lo ≤ n ∧ n ≤ hi)
    (h : (follow need 0x80 0xbf (acc * 64 + (n - 0x80)) rest).2 = (.ok m, rest')) :
    (follow (need + 1) lo hi acc (UInt8.ofNat n :: rest)).2 = (.ok m, rest') := by
  have hv : (UInt8.ofNat n).toNat = n := by simp [Nat.mod_eq_of_lt hn]
  simp only [follow, hv, if_pos hb, ← h]

/-- A lead byte together with the continuation bytes it announces is one character. -/
theorem pieces_cons {b need lo hi n : ℕ} {rest rest' : List UInt8} (hb : b < 256)
    (ha : announced? b = some (need, lo, hi))
    (h : (follow need lo hi (leadBits need b) rest).2 = (.ok n, rest')) :
    pieces (UInt8.ofNat b :: rest) = .char (Char.ofNat n) :: pieces rest' := by
  have hv : (UInt8.ofNat b).toNat = b := by simp [Nat.mod_eq_of_lt hb]
  rw [pieces]
  split
  · next hnone => simp [hv, ha] at hnone
  · next hsome =>
    rw [hv, ha] at hsome
    obtain ⟨rfl, rfl, rfl⟩ : need = _ ∧ lo = _ ∧ hi = _ := by simpa using hsome
    split
    · next heq =>
      rw [hv] at heq
      rw [heq] at h
      obtain ⟨rfl, rfl⟩ : _ = n ∧ _ = rest' := by simpa using h
      rfl
    · next heq =>
      rw [hv] at heq
      rw [heq] at h
      simp at h

private theorem leadBits_one (b : ℕ) : leadBits 1 b = b - 0xc0 := rfl

private theorem leadBits_two (b : ℕ) : leadBits 2 b = b - 0xe0 := rfl

private theorem leadBits_three (b : ℕ) : leadBits 3 b = b - 0xf0 := rfl

theorem pieces_encodeChar (c : Char) (rest : List UInt8) :
    pieces (encodeChar c ++ rest) = .char c :: pieces rest := by
  have hc : c.toNat < 0xd800 ∨ 0xdfff < c.toNat ∧ c.toNat < 0x110000 := c.valid
  rw [show Piece.char c = .char (Char.ofNat c.toNat) by rw [Char.ofNat_toNat]]
  unfold encodeChar
  generalize c.toNat = n at hc ⊢
  simp only [Nat.pow_eq, pow_zero, pow_one, Nat.div_one]
  split_ifs with h1 h2 h3
  · have ha : announced? n = some (0, 0, 0) := by simp [announced?, h1]
    exact pieces_cons (by omega) ha rfl
  · have ha : announced? (0xc0 + n / 64) = some (1, 0x80, 0xbf) := by
      unfold announced?
      rw [if_neg (by omega), if_neg (by omega), if_pos (by omega)]
    have hn : (0xc0 + n / 64 - 0xc0) * 64 + (0x80 + n % 64 - 0x80) = n := by omega
    apply pieces_cons (by omega) ha
    apply follow_cons (by omega) (by omega)
    rw [leadBits_one, hn, follow]
    rfl
  · have ha : ∃ lo hi, announced? (0xe0 + n / 4096) = some (2, lo, hi) ∧
        lo ≤ 0x80 + n / 64 % 64 ∧ 0x80 + n / 64 % 64 ≤ hi := by
      unfold announced?
      rw [if_neg (by omega), if_neg (by omega), if_neg (by omega)]
      split_ifs <;> first | exact ⟨_, _, rfl, by omega, by omega⟩ | omega
    obtain ⟨lo, hi, ha, hlo⟩ := ha
    have hn : ((0xe0 + n / 4096 - 0xe0) * 64 + (0x80 + n / 64 % 64 - 0x80)) * 64 +
        (0x80 + n % 64 - 0x80) = n := by omega
    apply pieces_cons (by omega) ha
    apply follow_cons (by omega) hlo
    apply follow_cons (by omega) (by omega)
    rw [leadBits_two, hn, follow]
    rfl
  · have ha : ∃ lo hi, announced? (0xf0 + n / 262144) = some (3, lo, hi) ∧
        lo ≤ 0x80 + n / 64 ^ 2 % 64 ∧ 0x80 + n / 64 ^ 2 % 64 ≤ hi := by
      unfold announced?
      rw [if_neg (by omega), if_neg (by omega), if_neg (by omega), if_neg (by omega),
        if_neg (by omega), if_neg (by omega)]
      split_ifs <;> first | exact ⟨_, _, rfl, by omega, by omega⟩ | omega
    obtain ⟨lo, hi, ha, hlo⟩ := ha
    have hn : (((0xf0 + n / 262144 - 0xf0) * 64 + (0x80 + n / 64 ^ 2 % 64 - 0x80)) * 64 +
        (0x80 + n / 64 % 64 - 0x80)) * 64 + (0x80 + n % 64 - 0x80) = n := by omega
    apply pieces_cons (by omega) ha
    apply follow_cons (by omega) hlo
    apply follow_cons (by omega) (by omega)
    apply follow_cons (by omega) (by omega)
    rw [leadBits_three, hn, follow]
    rfl

/-- Reading what was written gives the same characters. -/
theorem pieces_encode (s : List Char) : pieces (encode s) = s.map .char := by
  induction s with
  | nil => simp [encode, pieces]
  | cons c s ih =>
    rw [encode, List.flatMap_cons, pieces_encodeChar, ← encode, ih, List.map_cons]

@[simp] theorem decodeLossy_encode (s : List Char) : decodeLossy (encode s) = s := by
  simp [decodeLossy, pieces_encode, Function.comp_def]

end MergeDecoration.Text.Utf8
