import MergeDecoration.Text.Hex

/-!
UTF-8 as lists of bytes. Reading cuts the bytes into pieces: characters and malformed stretches,
each of these as long as a character could still have begun there.
-/
namespace MergeDecoration.Text.Utf8

def encodeChar (c : Char) : List UInt8 :=
  let n := c.toNat
  let tail (k : Nat) : UInt8 := UInt8.ofNat (0x80 + n / Nat.pow 64 k % 64)
  if n < 0x80 then [UInt8.ofNat n]
  else if n < 0x800 then [UInt8.ofNat (0xc0 + n / 64), tail 0]
  else if n < 0x10000 then [UInt8.ofNat (0xe0 + n / 4096), tail 1, tail 0]
  else [UInt8.ofNat (0xf0 + n / 262144), tail 2, tail 1, tail 0]

def encode (s : List Char) : List UInt8 := s.flatMap encodeChar

inductive Reason
  | invalidStart
  | invalidContinuation
  | unexpectedEnd
  deriving DecidableEq

def Reason.message : Reason → String
  | .invalidStart => "invalid start byte"
  | .invalidContinuation => "invalid continuation byte"
  | .unexpectedEnd => "unexpected end of data"

/-- The number of continuation bytes that a lead byte announces, with the bounds of the first. -/
def announced? (b : Nat) : Option (Nat × Nat × Nat) :=
  if b < 0x80 then some (0, 0, 0)
  else if b < 0xc2 then none
  else if b < 0xe0 then some (1, 0x80, 0xbf)
  else if b = 0xe0 then some (2, 0xa0, 0xbf)
  else if b = 0xed then some (2, 0x80, 0x9f)
  else if b < 0xf0 then some (2, 0x80, 0xbf)
  else if b = 0xf0 then some (3, 0x90, 0xbf)
  else if b < 0xf4 then some (3, 0x80, 0xbf)
  else if b = 0xf4 then some (3, 0x80, 0x8f)
  else none

/-- Read `need` continuation bytes, the first within `lo` and `hi`, onto the code point `acc`.
The count of bytes read comes first. -/
def follow : (need lo hi acc : Nat) → List UInt8 → Nat × Except Reason Nat × List UInt8
  | 0, _, _, acc, rest => (0, .ok acc, rest)
  | _ + 1, _, _, _, [] => (0, .error .unexpectedEnd, [])
  | need + 1, lo, hi, acc, b :: rest =>
    if lo ≤ b.toNat ∧ b.toNat ≤ hi then
      let (n, r, rest) := follow need 0x80 0xbf (acc * 64 + (b.toNat - 0x80)) rest
      (n + 1, r, rest)
    else (0, .error .invalidContinuation, b :: rest)

theorem follow_length_le (need lo hi acc : Nat) (bs : List UInt8) :
    (follow need lo hi acc bs).2.2.length ≤ bs.length := by
  induction need generalizing lo hi acc bs with
  | zero => simp [follow]
  | succ need ih =>
    cases bs with
    | nil => simp [follow]
    | cons b rest =>
      simp only [follow]
      split
      · simpa using Nat.le_succ_of_le (ih 0x80 0xbf (acc * 64 + (b.toNat - 0x80)) rest)
      · simp

inductive Piece
  | char (c : Char)
  | malformed (reason : Reason) (first : UInt8) (width : Nat)
  deriving DecidableEq

/-- The payload bits of a lead byte that announces `need` more bytes. -/
def leadBits (need b : Nat) : Nat :=
  match need with
  | 0 => b
  | 1 => b - 0xc0
  | 2 => b - 0xe0
  | _ => b - 0xf0

def pieces : List UInt8 → List Piece
  | [] => []
  | b :: rest =>
    match announced? b.toNat with
    | none => .malformed .invalidStart b 1 :: pieces rest
    | some (need, lo, hi) =>
      have := follow_length_le need lo hi (leadBits need b.toNat) rest
      match h : follow need lo hi (leadBits need b.toNat) rest with
      | (_, .ok n, rest') => .char (Char.ofNat n) :: pieces rest'
      | (k, .error reason, rest') => .malformed reason b (k + 1) :: pieces rest'
termination_by bs => bs.length
decreasing_by all_goals (simp_all; try omega)

/-- Where and why bytes are no UTF-8. -/
structure Fault where
  position : Nat
  width : Nat
  first : UInt8
  reason : Reason
  deriving DecidableEq

def Fault.message (f : Fault) : String :=
  let place :=
    if f.width = 1 then
      "byte 0x" ++ String.ofList (hexDigits 2 f.first.toNat) ++ s!" in position {f.position}"
    else s!"bytes in position {f.position}-{f.position + f.width - 1}"
  s!"'utf-8' codec can't decode {place}: {f.reason.message}"

private def collect (position : Nat) : List Piece → Except Fault (List Char)
  | [] => .ok []
  | .char c :: ps => (collect (position + (encodeChar c).length) ps).map (c :: ·)
  | .malformed reason first width :: _ => .error ⟨position, width, first, reason⟩

/-- All characters, or the first malformed stretch. -/
def decode (bs : List UInt8) : Except Fault (List Char) := collect 0 (pieces bs)

/-- All characters, with U+FFFD for each malformed stretch. -/
def decodeLossy (bs : List UInt8) : List Char :=
  (pieces bs).map fun
    | .char c => c
    | .malformed .. => Char.ofNat 0xfffd

end MergeDecoration.Text.Utf8
