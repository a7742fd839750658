/-!
Bytes in base 64, read and written. Characters outside the alphabet are skipped when reading.
-/
namespace MergeDecoration.Text.Base64

/-- The character of a value below 64. -/
def digit (n : Nat) : Char :=
  if n < 26 then Char.ofNat (65 + n)
  else if n < 52 then Char.ofNat (71 + n)
  else if n < 62 then Char.ofNat (n - 4)
  else if n = 62 then '+' else '/'

def value? (c : Char) : Option Nat :=
  let n := c.toNat
  if 'A' ≤ c ∧ c ≤ 'Z' then some (n - 65)
  else if 'a' ≤ c ∧ c ≤ 'z' then some (n - 71)
  else if '0' ≤ c ∧ c ≤ '9' then some (n + 4)
  else if c = '+' then some 62
  else if c = '/' then some 63
  else none

/-- Where a group of four characters stands: how many of them came, how many padding characters
since, and the bits not used yet. -/
structure Group where
  count : Nat := 0
  padding : Nat := 0
  bits : Nat := 0

/-- Read the bytes; a group may end early only with its padding, and then nothing more is read. -/
def decodeFrom (g : Group) : List Char → Option (List UInt8)
  | [] => if g.count = 0 then some [] else none
  | '=' :: rest =>
    if g.count < 2 then decodeFrom g rest
    else if 4 ≤ g.count + g.padding + 1 then some []
    else decodeFrom { g with padding := g.padding + 1 } rest
  | c :: rest => match value? c with
    | none => decodeFrom g rest
    | some v =>
      let bits := g.bits * 64 + v
      match g.count with
      | 0 => decodeFrom ⟨1, 0, bits⟩ rest
      | 1 => (decodeFrom ⟨2, 0, bits % 16⟩ rest).map (UInt8.ofNat (bits / 16) :: ·)
      | 2 => (decodeFrom ⟨3, 0, bits % 4⟩ rest).map (UInt8.ofNat (bits / 4) :: ·)
      | _ => (decodeFrom {} rest).map (UInt8.ofNat bits :: ·)

def decode (s : List Char) : Option (List UInt8) :=
  if s.all (·.toNat < 128) then decodeFrom {} s else none

/-- Groups of four characters for three bytes each, the last one padded. -/
def encode : List UInt8 → List Char
  | [] => []
  | [a] =>
    let n := a.toNat * 16
    [digit (n / 64), digit (n % 64), '=', '=']
  | [a, b] =>
    let n := (a.toNat * 256 + b.toNat) * 4
    [digit (n / 4096), digit (n / 64 % 64), digit (n % 64), '=']
  | a :: b :: c :: rest =>
    let n := (a.toNat * 256 + b.toNat) * 256 + c.toNat
    digit (n / 262144) :: digit (n / 4096 % 64) :: digit (n / 64 % 64) :: digit (n % 64) ::
      encode rest

end MergeDecoration.Text.Base64
