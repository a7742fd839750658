/-!
Names that look alike. Two names are alike as far as they share stretches: the longest common one,
and then the longest ones on both sides of it.
-/
namespace MergeDecoration.Similar

/-- The length of the common start of two texts. -/
def common : List Char → List Char → Nat
  | c :: s, d :: t => if c = d then common s t + 1 else 0
  | _, _ => 0

/-- A common stretch: where it starts in both texts, and its length. -/
structure Stretch where
  first : Nat
  second : Nat
  length : Nat

/-- The longest common stretch; of several the first in the first text, then in the second. -/
def longest (s t : List Char) : Stretch :=
  let all := (List.range s.length).flatMap fun i =>
    (List.range t.length).map fun j => Stretch.mk i j (common (s.drop i) (t.drop j))
  all.foldl (fun best x => if best.length < x.length then x else best) ⟨0, 0, 0⟩

/-- The number of characters in common stretches. -/
def shared (fuel : Nat) (s t : List Char) : Nat :=
  match fuel with
  | 0 => 0
  | fuel + 1 =>
    let m := longest s t
    if m.length = 0 then 0
    else m.length + shared fuel (s.take m.first) (t.take m.second) +
      shared fuel (s.drop (m.first + m.length)) (t.drop (m.second + m.length))

/-- Twice the characters shared, over the characters of both. -/
def score (name candidate : String) : Nat × Nat :=
  let (s, t) := (candidate.toList, name.toList)
  (2 * shared (s.length + t.length) s t, s.length + t.length)

private def precedes (a b : (Nat × Nat) × String) : Bool :=
  let (l, r) := (a.1.1 * b.1.2, b.1.1 * a.1.2)
  r < l || (l == r && b.2 < a.2)

private def insertBest (x : (Nat × Nat) × String) :
    List ((Nat × Nat) × String) → List ((Nat × Nat) × String)
  | [] => [x]
  | y :: ys => if precedes x y then x :: y :: ys else y :: insertBest x ys

/-- The candidates with a score of three fifths or more, best first, three at most. -/
def among (candidates : List String) (name : String) : List String :=
  let scored := candidates.map fun c => (score name c, c)
  let good := scored.filter fun x => 3 * x.1.2 ≤ 5 * x.1.1
  ((good.foldr insertBest []).take 3).map (·.2)

end MergeDecoration.Similar
