/-!
Sets of code points given by their edges: the points at which membership changes, in rising
order. The first edge opens the set.
-/
namespace MergeDecoration.Text

/-- Whether an odd number of edges lies at or below `n`. -/
def withinEdges : List Nat → Nat → Bool
  | [], _ => false
  | e :: es, n => if n < e then false else !withinEdges es n

end MergeDecoration.Text
