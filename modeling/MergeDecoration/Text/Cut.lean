/-!
Cutting texts at single characters.
-/
namespace MergeDecoration.Text

/-- The text before the first `c` and, if there is one, the text after it. -/
def cutFirst (c : Char) : List Char → List Char × Option (List Char)
  | [] => ([], none)
  | d :: rest =>
    if d = c then ([], some rest)
    else
      let (before, after) := cutFirst c rest
      (d :: before, after)

/-- The text after the last `c`, which is the whole text if there is none. -/
def afterLast (c : Char) (s : List Char) : List Char :=
  (s.reverse.takeWhile (· != c)).reverse

/-- The pieces between all `c`; there is always at least one. -/
def pieces (c : Char) : List Char → List (List Char)
  | [] => [[]]
  | d :: rest =>
    if d = c then [] :: pieces c rest
    else match pieces c rest with
      | [] => [[d]]
      | p :: ps => (d :: p) :: ps

/-- What follows `start`, if the text begins with it. -/
def after? (start : List Char) (s : List Char) : Option (List Char) :=
  if start.isPrefixOf s then some (s.drop start.length) else none

@[simp] theorem cutFirst_nil (c : Char) : cutFirst c [] = ([], none) := rfl

theorem cutFirst_of_notMem {c : Char} {s : List Char} (h : c ∉ s) : cutFirst c s = (s, none) := by
  induction s with
  | nil => rfl
  | cons d rest ih =>
    simp only [List.mem_cons, not_or] at h
    simp [cutFirst, Ne.symm h.1, ih h.2]

theorem cutFirst_append {c : Char} {s : List Char} (h : c ∉ s) (t : List Char) :
    cutFirst c (s ++ c :: t) = (s, some t) := by
  induction s with
  | nil => simp [cutFirst]
  | cons d rest ih =>
    simp only [List.mem_cons, not_or] at h
    simp [cutFirst, Ne.symm h.1, ih h.2]

end MergeDecoration.Text
