import MergeDecoration.Text.Blank
import MergeDecoration.Text.Cut

/-!
The links that mark the program's own notes: `[View in SonarQube](target)`, where the target is
not empty and has neither white space nor a closing parenthesis. A link lies within one line.
-/
namespace MergeDecoration.ViewLink

def label : String := "View in SonarQube"

/-- What stands before the target. -/
def opening : List Char := '[' :: label.toList ++ [']', '(']

def isTargetChar (c : Char) : Bool := c != ')' && !Text.isBlank c

def write (target : String) : String := "[" ++ label ++ "](" ++ target ++ ")"

/-- The target of a link that starts with the text, and the text after the link. -/
def at? (s : List Char) : Option (List Char × List Char) := do
  let rest ← Text.after? opening s
  match rest.takeWhile isTargetChar, rest.dropWhile isTargetChar with
  | c :: target, ')' :: tail => some (c :: target, tail)
  | _, _ => none

theorem at?_length_lt {s target tail : List Char} (h : at? s = some (target, tail)) :
    tail.length < s.length := by
  simp only [at?, Text.after?, Option.bind_eq_bind] at h
  split at h
  · simp only [Option.bind_some] at h
    split at h
    · rename_i hd
      simp only [Option.some.injEq, Prod.mk.injEq] at h
      obtain ⟨-, rfl⟩ := h
      have := (List.dropWhile_sublist isTargetChar (l := s.drop opening.length)).length_le
      rw [hd, List.length_drop, List.length_cons] at this
      omega
    · simp at h
  · simp at h

/-- The targets of all links, from left to right. -/
def targets (s : List Char) : List (List Char) :=
  match _h : at? s with
  | some (target, tail) => target :: targets tail
  | none => match s with
    | [] => []
    | _ :: rest => targets rest
termination_by s.length
decreasing_by
  · exact at?_length_lt _h
  · simp

end MergeDecoration.ViewLink
