import Mathlib
import MergeDecoration.Link.Identity
import MergeDecoration.Proofs.Link.ViewLink

/-!
What a text of several lines is about. No link runs over the end of a line, and links are read in
order; so what stands behind a line counts only as far as the line leaves the question open.
-/
namespace MergeDecoration
namespace Identity

theorem firstIssue_append (xs ys : List (List Char)) :
    firstIssue (xs ++ ys) = firstIssue xs >>= fun found =>
      found.elim (firstIssue ys) fun i => .ok (some i) := by
  induction xs with
  | nil => rfl
  | cons x xs ih =>
    rw [List.cons_append, firstIssue, firstIssue]
    cases linkedIssue? x with
    | error e => rfl
    | ok found =>
      cases found with
      | none => exact ih
      | some i => rfl

theorem anyDashboard_append (isWanted : String → Bool) (xs ys : List (List Char)) :
    anyDashboard isWanted (xs ++ ys) = anyDashboard isWanted xs >>= fun found =>
      if found then .ok true else anyDashboard isWanted ys := by
  induction xs with
  | nil => rfl
  | cons x xs ih =>
    rw [List.cons_append, anyDashboard, anyDashboard]
    cases linkedDashboard? x with
    | error e => rfl
    | ok found =>
      cases found with
      | none => exact ih
      | some p =>
        simp only [bind, Except.bind]
        split
        · rfl
        · exact ih

/-- Two texts on lines of their own have the links of the first and then those of the second. The
issue that they are about is that of the first text, and that of the second only if the first leads
to none; they are a summary if the first text is one, and otherwise if the second is. A link that
cannot be read in the first text ends the search, whatever the second text holds. -/
theorem identity_append_newline (a b : String) (project : Option String) :
    ViewLink.targets (a ++ "\n" ++ b).toList =
        ViewLink.targets a.toList ++ ViewLink.targets b.toList ∧
      (issue? (a ++ "\n" ++ b) = issue? a >>= fun found =>
        found.elim (issue? b) fun i => .ok (some i)) ∧
      isSummary (a ++ "\n" ++ b) project = isSummary a project >>= fun found =>
        if found then .ok true else isSummary b project := by
  have hlines : (a ++ "\n" ++ b).toList = a.toList ++ '\n' :: b.toList := by
    simp [String.toList_append]
  have htargets : ViewLink.targets (a ++ "\n" ++ b).toList =
      ViewLink.targets a.toList ++ ViewLink.targets b.toList := by
    rw [hlines, ViewLink.targets_append_newline]
  refine ⟨htargets, ?_, ?_⟩
  · rw [issue?, htargets, firstIssue_append]
    rfl
  · rw [isSummary, htargets, anyDashboard_append]
    rfl

/-- A link that breaks off at the end of a line is none. -/
example : ViewLink.targets "[View in SonarQube](a\nb) [View in SonarQube](c)".toList =
    ["c".toList] := by
  decide +kernel

end Identity
end MergeDecoration
