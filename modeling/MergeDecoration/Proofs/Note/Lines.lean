import Mathlib
import MergeDecoration.Note.Summary
import MergeDecoration.Proofs.Link.Query
import MergeDecoration.Proofs.Link.ViewLink
import MergeDecoration.Proofs.Text.Case

/-!
The lines of the program's own notes. An opening of a link in a line is one in the free text that
the line holds: the fixed words around it neither open a link nor complete one.
-/
namespace MergeDecoration

open ViewLink

theorem not_opens_of_notMem {s : List Char} (h : '[' ∉ s) : ¬Opens s := fun ho =>
  h (ho.subset (by decide))

theorem not_opens_title (s : String) : ¬Opens (Text.title s).toList := fun h =>
  Text.not_infix_title s (List.IsInfix.trans (by decide) h)

theorem not_opens_typeLabel (type : String) : ¬Opens (typeLabel type).toList := by
  unfold typeLabel
  cases hl : typeLabels.lookup type with
  | none => exact not_opens_title _
  | some label =>
    have hmem : label ∈ typeLabels.map (·.2) := by
      obtain ⟨l₁, l₂, hsplit, -⟩ := List.lookup_eq_some_iff.mp hl
      simp [hsplit]
    have hall : ∀ l ∈ typeLabels.map (·.2), ¬Opens l.toList := by decide
    exact hall label hmem

theorem not_opens_headline (severity type : String) :
    ¬Opens ("**[" ++ Text.upper severity ++ "]** " ++ typeLabel type).toList := by
  have hparts : ("**[" ++ Text.upper severity ++ "]** " ++ typeLabel type).toList =
      ['*', '*', '['] ++ (Text.upper severity).toList ++ [']'] ++ '*' :: '*' :: ' ' ::
        (typeLabel type).toList := by simp
  rw [hparts]
  intro h
  rcases opens_of_separated (by decide) h with h | h
  · have hi : 'i' ∈ ['*', '*', '['] ++ (Text.upper severity).toList ++ [']'] :=
      h.subset (by decide)
    simp [Text.small_i_notMem_upper] at hi
  · exact not_opens_typeLabel type (opens_of_notMem_left (a := ['*', ' ']) (by decide) h)

/-- The links of a rule's line are those of the rule. -/
theorem targets_ruleLine (rule : String) :
    targets ("_Rule: `" ++ rule ++ "`_").toList = targets rule.toList := by
  have hparts : ("_Rule: `" ++ rule ++ "`_").toList = "_Rule: `".toList ++ (rule.toList ++
      "`_".toList) := by simp
  rw [hparts, targets_append_of_bracket_notMem (by decide),
    targets_append_of_parenthesis_notMem _ (by decide)]

/-- A text before a parenthesis that a blank sets off does not open a link together with it. -/
theorem not_opens_parenthesis {s t : List Char} (hs : ¬Opens s) (ht : 'V' ∉ t) :
    ¬Opens (s ++ ' ' :: '(' :: t) := by
  intro h
  rcases List.infix_append_iff_ne_nil.mp h with h | h | ⟨l₁, l₂, -, hne, heq, -, hpre⟩
  · exact hs h
  · have hv : 'V' ∈ ' ' :: '(' :: t := h.subset (by decide)
    simp [ht] at hv
  · have hsuf : l₂ <:+ opening := ⟨l₁, heq.symm⟩
    match l₂, hne with
    | [c], _ =>
      obtain ⟨rfl, -⟩ := List.cons_prefix_cons.mp hpre
      exact absurd hsuf (by decide)
    | c :: d :: l, _ =>
      obtain ⟨rfl, hrest⟩ := List.cons_prefix_cons.mp hpre
      obtain ⟨rfl, -⟩ := List.cons_prefix_cons.mp hrest
      have hin : [' ', '('] <:+: opening :=
        (List.prefix_append [' ', '('] l).isInfix.trans hsuf.isInfix
      exact absurd hin (by decide)

theorem not_opens_unanchoredLine {i : Issue} (hm : ¬Opens i.message.shown.toList)
    (hp : ¬Opens i.path.shown.toList) (hk : ¬Opens i.key.toList) :
    ¬Opens (Analysis.unanchoredLine i).toList := by
  have htext : ¬Opens (i.message.orElse (.text i.key)).shown.toList := by
    unfold Value.orElse
    split
    · exact hm
    · exact hk
  have hend : ¬Opens ((i.message.orElse (.text i.key)).shown.toList ++
      ' ' :: '(' :: ((Text.lower i.severity).toList ++ [')'])) :=
    not_opens_parenthesis htext (by simp [Text.capital_v_notMem_lower])
  intro h
  simp only [Analysis.unanchoredLine, String.toList_append, List.append_assoc] at h
  have hrest := opens_of_notMem_left (by decide) h
  split at hrest
  · simp only [String.toList_append, List.append_assoc] at hrest
    rw [show "`: ".toList = '`' :: ": ".toList from rfl] at hrest
    rcases opens_of_separated (a := []) (by decide) hrest with h | h
    · exact absurd h (by decide)
    · rcases opens_of_separated (by decide) h with h | h
      · exact hp h
      · exact hend (opens_of_notMem_left (by decide) h)
  · exact hend hrest

theorem bracket_notMem_toString (n : ℕ) : '[' ∉ (toString n).toList := by
  rw [Nat.toString_eq_repr, Nat.toList_repr]
  intro h
  exact absurd (Nat.isDigit_of_mem_toDigits (by decide) (by decide) h) (by decide)

theorem bracket_notMem_toFixed (x : Binary64) (places : ℕ) : '[' ∉ (x.toFixed places).toList := by
  have hdigits (n : ℕ) : '[' ∉ Nat.toDigits 10 n := fun h =>
    absurd (Nat.isDigit_of_mem_toDigits (by decide) (by decide) h) (by decide)
  have hzeros (k n : ℕ) : '[' ∉ List.replicate k '0' ++ Nat.toDigits 10 n := by
    simp [hdigits, List.mem_replicate]
  have hsign : '[' ∉ (if x.isNegative then "-" else "").toList := by
    split <;> decide
  unfold Binary64.toFixed
  split
  · decide
  · simp only
    split
    · rw [String.toList_append, List.mem_append, not_or]
      exact ⟨hsign, by decide⟩
    · rw [String.toList_append, List.mem_append, not_or, String.toList_ofList, List.mem_append,
        not_or]
      refine ⟨hsign, fun h => hzeros _ _ (List.mem_of_mem_take h), ?_⟩
      split
      · simp
      · rw [List.mem_cons, not_or]
        exact ⟨by decide, fun h => hzeros _ _ (List.mem_of_mem_drop h)⟩

theorem bracket_notMem_statistics (a : Analysis) (issues : List Issue) :
    '[' ∉ (a.statistics issues).toList := by
  unfold Analysis.statistics
  simp only [String.toList_append, List.mem_append, not_or]
  refine ⟨⟨⟨⟨by decide, bracket_notMem_toString _⟩, by decide⟩, ?_⟩, ?_⟩
  · split
    · decide
    · simp only [String.toList_append, List.mem_append, not_or]
      exact ⟨⟨by decide, bracket_notMem_toString _⟩, by decide⟩
  · cases a.newCoverage with
    | none => decide
    | some x => simp [bracket_notMem_toFixed]

theorem not_opens_tableLine (r : CountRow) : ¬Opens r.line.toList := by
  have hcell (n : ℕ) : '[' ∉ (CountRow.cell n).toList := by
    unfold CountRow.cell
    split
    · decide
    · exact bracket_notMem_toString n
  have hcells : '[' ∉ (" | ".intercalate (r.cells.map CountRow.cell)).toList := by
    rw [String.toList_intercalate, List.map_map]
    intro h
    rcases mem_or_mem_of_mem_intercalate h with h | ⟨p, hp, h⟩
    · exact absurd h (by decide)
    · obtain ⟨n, -, rfl⟩ := List.mem_map.mp hp
      exact hcell n h
  have htail : '[' ∉ (" | ".intercalate (r.cells.map CountRow.cell)).toList ++
      (" | ".toList ++ ((toString r.total).toList ++ " |".toList)) := by
    simp only [List.mem_append, not_or]
    exact ⟨hcells, by decide, bracket_notMem_toString _, by decide⟩
  have hparts : r.line.toList = "| ".toList ++ (((typeLabel r.type).toList ++ [' ']) ++
      '|' :: ' ' :: ((" | ".intercalate (r.cells.map CountRow.cell)).toList ++
        (" | ".toList ++ ((toString r.total).toList ++ " |".toList)))) := by
    simp [CountRow.line]
  rw [hparts]
  intro h
  rcases opens_of_separated (by decide) (opens_of_notMem_left (by decide) h) with h | h
  · exact not_opens_typeLabel r.type (opens_of_notMem_right (by decide) h)
  · exact not_opens_of_notMem htail (opens_of_notMem_left (a := [' ']) (by decide) h)

/-- No line of a summary but the last opens a link. -/
theorem not_opens_summaryLines {a : Analysis} (h : ∀ i ∈ a.openIssues,
    ¬Opens i.message.shown.toList ∧ ¬Opens i.path.shown.toList ∧ ¬Opens i.key.toList) :
    ∀ l ∈ a.summaryLines, ¬Opens l.toList := by
  intro l hl
  simp only [Analysis.summaryLines, List.mem_append, List.mem_cons, List.not_mem_nil,
    or_false] at hl
  rcases hl with (((rfl | rfl | rfl) | hl) | hl) | rfl
  · decide
  · split <;> decide
  · apply not_opens_of_notMem
    rw [String.toList_append, List.mem_append, not_or]
    exact ⟨bracket_notMem_statistics a _, by decide⟩
  · unfold Analysis.tableLines at hl
    split at hl
    · simp at hl
    · simp only [List.mem_cons, List.mem_map] at hl
      rcases hl with rfl | rfl | ⟨r, -, rfl⟩
      · decide
      · decide
      · exact not_opens_tableLine r
  · rw [Analysis.unanchoredLines] at hl
    cases hf : a.openIssues.filter (·.line.isNone) with
    | nil => simp [hf] at hl
    | cons i is =>
      rw [hf] at hl
      rcases List.mem_cons.mp hl with rfl | hl
      · decide
      · obtain ⟨j, hj, rfl⟩ := List.mem_map.mp hl
        have hopen : j ∈ a.openIssues := (List.mem_filter.mp (hf ▸ hj)).1
        obtain ⟨hm, hp, hk⟩ := h j hopen
        exact not_opens_unanchoredLine hm hp hk
  · decide

end MergeDecoration
