import Mathlib
import MergeDecoration.Proofs.Link.Location
import MergeDecoration.Proofs.Text.Edges
import MergeDecoration.Remote

/-!
Paths of projects in remotes. What a remote has around the path, slashes and one ending `.git`, is
trimmed off again, and nothing else is.
-/
namespace MergeDecoration

namespace Text

variable {before after t : List Char}

/-- What follows some occurrence of a character follows the first, or the character comes again. -/
theorem eq_or_mem_of_cutFirst {c : Char} (h : (cutFirst c (before ++ c :: after)).2 = some t) :
    t = after ∨ c ∈ t := by
  induction before with
  | nil =>
    rw [List.nil_append, cutFirst, if_pos rfl] at h
    exact Or.inl (Option.some.inj h).symm
  | cons d before ih =>
    rw [List.cons_append, cutFirst] at h
    split_ifs at h with hd
    · obtain rfl := Option.some.inj h
      exact Or.inr (List.mem_append_right _ List.mem_cons_self)
    · exact ih h

end Text

namespace Remote

/-- Letters and digits, low lines, points and hyphens. Beyond ASCII letters are not told from other
characters. -/
def isSegmentChar (c : Char) : Bool :=
  c.isAlphanum || c == '_' || c == '.' || c == '-' || decide (0x80 ≤ c.toNat)

/-- A path of two or more segments, none of them empty. -/
def IsProjectPath (path : String) : Prop :=
  ∃ segments : List String, 2 ≤ segments.length ∧
    (∀ s ∈ segments, s ≠ "" ∧ ∀ c ∈ s.toList, isSegmentChar c = true) ∧
    path = "/".intercalate segments

/-- Segments that are not empty, joined by slashes, neither start nor end with one. -/
theorem hasEdges_intercalate {segments : List (List Char)} (hne : segments ≠ [])
    (h : ∀ s ∈ segments, s ≠ [] ∧ '/' ∉ s) :
    Text.HasEdges (· == '/') (['/'].intercalate segments) := by
  have hedges : ∀ s ∈ segments, Text.HasEdges (· == '/') s := by
    intro s hs
    apply Text.hasEdges_of_forall (h s hs).1
    intro c hc
    rw [beq_eq_false_iff_ne]
    rintro rfl
    exact (h s hs).2 hc
  clear h
  induction segments with
  | nil => exact absurd rfl hne
  | cons s rest ih =>
    obtain ⟨hs, hrest⟩ := List.forall_mem_cons.mp hedges
    cases rest with
    | nil => rwa [List.intercalate_singleton]
    | cons t rest =>
      rw [List.intercalate_cons_cons, List.append_assoc]
      exact hs.append (ih (List.cons_ne_nil t rest) hrest) ['/']

namespace IsProjectPath

variable {path : String}

theorem hasEdges (h : IsProjectPath path) : Text.HasEdges (· == '/') path.toList := by
  obtain ⟨segments, hlength, hsegments, rfl⟩ := h
  rw [String.toList_intercalate]
  apply hasEdges_intercalate
  · intro hnil
    rw [List.map_eq_nil_iff] at hnil
    subst hnil
    cases hlength
  · intro cs hcs
    obtain ⟨s, hs, rfl⟩ := List.mem_map.mp hcs
    obtain ⟨hne, hplain⟩ := hsegments s hs
    exact ⟨fun hnil => hne (String.toList_eq_nil_iff.mp hnil),
      fun hm => absurd (hplain _ hm) (by decide)⟩

theorem slash_mem (h : IsProjectPath path) : '/' ∈ path.toList := by
  obtain ⟨segments, hlength, -, rfl⟩ := h
  cases segments with
  | nil => cases hlength
  | cons s rest =>
    cases rest with
    | nil => simp at hlength
    | cons t rest =>
      rw [String.toList_intercalate, List.map_cons, List.map_cons, List.intercalate_cons_cons]
      simp

theorem plain (h : IsProjectPath path) {c : Char} (hc : c ∈ path.toList) :
    isSegmentChar c = true ∨ c = '/' := by
  obtain ⟨segments, -, hsegments, rfl⟩ := h
  rw [String.toList_intercalate] at hc
  rcases mem_or_mem_of_mem_intercalate hc with hc | ⟨cs, hcs, hc⟩
  · exact Or.inr (List.mem_singleton.mp hc)
  · obtain ⟨s, hs, rfl⟩ := List.mem_map.mp hcs
    exact Or.inl ((hsegments s hs).2 c hc)

end IsProjectPath

theorem isPathChar_of_isSegmentChar {c : Char} (h : isSegmentChar c = true) :
    Address.isPathChar c = true := by
  by_cases hascii : c.toNat < 0x80
  · have hall : isSegmentChar c = true → Address.isPathChar c = true :=
      of_decide_eq_true (Text.forall_ascii
        (p := fun c => isSegmentChar c = true → Address.isPathChar c = true) (by decide) hascii)
    exact hall h
  · have hne : ∀ d ∈ "?#;".toList, c ≠ d := by
      rintro d hd rfl
      have hlow := List.all_eq_true.mp (by decide : "?#;".toList.all (·.toNat < 0x80) = true) c hd
      exact hascii (of_decide_eq_true hlow)
    have hnot : "?#;".toList.contains c = false := by
      rw [List.contains_eq_mem, decide_eq_false_iff_not]
      exact fun hm => hne c hm rfl
    have hlow : 0x20 < c.toNat := by omega
    rw [Address.isPathChar, hnot, decide_eq_true hlow]
    rfl

/-- What may follow the path in a remote: the ending `.git`, unless the path has it already. -/
def IsEnding (path ending : String) : Prop :=
  ending = ".git" ∨ ending = "" ∧ ¬".git".toList <:+ path.toList

/-- The path of a project is what a remote has between slashes and before its ending. -/
theorem projectPath_append {path ending : String} {before after : List Char}
    (hpath : IsProjectPath path) (hending : IsEnding path ending)
    (hbefore : ∀ c ∈ before, (c == '/') = true) (hafter : ∀ c ∈ after, (c == '/') = true) :
    projectPath (before ++ (path.toList ++ ending.toList ++ after)) = path.toList := by
  rcases hending with rfl | ⟨rfl, hnot⟩
  · have hgit : Text.HasEdges (· == '/') ".git".toList :=
      ⟨⟨'.', ['g', 'i', 't'], rfl, rfl⟩, ⟨['.', 'g', 'i'], 't', rfl, rfl⟩⟩
    have hedges : Text.HasEdges (· == '/') (path.toList ++ ".git".toList) := by
      simpa using hpath.hasEdges.append hgit []
    rw [projectPath, Text.trimWhile_append hedges hbefore hafter,
      if_pos (List.isSuffixOf_iff_suffix.mpr (List.suffix_append _ _)), List.length_append,
      Nat.add_sub_cancel, List.take_left]
  · rw [String.toList_empty, List.append_nil, projectPath,
      Text.trimWhile_append hpath.hasEdges hbefore hafter,
      if_neg (by rwa [List.isSuffixOf_iff_suffix])]

/-- Of a path with slashes around it at most the ending is lost. -/
theorem slash_mem_projectPath {path : String} {before after : List Char}
    (hpath : IsProjectPath path) (hbefore : ∀ c ∈ before, (c == '/') = true)
    (hafter : ∀ c ∈ after, (c == '/') = true) :
    '/' ∈ projectPath (before ++ (path.toList ++ after)) := by
  rw [projectPath, Text.trimWhile_append hpath.hasEdges hbefore hafter]
  split_ifs with hgit
  · obtain ⟨rest, hrest⟩ := List.isSuffixOf_iff_suffix.mp hgit
    have hmem : '/' ∈ rest ∨ '/' ∈ ".git".toList := by
      rw [← List.mem_append, hrest]
      exact hpath.slash_mem
    rw [← hrest, List.length_append, Nat.add_sub_cancel, List.take_left]
    exact hmem.resolve_right (by decide)
  · exact hpath.slash_mem

end Remote
end MergeDecoration
