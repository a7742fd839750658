/-!
White space, the ends of lines, and trimming.
-/
namespace MergeDecoration.Text

/-- White space of Unicode 14, with the four ASCII separators U+001C to U+001F. -/
def isBlank (c : Char) : Bool :=
  let n := c.toNat
  (9 ≤ n && n ≤ 13) || (28 ≤ n && n ≤ 32) || n == 0x85 || n == 0xa0 || n == 0x1680 ||
    (0x2000 ≤ n && n ≤ 0x200a) || n == 0x2028 || n == 0x2029 || n == 0x202f || n == 0x205f ||
    n == 0x3000

/-- Characters that end a line. -/
def isLineBreak (c : Char) : Bool :=
  let n := c.toNat
  (10 ≤ n && n ≤ 13) || (28 ≤ n && n ≤ 30) || n == 0x85 || n == 0x2028 || n == 0x2029

/-- Drop the longest tail whose characters all satisfy `p`. -/
def dropTailWhile (p : Char → Bool) (s : List Char) : List Char :=
  (s.reverse.dropWhile p).reverse

/-- Drop the longest head and tail whose characters all satisfy `p`. -/
def trimWhile (p : Char → Bool) (s : List Char) : List Char :=
  dropTailWhile p (s.dropWhile p)

@[simp] theorem dropTailWhile_nil (p : Char → Bool) : dropTailWhile p [] = [] := rfl

/-- Text without surrounding white space. -/
def trim (s : String) : String := String.ofList (trimWhile isBlank s.toList)

theorem dropWhile_isBlank {s : List Char} (h : s.head?.any (!isBlank ·) = true) :
    s.dropWhile isBlank = s := by
  cases s with
  | nil => rfl
  | cons c cs =>
    rw [List.head?_cons, Option.any_some, Bool.not_eq_true'] at h
    rw [List.dropWhile_cons_of_neg (by rw [h]; exact Bool.false_ne_true)]

/-- Nothing is trimmed off a text that neither starts nor ends with white space. -/
theorem trim_append {s t : String} (hs : s.toList.head?.any (!isBlank ·) = true)
    (ht : t.toList.getLast?.any (!isBlank ·) = true) : trim (s ++ t) = s ++ t := by
  have hhead : (s ++ t).toList.head?.any (!isBlank ·) = true := by
    rw [String.toList_append, List.head?_append]
    cases h : s.toList.head? with
    | none => rw [h] at hs; cases hs
    | some c => rwa [h] at hs
  have hlast : (s ++ t).toList.reverse.head?.any (!isBlank ·) = true := by
    rw [List.head?_reverse, String.toList_append, List.getLast?_append]
    cases h : t.toList.getLast? with
    | none => rw [h] at ht; cases ht
    | some c => rwa [h] at ht
  rw [trim, trimWhile, dropWhile_isBlank hhead, dropTailWhile, dropWhile_isBlank hlast,
    List.reverse_reverse, String.ofList_toList]

/-- What is cut off around a text satisfies `p`. -/
theorem exists_append_trimWhile (p : Char → Bool) (s : List Char) :
    ∃ before after, s = before ++ (trimWhile p s ++ after) ∧
      (∀ c ∈ before, p c = true) ∧ ∀ c ∈ after, p c = true := by
  refine ⟨s.takeWhile p, ((s.dropWhile p).reverse.takeWhile p).reverse, ?_, ?_, ?_⟩
  · rw [trimWhile, dropTailWhile, ← List.reverse_append, List.takeWhile_append_dropWhile,
      List.reverse_reverse, List.takeWhile_append_dropWhile]
  · exact List.all_eq_true.mp List.all_takeWhile
  · intro c hc
    exact List.all_eq_true.mp List.all_takeWhile c (List.mem_reverse.mp hc)

/-- Trimming keeps all that is no white space. -/
theorem mem_trim {s : String} {c : Char} (hc : c ∈ s.toList) (hblank : isBlank c = false) :
    c ∈ (trim s).toList := by
  obtain ⟨before, after, hs, hbefore, hafter⟩ := exists_append_trimWhile isBlank s.toList
  rw [trim, String.toList_ofList]
  rw [hs, List.mem_append, List.mem_append] at hc
  rcases hc with hc | hc | hc
  · exact Bool.noConfusion (hblank.symm.trans (hbefore c hc))
  · exact hc
  · exact Bool.noConfusion (hblank.symm.trans (hafter c hc))

/-- Text without trailing slashes. -/
def dropTailSlashes (s : String) : String := String.ofList (dropTailWhile (· == '/') s.toList)

/-- The first run of characters that are not white space. -/
def firstWord (s : String) : String :=
  String.ofList ((s.toList.dropWhile isBlank).takeWhile (!isBlank ·))

/-- Text up to its first line break. -/
def firstLine (s : String) : String := String.ofList (s.toList.takeWhile (!isLineBreak ·))

/-- Every carriage return, with a line feed after it or not, becomes one line feed. -/
def unifyNewlines : List Char → List Char
  | [] => []
  | '\r' :: '\n' :: rest => '\n' :: unifyNewlines rest
  | c :: rest => (if c = '\r' then '\n' else c) :: unifyNewlines rest

end MergeDecoration.Text
