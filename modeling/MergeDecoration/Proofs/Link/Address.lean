import Mathlib
import MergeDecoration.Link.Address
import MergeDecoration.Proofs.Link.Query

/-!
Reading the addresses that notes link to: whatever printable server address stands in front, the
path ends as it was written and the query comes out whole.
-/
namespace MergeDecoration
namespace Text

theorem eq_append_of_cutFirst {c : Char} {s before after : List Char}
    (h : cutFirst c s = (before, some after)) : s = before ++ c :: after := by
  induction s generalizing before with
  | nil => simp at h
  | cons d s ih =>
    rw [cutFirst] at h
    split at h
    · next hd =>
      obtain ⟨rfl, rfl⟩ : [] = before ∧ s = after := by simpa using h
      rw [hd, List.nil_append]
    · obtain ⟨rfl, hs⟩ : d :: (cutFirst c s).1 = before ∧ (cutFirst c s).2 = some after := by
        simpa using h
      rw [List.cons_append, ← ih (Prod.ext rfl hs)]

/-- A tail without the character is never cut. -/
theorem cutFirst_append_right {c : Char} {t : List Char} (h : c ∉ t) (s : List Char) :
    cutFirst c (s ++ t) = (cutFirst c s).2.elim (s ++ t, none)
      fun after => ((cutFirst c s).1, some (after ++ t)) := by
  induction s with
  | nil => simp [cutFirst_of_notMem h]
  | cons d s ih =>
    rw [List.cons_append, cutFirst, cutFirst, ih]
    split_ifs
    · rfl
    · cases (cutFirst c s).2 <;> rfl

theorem afterLast_append {c : Char} {t : List Char} (h : c ∈ t) (s : List Char) :
    afterLast c (s ++ t) = afterLast c t := by
  have hne : t.reverse.takeWhile (· != c) ≠ t.reverse := by
    intro heq
    have hall := List.takeWhile_eq_self_iff.mp heq c (List.mem_reverse.mpr h)
    simp at hall
  have hlen : (t.reverse.takeWhile (· != c)).length ≠ t.reverse.length := fun hl =>
    hne ((List.takeWhile_prefix _).eq_of_length hl)
  rw [afterLast, afterLast, List.reverse_append, List.takeWhile_append, if_neg hlen]

theorem mem_of_mem_afterLast {c d : Char} {s : List Char} (h : d ∈ afterLast c s) : d ∈ s := by
  rw [afterLast, List.mem_reverse] at h
  exact List.mem_reverse.mp ((List.takeWhile_prefix _).subset h)

end Text

namespace Address

/-- The characters of a server address: printable ASCII but for the parenthesis that ends a link,
the marks before a query and a fragment, and brackets. -/
def isServerChar (c : Char) : Bool :=
  decide (0x20 < c.toNat ∧ c.toNat < 0x7f) && !(")?#[]".toList.contains c)

/-- The path of a page: it starts with one slash and has only letters between its slashes. -/
structure IsPage (page : List Char) : Prop where
  absolute : ∃ c rest, page = '/' :: c :: rest ∧ c ≠ '/'
  plain : ∀ c ∈ page, c.isAlpha = true ∨ c = '/'

namespace IsPage

variable {page : List Char}

theorem of_all {rest : List Char} {c : Char} (h : page = '/' :: c :: rest) (hc : c ≠ '/')
    (hall : page.all (fun d => d.isAlpha || d == '/') = true) : IsPage page := by
  refine ⟨⟨c, rest, h, hc⟩, fun d hd => ?_⟩
  have hd' := List.all_eq_true.mp hall d hd
  rwa [Bool.or_eq_true, beq_iff_eq] at hd'

theorem notMem (h : IsPage page) {c : Char} (hc : c.isAlpha = false) (hs : c ≠ '/') :
    c ∉ page := by
  intro hm
  rcases h.plain c hm with ha | rfl
  · rw [hc] at ha
    exact absurd ha (by decide)
  · exact hs rfl

theorem bounds (h : IsPage page) {c : Char} (hc : c ∈ page) : 0x20 < c.toNat ∧ c.toNat < 0x7f := by
  rcases h.plain c hc with ha | rfl
  · have := Text.toNat_of_isAlphanum (c := c) (by simp [Char.isAlphanum, ha])
    omega
  · decide

theorem slash_mem (h : IsPage page) : '/' ∈ page := by
  obtain ⟨c, rest, rfl, -⟩ := h.absolute
  exact List.mem_cons_self

end IsPage

variable {base page query : List Char}

theorem splitScheme_page (base : List Char) (hp : IsPage page)
    (hq : ∀ c ∈ query, Query.isQueryChar c = true) :
    ∃ b, b <:+ base ∧
      (splitScheme (base ++ (page ++ '?' :: query))).2 = b ++ (page ++ '?' :: query) := by
  have hcolon : ':' ∉ page ++ '?' :: query := by
    simp only [List.mem_append, List.mem_cons, not_or]
    exact ⟨hp.notMem (by decide) (by decide), by decide, fun h => absurd (hq _ h) (by decide)⟩
  rw [splitScheme, Text.cutFirst_append_right hcolon]
  cases hcut : (Text.cutFirst ':' base).2 with
  | none => exact ⟨base, List.suffix_refl base, by simp⟩
  | some after =>
    have hbase := Text.eq_append_of_cutFirst (Prod.ext (rfl : (Text.cutFirst ':' base).1 = _) hcut)
    simp only [Option.elim_some]
    split
    · next heq =>
      obtain ⟨-, rfl⟩ : _ ∧ after ++ (page ++ '?' :: query) = _ := by simpa using heq
      split
      · refine ⟨after, ?_, rfl⟩
        exact ⟨(Text.cutFirst ':' base).1 ++ [':'], by simpa using hbase.symm⟩
      · exact ⟨base, List.suffix_refl base, rfl⟩
    · exact ⟨base, List.suffix_refl base, rfl⟩

theorem splitAuthority_page (query : List Char) (hs : base ≠ ['/']) (hp : IsPage page) :
    ∃ authority b, splitAuthority (base ++ (page ++ '?' :: query)) =
      (authority, b ++ (page ++ '?' :: query)) ∧ b <:+ base ∧ authority ⊆ base := by
  obtain ⟨c, rest, hpage, hc⟩ := hp.absolute
  have hends : ∀ t : List Char,
      (page ++ t).takeWhile (!endsAuthority ·) = [] ∧
        (page ++ t).dropWhile (!endsAuthority ·) = page ++ t := by
    intro t
    simp [hpage, endsAuthority]
  by_cases hslashes : ∃ b, base = '/' :: '/' :: b
  · obtain ⟨b, rfl⟩ := hslashes
    refine ⟨b.takeWhile (!endsAuthority ·), b.dropWhile (!endsAuthority ·), ?_, ?_, ?_⟩
    · simp only [splitAuthority, List.cons_append]
      rw [List.takeWhile_append, List.dropWhile_append, (hends _).1, (hends _).2]
      simp only [Prod.mk.injEq]
      constructor
      · split
        · next h => rw [List.append_nil, (List.takeWhile_prefix _).eq_of_length h]
        · rfl
      · split
        · next h => rw [List.isEmpty_iff.mp h, List.nil_append]
        · rfl
    · exact (List.dropWhile_suffix _).trans ⟨['/', '/'], rfl⟩
    · exact fun d hd => List.mem_cons_of_mem _ (List.mem_cons_of_mem _
        ((List.takeWhile_prefix _).subset hd))
  · refine ⟨[], base, ?_, List.suffix_refl base, List.nil_subset base⟩
    rw [splitAuthority]
    intro rest' heq
    match base, hs, hslashes with
    | [], _, _ =>
      rw [hpage] at heq
      exact hc (by simpa using congrArg (·.getD 1 'x') heq)
    | [d], hs, _ =>
      obtain ⟨hd, -⟩ : d = '/' ∧ page ++ '?' :: query = '/' :: rest' := by simpa using heq
      exact hs (by rw [hd])
    | d :: e :: b, _, hslashes =>
      obtain ⟨hd, he, -⟩ : d = '/' ∧ e = '/' ∧ b ++ (page ++ '?' :: query) = rest' := by
        simpa using heq
      exact hslashes ⟨b, by rw [hd, he]⟩

theorem splitParams_page (hp : IsPage page) (b : List Char) :
    splitParams (b ++ page) = (b ++ page, []) := by
  have hlast : ';' ∉ Text.afterLast '/' page := fun h =>
    hp.notMem (c := ';') (by decide) (by decide) (Text.mem_of_mem_afterLast h)
  rw [splitParams, Text.afterLast_append hp.slash_mem, Text.cutFirst_of_notMem hlast]

theorem clean_eq_self {s : List Char} (h : ∀ c ∈ s, 0x20 < c.toNat) : clean s = s := by
  have hdrop : s.dropWhile (·.toNat ≤ 32) = s := by
    cases s with
    | nil => rfl
    | cons c s =>
      have hc := h c List.mem_cons_self
      rw [List.dropWhile_cons_of_neg]
      simpa using hc
  have hkeep : ∀ c ∈ s, (c != '\t' && c != '\r' && c != '\n') = true := by
    intro c hc
    have hlow := h c hc
    simp only [Bool.and_eq_true, bne_iff_ne]
    refine ⟨⟨?_, ?_⟩, ?_⟩ <;> rintro rfl <;> exact absurd hlow (by decide)
  rw [clean, hdrop, List.filter_eq_self.mpr hkeep]

theorem checkAuthority_eq_ok {authority : List Char} (h : ∀ c ∈ authority, isServerChar c = true) :
    checkBrackets authority = (.ok () : Except Invalid Unit) ∧
      checkAuthority authority = (.ok () : Except Invalid Unit) := by
  have hopen : '[' ∉ authority := fun hm => absurd (h _ hm) (by decide)
  have hclose : ']' ∉ authority := fun hm => absurd (h _ hm) (by decide)
  have hhides : authority.any hidesDelimiter = false := by
    rw [List.any_eq_false]
    intro c hc hh
    have hs := h c hc
    simp only [isServerChar, Bool.and_eq_true, decide_eq_true_eq] at hs
    simp only [hidesDelimiter, List.contains_eq_mem, decide_eq_true_eq, List.mem_cons,
      List.not_mem_nil, or_false] at hh
    omega
  constructor
  · simp [checkBrackets, hopen, hclose, pure, Except.pure]
  · simp [checkAuthority, hhides]

theorem isServerChar_bounds {c : Char} (h : isServerChar c = true) :
    0x20 < c.toNat ∧ c.toNat < 0x7f := by
  simp only [isServerChar, Bool.and_eq_true, decide_eq_true_eq] at h
  exact h.1

/-- The address of a page below a server is read back as that page and its query. -/
theorem read_page (hb : ∀ c ∈ base, isServerChar c = true) (hs : ¬['/'] <:+ base)
    (hp : IsPage page) (hq : ∀ c ∈ query, Query.isQueryChar c = true) :
    ∃ address, read (base ++ (page ++ '?' :: query)) = .ok address ∧ address.query = query ∧
      page <:+ address.path := by
  have hclean : clean (base ++ (page ++ '?' :: query)) = base ++ (page ++ '?' :: query) := by
    apply clean_eq_self
    intro c hc
    simp only [List.mem_append, List.mem_cons] at hc
    rcases hc with hc | hc | rfl | hc
    · exact (isServerChar_bounds (hb c hc)).1
    · exact (hp.bounds hc).1
    · decide
    · exact (Query.isQueryChar_bounds (hq c hc)).1
  obtain ⟨b, hbsuf, hscheme⟩ := splitScheme_page base hp hq
  have hbne : b ≠ ['/'] := fun h => hs (h ▸ hbsuf)
  obtain ⟨authority, b', hauth, hb', hsub⟩ := splitAuthority_page query hbne hp
  have hserver : ∀ c ∈ b', isServerChar c = true := fun c hc => hb c (hbsuf.subset (hb'.subset hc))
  obtain ⟨hbrackets, hplain⟩ := checkAuthority_eq_ok fun c hc => hb c (hbsuf.subset (hsub hc))
  have hhash : '#' ∉ b' ++ (page ++ '?' :: query) := by
    simp only [List.mem_append, List.mem_cons, not_or]
    exact ⟨fun h => absurd (hserver _ h) (by decide), hp.notMem (by decide) (by decide), by decide,
      fun h => absurd (hq _ h) (by decide)⟩
  have hquery : Text.cutFirst '?' (b' ++ (page ++ '?' :: query)) = (b' ++ page, some query) := by
    rw [← List.append_assoc]
    apply Text.cutFirst_append
    simp only [List.mem_append, not_or]
    exact ⟨fun h => absurd (hserver _ h) (by decide), hp.notMem (by decide) (by decide)⟩
  refine ⟨⟨(splitScheme (base ++ (page ++ '?' :: query))).1, authority, b' ++ page, [], query, []⟩,
    ?_, rfl, List.suffix_append b' page⟩
  rw [read, hclean]
  simp only [hscheme, hauth, hbrackets, Text.cutFirst_of_notMem hhash, hquery,
    splitParams_page hp, ite_self]
  simp only [bind, Except.bind, hplain, pure, Except.pure]
  rfl

end Address
end MergeDecoration
