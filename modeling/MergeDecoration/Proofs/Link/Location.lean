import Mathlib
import MergeDecoration.Proofs.Link.Address
import MergeDecoration.Proofs.Text.Case

/-!
Addresses that are made of a scheme, an authority and a path alone. They are read as they were
written, and the authority falls apart into the user, the host and the port it was put together of.
-/
namespace MergeDecoration

namespace Text

theorem afterLast_of_notMem {c : Char} {s : List Char} (h : c ∉ s) : afterLast c s = s := by
  have hall : ∀ d ∈ s.reverse, (d != c) = true := by
    intro d hd
    rw [bne_iff_ne]
    rintro rfl
    exact h (List.mem_reverse.mp hd)
  rw [afterLast, List.takeWhile_eq_self_iff.mpr hall, List.reverse_reverse]

theorem afterLast_append_cons {c : Char} {t : List Char} (h : c ∉ t) (s : List Char) :
    afterLast c (s ++ c :: t) = t := by
  have hall : ∀ d ∈ t.reverse, (d != c) = true := by
    intro d hd
    rw [bne_iff_ne]
    rintro rfl
    exact h (List.mem_reverse.mp hd)
  rw [afterLast, List.reverse_append, List.reverse_cons, List.append_assoc,
    List.takeWhile_append_of_pos hall]
  simp

theorem lowerChar_of_ascii {c : Char} (h : c.toNat < 0x80) (hupper : c.isUpper = false) :
    lowerChar c = [c] := by
  have hlower : c.isUpper = false → c.toLower = c := of_decide_eq_true (forall_ascii
    (p := fun c => c.isUpper = false → c.toLower = c) (by decide) h)
  rw [lowerChar, if_pos h, hlower hupper]

/-- A text of ASCII without capitals is in lower case already. -/
theorem lower_eq_self {s : String} (h : ∀ c ∈ s.toList, c.toNat < 0x80 ∧ c.isUpper = false) :
    lower s = s := by
  have hfrom (before cs : List Char) (hcs : ∀ c ∈ cs, c.toNat < 0x80 ∧ c.isUpper = false) :
      lowerFrom before cs = cs := by
    induction cs generalizing before with
    | nil => rfl
    | cons c cs ih =>
      obtain ⟨⟨hascii, hupper⟩, hcs⟩ := List.forall_mem_cons.mp hcs
      have hsigma : c.toNat ≠ 0x3a3 := by omega
      rw [lowerFrom, lowerIn, if_neg hsigma, lowerChar_of_ascii hascii hupper, ih _ hcs]
      rfl
  rw [lower, hfrom [] s.toList h, String.ofList_toList]

end Text

namespace Address

/-- The port that the authority states. -/
def port? (a : Address) : Option String :=
  (Text.cutFirst ':' (place a.authority)).2.map String.ofList

/-- An authority put together of its parts. -/
def authorityOf (user : Option String) (host : String) (port : Option String) : String :=
  user.elim "" (· ++ "@") ++ host ++ port.elim "" (":" ++ ·)

/-- Letters and digits, and the colon between a name and a secret. -/
def isUserChar (c : Char) : Bool := c.isAlphanum || c == ':'

/-- Small letters, digits, points and hyphens. -/
def isHostChar (c : Char) : Bool := c.isLower || c.isDigit || c == '.' || c == '-'

/-- The parts of an authority that can be told apart again. -/
structure AreParts (user : Option String) (host : String) (port : Option String) : Prop where
  user : ∀ c ∈ (user.getD "").toList, isUserChar c = true
  host : ∀ c ∈ host.toList, isHostChar c = true
  port : ∀ c ∈ (port.getD "").toList, c.isDigit = true

/-- What is left of a path when query, fragment and parameters have been cut off. -/
def isPathChar (c : Char) : Bool := decide (0x20 < c.toNat) && !"?#;".toList.contains c

section

variable {c : Char}

theorem isServerChar_of_isAlphanum (h : c.isAlphanum = true) : isServerChar c = true := by
  have hn := Text.toNat_of_isAlphanum h
  have hall : c.isAlphanum = true → isServerChar c = true := of_decide_eq_true (Text.forall_ascii
    (p := fun c => c.isAlphanum = true → isServerChar c = true) (by decide) (by omega))
  exact hall h

theorem isAlphanum_of_isHostChar (h : isHostChar c = true) :
    c.isAlphanum = true ∨ c = '.' ∨ c = '-' := by
  simp only [isHostChar, Bool.or_eq_true, beq_iff_eq] at h
  simp only [Char.isAlphanum, Char.isAlpha, Bool.or_eq_true]
  tauto

theorem isServerChar_of_isHostChar (h : isHostChar c = true) : isServerChar c = true := by
  rcases isAlphanum_of_isHostChar h with hc | rfl | rfl
  · exact isServerChar_of_isAlphanum hc
  · decide
  · decide

theorem isServerChar_of_isUserChar (h : isUserChar c = true) : isServerChar c = true := by
  rw [isUserChar, Bool.or_eq_true, beq_iff_eq] at h
  rcases h with hc | rfl
  · exact isServerChar_of_isAlphanum hc
  · decide

theorem isServerChar_of_isDigit (h : c.isDigit = true) : isServerChar c = true :=
  isServerChar_of_isAlphanum (by rw [Char.isAlphanum, h, Bool.or_true])

theorem isUpper_of_isHostChar (h : isHostChar c = true) : c.toNat < 0x80 ∧ c.isUpper = false := by
  have hascii : c.toNat < 0x80 := by
    have := isServerChar_bounds (isServerChar_of_isHostChar h)
    omega
  have hall : isHostChar c = true → c.isUpper = false := of_decide_eq_true (Text.forall_ascii
    (p := fun c => isHostChar c = true → c.isUpper = false) (by decide) hascii)
  exact ⟨hascii, hall h⟩

end

namespace AreParts

variable {user port : Option String} {host : String}

theorem isServerChar (h : AreParts user host port) :
    ∀ c ∈ (authorityOf user host port).toList, isServerChar c = true ∧ c ≠ '/' := by
  intro c hc
  simp only [authorityOf, String.toList_append, List.mem_append] at hc
  rcases hc with (hc | hc) | hc
  · cases user with
    | none => cases hc
    | some u =>
      simp only [Option.elim_some, String.toList_append, List.mem_append] at hc
      rcases hc with hc | hc
      · have huser := h.user c hc
        refine ⟨isServerChar_of_isUserChar huser, ?_⟩
        rintro rfl
        exact absurd huser (by decide)
      · obtain rfl : c = '@' := List.mem_singleton.mp hc
        decide
  · have hhost := h.host c hc
    refine ⟨isServerChar_of_isHostChar hhost, ?_⟩
    rintro rfl
    exact absurd hhost (by decide)
  · cases port with
    | none => cases hc
    | some n =>
      simp only [Option.elim_some, String.toList_append, List.mem_append] at hc
      rcases hc with hc | hc
      · obtain rfl : c = ':' := List.mem_singleton.mp hc
        decide
      · have hdigit := h.port c hc
        refine ⟨isServerChar_of_isDigit hdigit, ?_⟩
        rintro rfl
        exact absurd hdigit (by decide)

/-- A user ends at the last `@`. -/
theorem place_authorityOf (h : AreParts user host port) :
    place (authorityOf user host port).toList = (host ++ port.elim "" (":" ++ ·)).toList := by
  have hat : '@' ∉ (host ++ port.elim "" (":" ++ ·)).toList := by
    rw [String.toList_append, List.mem_append, not_or]
    refine ⟨fun hm => absurd (h.host _ hm) (by decide), ?_⟩
    cases port with
    | none => exact List.not_mem_nil
    | some n =>
      rw [Option.elim_some, String.toList_append, List.mem_append, not_or]
      exact ⟨by decide, fun hm => absurd (h.port _ hm) (by decide)⟩
  rw [place, authorityOf, String.append_assoc]
  cases user with
  | none => exact Text.afterLast_of_notMem hat
  | some u =>
    have hsplit : (u ++ "@" ++ (host ++ port.elim "" (":" ++ ·))).toList =
        u.toList ++ '@' :: (host ++ port.elim "" (":" ++ ·)).toList := by
      simp [String.toList_append]
    rw [Option.elim_some, hsplit, Text.afterLast_append_cons hat]

theorem cutFirst_place (h : AreParts user host port) :
    Text.cutFirst ':' (place (authorityOf user host port).toList) =
      (host.toList, port.map String.toList) := by
  have hcolon : ':' ∉ host.toList := fun hm => absurd (h.host _ hm) (by decide)
  rw [h.place_authorityOf, String.toList_append]
  cases port with
  | none =>
    rw [Option.elim_none, String.toList_empty, List.append_nil, Text.cutFirst_of_notMem hcolon]
    rfl
  | some n =>
    rw [Option.elim_some, String.toList_append]
    exact Text.cutFirst_append hcolon n.toList

/-- The host of an authority that was put together is the one that was put in. -/
theorem host? (h : AreParts user host port) (hne : host ≠ "") {a : Address}
    (ha : a.authority = (authorityOf user host port).toList) : a.host? = some host := by
  have hopen : '[' ∉ place (authorityOf user host port).toList := fun hm =>
    absurd (h.isServerChar _ (Text.mem_of_mem_afterLast hm)).1 (by decide)
  have hpercent : '%' ∉ host.toList := fun hm => absurd (h.host _ hm) (by decide)
  have hempty : host.toList.isEmpty = false := by
    rw [List.isEmpty_eq_false_iff]
    exact fun hnil => hne (String.toList_eq_nil_iff.mp hnil)
  have hlower : Text.lower host = host :=
    Text.lower_eq_self fun c hc => isUpper_of_isHostChar (h.host c hc)
  rw [Address.host?, ha, Text.cutFirst_of_notMem hopen]
  simp only [h.cutFirst_place, hempty, Text.cutFirst_of_notMem hpercent]
  simp [hlower]

theorem port? (h : AreParts user host port) {a : Address}
    (ha : a.authority = (authorityOf user host port).toList) : a.port? = port := by
  rw [Address.port?, ha, h.cutFirst_place]
  cases port with
  | none => rfl
  | some n => simp

end AreParts

section

variable {scheme : String} {authority path : List Char}

theorem splitScheme_of_isLower {rest : List Char} (hne : scheme ≠ "")
    (hscheme : ∀ c ∈ scheme.toList, c.isLower = true) :
    splitScheme (scheme.toList ++ ':' :: rest) = (scheme.toList, rest) := by
  have hcolon : ':' ∉ scheme.toList := fun hm => absurd (hscheme _ hm) (by decide)
  rw [splitScheme, Text.cutFirst_append hcolon]
  cases hchars : scheme.toList with
  | nil => exact absurd (String.toList_eq_nil_iff.mp hchars) hne
  | cons c name =>
    have hall : ∀ d ∈ c :: name, d.isAlpha = true ∧ isSchemeChar d = true ∧ d.toLower = d := by
      intro d hd
      have hlower := hscheme d (hchars ▸ hd)
      have halpha : d.isAlpha = true := by rw [Char.isAlpha, hlower, Bool.or_true]
      have halnum : d.isAlphanum = true := by rw [Char.isAlphanum, halpha, Bool.true_or]
      have hn := Text.toNat_of_isAlphanum halnum
      have hsame : d.isLower = true → d.toLower = d := of_decide_eq_true (Text.forall_ascii
        (p := fun c => c.isLower = true → c.toLower = c) (by decide) (by omega))
      refine ⟨halpha, ?_, hsame hlower⟩
      rw [isSchemeChar, halnum]
      rfl
    have hname : name.all isSchemeChar = true :=
      List.all_eq_true.mpr fun d hd => (hall d (List.mem_cons_of_mem c hd)).2.1
    have hmap : (c :: name).map Char.toLower = c :: name :=
      (List.map_congr_left fun d hd => (hall d hd).2.2).trans (List.map_id _)
    simp only [(hall c List.mem_cons_self).1, hname, Bool.and_self, if_true, hmap]

theorem splitAuthority_of_notMem (hauthority : ∀ c ∈ authority, endsAuthority c = false)
    (hpath : path = [] ∨ path.head? = some '/') :
    splitAuthority ('/' :: '/' :: (authority ++ path)) = (authority, path) := by
  have hall : ∀ c ∈ authority, (!endsAuthority c) = true := by
    intro c hc
    rw [hauthority c hc]
    rfl
  rw [splitAuthority, List.takeWhile_append_of_pos hall, List.dropWhile_append_of_pos hall]
  rcases hpath with rfl | hhead
  · simp
  · obtain ⟨rest, rfl⟩ := List.head?_eq_some_iff.mp hhead
    simp [endsAuthority]

theorem splitParams_of_notMem (hpath : ';' ∉ path) : splitParams path = (path, []) := by
  have hsegment : ';' ∉ Text.afterLast '/' path := fun hm => hpath (Text.mem_of_mem_afterLast hm)
  rw [splitParams, Text.cutFirst_of_notMem hsegment]

/-- An address of a scheme, an authority and a path is read as these three. -/
theorem read_location (hne : scheme ≠ "") (hscheme : ∀ c ∈ scheme.toList, c.isLower = true)
    (hauthority : ∀ c ∈ authority, isServerChar c = true ∧ c ≠ '/')
    (hpath : path = [] ∨ path.head? = some '/') (hplain : ∀ c ∈ path, isPathChar c = true) :
    read (scheme.toList ++ ':' :: '/' :: '/' :: (authority ++ path)) =
      .ok ⟨scheme.toList, authority, path, [], [], []⟩ := by
  have hclean : clean (scheme.toList ++ ':' :: '/' :: '/' :: (authority ++ path)) =
      scheme.toList ++ ':' :: '/' :: '/' :: (authority ++ path) := by
    apply clean_eq_self
    intro c hc
    simp only [List.mem_append, List.mem_cons] at hc
    rcases hc with hc | rfl | rfl | rfl | hc | hc
    · have halpha : c.isAlpha = true := by rw [Char.isAlpha, hscheme c hc, Bool.or_true]
      have hn := Text.toNat_of_isAlphanum (c := c) (by rw [Char.isAlphanum, halpha, Bool.true_or])
      omega
    · decide
    · decide
    · decide
    · exact (isServerChar_bounds (hauthority c hc).1).1
    · have hc := hplain c hc
      rw [isPathChar, Bool.and_eq_true, decide_eq_true_eq] at hc
      exact hc.1
  have hends : ∀ c ∈ authority, endsAuthority c = false := by
    intro c hc
    rw [← Bool.not_eq_true]
    intro hend
    obtain ⟨hserver, hslash⟩ := hauthority c hc
    simp only [endsAuthority, Bool.or_eq_true, beq_iff_eq] at hend
    rcases hend with (rfl | rfl) | rfl
    · exact hslash rfl
    · exact absurd hserver (by decide)
    · exact absurd hserver (by decide)
  have hhash : '#' ∉ path := fun hm => absurd (hplain _ hm) (by decide)
  have hmark : '?' ∉ path := fun hm => absurd (hplain _ hm) (by decide)
  have hsemicolon : ';' ∉ path := fun hm => absurd (hplain _ hm) (by decide)
  obtain ⟨hbrackets, hplainAuthority⟩ := checkAuthority_eq_ok fun c hc => (hauthority c hc).1
  rw [read, hclean]
  simp only [splitScheme_of_isLower hne hscheme, splitAuthority_of_notMem hends hpath, hbrackets,
    Text.cutFirst_of_notMem hhash, Text.cutFirst_of_notMem hmark,
    splitParams_of_notMem hsemicolon, ite_self]
  simp only [bind, Except.bind, hplainAuthority, pure, Except.pure]
  rfl

end

end Address
end MergeDecoration
