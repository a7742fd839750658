import Mathlib
import MergeDecoration.Proofs.Remote.Path
import MergeDecoration.Proofs.Value.Reading

/-!
Spellings of a remote. With a scheme or without, with a user, a port, an ending or slashes, they all
name the same project.
-/
namespace MergeDecoration.Remote

/-! ### Remotes with a scheme and remotes without -/

theorem contains_iff {part s : List Char} : contains part s = true ↔ part <:+: s := by
  induction s with
  | nil => rw [contains, List.isEmpty_iff, List.infix_nil]
  | cons c rest ih =>
    rw [contains, Bool.or_eq_true, List.isPrefixOf_iff_prefix, ih, List.infix_cons_iff]

variable {url host : String} {path : List Char}

theorem project?_of_address (hscheme : contains "://".toList url.toList = true)
    (hparts : ofAddress url.toList = .ok (some host, path)) (hne : host ≠ "")
    (hslash : '/' ∈ projectPath path) :
    project? url = .ok (some ⟨"https://" ++ host, String.ofList (projectPath path)⟩) := by
  have hhost : (some host).filter (· != "") = some host := by
    rw [Option.filter_some, if_pos (bne_iff_ne.mpr hne)]
  unfold project?
  simp only [hscheme, if_true, hparts, ok_bind, hhost, List.contains_iff_mem.mpr hslash]
  rfl

theorem project?_of_short (hscheme : contains "://".toList url.toList = false)
    (hat : '@' ∈ url.toList) (hcolon : ':' ∈ url.toList)
    (hparts : ofShort url.toList = .ok (some host, path)) (hne : host ≠ "")
    (hslash : '/' ∈ projectPath path) :
    project? url = .ok (some ⟨"https://" ++ host, String.ofList (projectPath path)⟩) := by
  have hhost : (some host).filter (· != "") = some host := by
    rw [Option.filter_some, if_pos (bne_iff_ne.mpr hne)]
  have hmarks : (url.toList.contains '@' && url.toList.contains ':') = true := by
    rw [List.contains_iff_mem.mpr hat, List.contains_iff_mem.mpr hcolon]
    rfl
  unfold project?
  simp only [hscheme, Bool.false_eq_true, if_false, hmarks, if_true, hparts, ok_bind, hhost,
    List.contains_iff_mem.mpr hslash]
  rfl

/-- A remote with a scheme, its parts and what is below the host. -/
def addressOf (scheme : String) (user : Option String) (host : String) (port : Option String)
    (path : String) : String :=
  scheme ++ "://" ++ Address.authorityOf user host port ++ "/" ++ path

variable {scheme : String} {user port : Option String} {below : String}

theorem read_addressOf (hname : scheme ≠ "") (hscheme : ∀ c ∈ scheme.toList, c.isLower = true)
    (hparts : Address.AreParts user host port)
    (hbelow : ∀ c ∈ below.toList, Address.isPathChar c = true) :
    Address.read (addressOf scheme user host port below).toList =
      .ok ⟨scheme.toList, (Address.authorityOf user host port).toList, '/' :: below.toList,
        [], [], []⟩ := by
  have htext : (addressOf scheme user host port below).toList = scheme.toList ++ ':' :: '/' ::
      '/' :: ((Address.authorityOf user host port).toList ++ '/' :: below.toList) := by
    simp [addressOf]
  rw [htext]
  exact Address.read_location hname hscheme hparts.isServerChar (Or.inr rfl)
    (List.forall_mem_cons.mpr ⟨by decide, hbelow⟩)

/-- A remote with a scheme names the project below its host. -/
theorem project?_addressOf (hname : scheme ≠ "") (hscheme : ∀ c ∈ scheme.toList, c.isLower = true)
    (hparts : Address.AreParts user host port) (hhost : host ≠ "")
    (hbelow : ∀ c ∈ below.toList, Address.isPathChar c = true)
    (hslash : '/' ∈ projectPath ('/' :: below.toList)) :
    project? (addressOf scheme user host port below) =
      .ok (some ⟨"https://" ++ host, String.ofList (projectPath ('/' :: below.toList))⟩) := by
  apply project?_of_address _ _ hhost hslash
  · rw [contains_iff]
    refine ⟨scheme.toList, (Address.authorityOf user host port ++ "/" ++ below).toList, ?_⟩
    simp [addressOf]
  · have hread := hparts.host? hhost (a := ⟨scheme.toList,
      (Address.authorityOf user host port).toList, '/' :: below.toList, [], [], []⟩) rfl
    rw [ofAddress, read_addressOf hname hscheme hparts hbelow, ok_bind, hread]
    rfl

/-- A short remote has its host before the first colon. -/
theorem project?_short (hhost : host ≠ "") (hplain : ∀ c ∈ host.toList, Address.isHostChar c = true)
    (hcolon : ':' ∉ below.toList) (hhead : below.toList.head? ≠ some '/')
    (hslash : '/' ∈ projectPath below.toList) :
    project? ("git@" ++ host ++ ":" ++ below) =
      .ok (some ⟨"https://" ++ host, String.ofList (projectPath below.toList)⟩) := by
  have htext : ("git@" ++ host ++ ":" ++ below).toList =
      "git".toList ++ '@' :: (host.toList ++ ':' :: below.toList) := by
    simp
  have hcut : Text.cutFirst ':' (host.toList ++ ':' :: below.toList) =
      (host.toList, some below.toList) :=
    Text.cutFirst_append (fun hm => absurd (hplain _ hm) (by decide)) below.toList
  apply project?_of_short _ _ _ _ hhost hslash
  · rw [← Bool.not_eq_true, contains_iff]
    rintro ⟨before, after, hinfix⟩
    -- The only colon is the one after the host.
    have hfirst : (Text.cutFirst ':' ("git@" ++ host ++ ":" ++ below).toList).2 =
        some below.toList := by
      have hstart : ':' ∉ "git".toList ++ '@' :: host.toList := by
        rw [List.mem_append, List.mem_cons, not_or, not_or]
        exact ⟨by decide, by decide, fun hm => absurd (hplain _ hm) (by decide)⟩
      have hcut := Text.cutFirst_append hstart below.toList
      rw [htext, ← List.cons_append, ← List.append_assoc, hcut]
    rw [← hinfix, List.append_assoc] at hfirst
    rcases Text.eq_or_mem_of_cutFirst hfirst with heq | hm
    · exact hhead (by rw [heq]; rfl)
    · exact hcolon hm
  · rw [htext]
    simp
  · rw [htext]
    simp
  · rw [ofShort, htext, Text.cutFirst_append (by decide)]
    simp only [Option.getD_some, hcut, String.ofList_toList]

/-! ### Spellings of one remote -/

/-- The ways to write a remote. -/
inductive Spelling
  | web
  | webAs (user secret : String)
  | shell
  | shellAt (port : String)
  | short

namespace Spelling

/-- A remote for a host and for what is below it. -/
def write (host below : String) : Spelling → String
  | web => "https://" ++ host ++ "/" ++ below
  | webAs user secret => "https://" ++ user ++ ":" ++ secret ++ "@" ++ host ++ "/" ++ below
  | shell => "ssh://git@" ++ host ++ "/" ++ below
  | shellAt port => "ssh://git@" ++ host ++ ":" ++ port ++ "/" ++ below
  | short => "git@" ++ host ++ ":" ++ below

/-- User and secret are letters and digits, and the port is a decimal number. -/
def IsPlain : Spelling → Prop
  | webAs user secret => (∀ c ∈ user.toList, c.isAlphanum = true) ∧
    ∀ c ∈ secret.toList, c.isAlphanum = true
  | shellAt port => port ≠ "" ∧ ∀ c ∈ port.toList, c.isDigit = true
  | web | shell | short => True

end Spelling

/-- Slashes at the end of a remote. -/
def slashes (n : ℕ) : String := String.ofList (List.replicate n '/')

theorem isSlash_of_mem_slashes {n : ℕ} : ∀ c ∈ (slashes n).toList, (c == '/') = true := by
  intro c hc
  rw [slashes, String.toList_ofList] at hc
  rw [List.eq_of_mem_replicate hc]
  rfl

section

variable {path ending : String} {n : ℕ}

theorem projectPath_below {before : List Char} (hpath : IsProjectPath path)
    (hending : IsEnding path ending) (hbefore : ∀ c ∈ before, (c == '/') = true) :
    projectPath (before ++ (path ++ ending ++ slashes n).toList) = path.toList := by
  rw [String.toList_append, String.toList_append]
  exact projectPath_append hpath hending hbefore isSlash_of_mem_slashes

theorem plain_below (hpath : IsProjectPath path) (hending : IsEnding path ending) {c : Char}
    (hc : c ∈ (path ++ ending ++ slashes n).toList) : isSegmentChar c = true ∨ c = '/' := by
  rw [String.toList_append, String.toList_append, List.mem_append, List.mem_append] at hc
  rcases hc with (hc | hc) | hc
  · exact hpath.plain hc
  · rcases hending with rfl | ⟨rfl, -⟩
    · have hall : ".git".toList.all isSegmentChar = true := by decide
      exact Or.inl (List.all_eq_true.mp hall c hc)
    · cases hc
  · exact Or.inr (eq_of_beq (isSlash_of_mem_slashes c hc))

theorem isPathChar_below (hpath : IsProjectPath path) (hending : IsEnding path ending) :
    ∀ c ∈ (path ++ ending ++ slashes n).toList, Address.isPathChar c = true := by
  intro c hc
  rcases plain_below hpath hending hc with hsegment | rfl
  · exact isPathChar_of_isSegmentChar hsegment
  · decide

/-- A remote with a scheme names the project of its path. -/
theorem project?_addressOf_path (hname : scheme ≠ "")
    (hscheme : ∀ c ∈ scheme.toList, c.isLower = true) (hparts : Address.AreParts user host port)
    (hhost : host ≠ "") (hpath : IsProjectPath path) (hending : IsEnding path ending) :
    project? (addressOf scheme user host port (path ++ ending ++ slashes n)) =
      .ok (some ⟨"https://" ++ host, path⟩) := by
  have hproject : projectPath ('/' :: (path ++ ending ++ slashes n).toList) = path.toList := by
    rw [← List.singleton_append]
    exact projectPath_below hpath hending (by simp)
  rw [project?_addressOf hname hscheme hparts hhost (isPathChar_below hpath hending)
    (by rw [hproject]; exact hpath.slash_mem), hproject, String.ofList_toList]

end

/-- All spellings but the short one are addresses with a scheme. -/
theorem Spelling.exists_addressOf {spelling : Spelling} (hspelling : spelling.IsPlain)
    (hplain : ∀ c ∈ host.toList, Address.isHostChar c = true) :
    spelling = .short ∨ ∃ scheme user port, scheme ≠ "" ∧
      (∀ c ∈ scheme.toList, c.isLower = true) ∧ Address.AreParts user host port ∧
      ∀ below, spelling.write host below = addressOf scheme user host port below := by
  have hhttps : ∀ c ∈ "https".toList, c.isLower = true := List.all_eq_true.mp (by decide)
  have hssh : ∀ c ∈ "ssh".toList, c.isLower = true := List.all_eq_true.mp (by decide)
  have hgit : ∀ c ∈ "git".toList, Address.isUserChar c = true := List.all_eq_true.mp (by decide)
  cases spelling with
  | web =>
    refine Or.inr ⟨"https", none, none, by decide, hhttps, ⟨by simp, hplain, by simp⟩, ?_⟩
    intro below
    apply String.toList_injective
    simp [Spelling.write, addressOf, Address.authorityOf]
  | webAs user secret =>
    have huser : ∀ c ∈ (user ++ ":" ++ secret).toList, Address.isUserChar c = true := by
      intro c hc
      rw [String.toList_append, String.toList_append, List.mem_append, List.mem_append] at hc
      rw [Address.isUserChar, Bool.or_eq_true]
      rcases hc with (hc | hc) | hc
      · exact Or.inl (hspelling.1 c hc)
      · exact Or.inr (beq_iff_eq.mpr (List.mem_singleton.mp hc))
      · exact Or.inl (hspelling.2 c hc)
    refine Or.inr ⟨"https", some (user ++ ":" ++ secret), none, by decide, hhttps,
      ⟨huser, hplain, by simp⟩, ?_⟩
    intro below
    apply String.toList_injective
    simp [Spelling.write, addressOf, Address.authorityOf]
  | shell =>
    refine Or.inr ⟨"ssh", some "git", none, by decide, hssh, ⟨hgit, hplain, by simp⟩, ?_⟩
    intro below
    apply String.toList_injective
    simp [Spelling.write, addressOf, Address.authorityOf]
  | shellAt port =>
    refine Or.inr ⟨"ssh", some "git", some port, by decide, hssh, ⟨hgit, hplain, hspelling.2⟩, ?_⟩
    intro below
    apply String.toList_injective
    simp [Spelling.write, addressOf, Address.authorityOf]
  | short => exact Or.inl rfl

/-- However a remote is written, with the ending `.git` or without it and with any number of slashes
at its end, it names the host and the path. -/
theorem project?_write {host path ending : String} {spelling : Spelling} (n : ℕ)
    (hhost : host ≠ "") (hplain : ∀ c ∈ host.toList, Address.isHostChar c = true)
    (hpath : IsProjectPath path) (hending : IsEnding path ending) (hspelling : spelling.IsPlain) :
    project? (spelling.write host (path ++ ending ++ slashes n)) =
      .ok (some ⟨"https://" ++ host, path⟩) := by
  rcases Spelling.exists_addressOf hspelling hplain with
    rfl | ⟨scheme, user, port, hname, hscheme, hparts, hwrite⟩
  · have hproject : projectPath (path ++ ending ++ slashes n).toList = path.toList := by
      rw [← List.nil_append (path ++ ending ++ slashes n).toList]
      exact projectPath_below hpath hending (by simp)
    have hcolon : ':' ∉ (path ++ ending ++ slashes n).toList := fun hm =>
      (plain_below hpath hending hm).elim (fun h => absurd h (by decide)) (by decide)
    have hhead : (path ++ ending ++ slashes n).toList.head? ≠ some '/' := by
      obtain ⟨c, t, ht, hc⟩ := hpath.hasEdges.head
      rw [String.toList_append, String.toList_append, ht]
      intro heq
      rw [Option.some.inj heq] at hc
      cases hc
    rw [Spelling.write, project?_short hhost hplain hcolon hhead
      (by rw [hproject]; exact hpath.slash_mem), hproject, String.ofList_toList]
  · rw [hwrite]
    exact project?_addressOf_path hname hscheme hparts hhost hpath hending

theorem isProjectPath_nested : IsProjectPath "group/sub_2/repo.git" := by
  refine ⟨["group", "sub_2", "repo.git"], by decide, ?_, by decide⟩
  have hall : ["group", "sub_2", "repo.git"].all
      (fun s => s != "" && s.toList.all isSegmentChar) = true := by decide
  intro s hs
  have hs := List.all_eq_true.mp hall s hs
  rw [Bool.and_eq_true, bne_iff_ne] at hs
  exact ⟨hs.1, List.all_eq_true.mp hs.2⟩

theorem project?_write_nested :
    ("git-1.example.com" ≠ "" ∧ ∀ c ∈ "git-1.example.com".toList, Address.isHostChar c = true) ∧
    IsProjectPath "group/sub_2/repo.git" ∧ IsEnding "group/sub_2/repo.git" ".git" ∧
    (Spelling.shellAt "2222").IsPlain ∧
    project? ((Spelling.shellAt "2222").write "git-1.example.com"
      ("group/sub_2/repo.git" ++ ".git" ++ slashes 2)) =
        .ok (some ⟨"https://git-1.example.com", "group/sub_2/repo.git"⟩) := by
  have hhost : ∀ c ∈ "git-1.example.com".toList, Address.isHostChar c = true :=
    List.all_eq_true.mp (by decide)
  have hport : (Spelling.shellAt "2222").IsPlain :=
    ⟨by decide, List.all_eq_true.mp (by decide)⟩
  exact ⟨⟨by decide, hhost⟩, isProjectPath_nested, Or.inl rfl, hport,
    project?_write 2 (by decide) hhost isProjectPath_nested (Or.inl rfl) hport⟩

end MergeDecoration.Remote
