import Mathlib
import MergeDecoration.Link.Identity
import MergeDecoration.Note.Issue
import MergeDecoration.Proofs.Link.Address
import MergeDecoration.Proofs.Link.ViewLink

/-!
The links that the program writes are read back as what they were written for: the link to an
issue as that issue of its project, and the link to a dashboard as that of its project.
-/
namespace MergeDecoration

/-- The server address is a text of printable characters that neither end a link nor start a query,
a fragment or a bracketed host. -/
def Analysis.HasPlainServer (a : Analysis) : Prop :=
  ∃ server : String, a.serverUrl = .text server ∧ ∀ c ∈ server.toList, Address.isServerChar c = true

theorem isPage_dashboard : Address.IsPage "/dashboard".toList :=
  .of_all (c := 'd') rfl (by decide) (by decide)

theorem isPage_issues : Address.IsPage "/project/issues".toList :=
  .of_all (c := 'p') rfl (by decide) (by decide)

theorem Text.mem_of_mem_dropTailWhile {p : Char → Bool} {s : List Char} {c : Char}
    (h : c ∈ Text.dropTailWhile p s) : c ∈ s := by
  rw [Text.dropTailWhile, List.mem_reverse] at h
  exact List.mem_reverse.mp ((List.dropWhile_suffix _).subset h)

theorem Text.not_suffix_dropTailWhile {c : Char} (s : List Char) :
    ¬[c] <:+ Text.dropTailWhile (· == c) s := by
  intro h
  rw [Text.dropTailWhile, ← List.reverse_prefix, List.reverse_reverse, List.reverse_singleton,
    List.singleton_prefix_iff_head?_eq_some] at h
  have hnot := List.head?_dropWhile_not (· == c) s.reverse
  rw [h] at hnot
  simp at hnot

theorem ViewLink.isTargetChar_of_bounds {c : Char} (h : 0x20 < c.toNat ∧ c.toNat < 0x7f)
    (hc : c ≠ ')') : ViewLink.isTargetChar c = true := by
  have hblank : Text.isBlank c = false := by
    simp only [Text.isBlank, Bool.or_eq_false_iff, Bool.and_eq_false_iff, decide_eq_false_iff_not,
      beq_eq_false_iff_ne]
    omega
  simp [ViewLink.isTargetChar, hblank, hc]

namespace Identity

open ViewLink

variable {server url : String} {page : String}

/-- An address below a plain server: its path, its query, and that a link can hold it. -/
theorem underServer_text (fields : List (String × String))
    (hs : ∀ c ∈ server.toList, Address.isServerChar c = true) (hp : Address.IsPage page.toList) :
    ∃ url, underServer (.text server) page fields = .ok url ∧ url ≠ "" ∧
      (∀ c ∈ url.toList, ViewLink.isTargetChar c = true) ∧
      ∃ address, Address.read url.toList = .ok address ∧ address.query = Query.write fields ∧
        page.toList <:+ address.path := by
  have hlist :
      (Text.dropTailSlashes server ++ page ++ "?" ++ String.ofList (Query.write fields)).toList =
        Text.dropTailWhile (· == '/') server.toList ++
          (page.toList ++ '?' :: Query.write fields) := by
    simp [Text.dropTailSlashes]
  have hbase : ∀ c ∈ Text.dropTailWhile (· == '/') server.toList, Address.isServerChar c = true :=
    fun c hc => hs c (Text.mem_of_mem_dropTailWhile hc)
  refine ⟨_, rfl, ?_, ?_, ?_⟩
  · intro h
    have hnil := congrArg String.toList h
    rw [hlist] at hnil
    simp at hnil
  · rw [hlist]
    intro c hc
    simp only [List.mem_append, List.mem_cons] at hc
    rcases hc with hc | hc | rfl | hc
    · exact isTargetChar_of_bounds (Address.isServerChar_bounds (hbase c hc))
        (by rintro rfl; exact absurd (hbase _ hc) (by decide))
    · exact isTargetChar_of_bounds (hp.bounds hc)
        (by rintro rfl; exact hp.notMem (by decide) (by decide) hc)
    · decide
    · exact isTargetChar_of_bounds (Query.isQueryChar_bounds (Query.isQueryChar_of_mem_write hc))
        (by rintro rfl; exact absurd (Query.isQueryChar_of_mem_write hc) (by decide))
  · rw [hlist]
    exact Address.read_page hbase (Text.not_suffix_dropTailWhile _) hp
      fun c hc => Query.isQueryChar_of_mem_write hc

theorem lookup?_write (fields : List (String × String)) (name : String) :
    Query.lookup? (Query.write fields) name =
      (fields.find? fun f => f.2 ≠ "" ∧ f.1 = name).map (·.2.toList) := by
  have hname (s t : String) : (s.toList == t.toList) = (s == t) := by
    by_cases h : s = t <;> simp [h, String.toList_inj]
  simp [Query.lookup?, Query.read_write, List.find?_map, List.find?_filter, Function.comp_def,
    hname]

theorem dropTailWhile_eq_self {c : Char} {s : List Char} (h : ¬[c] <:+ s) :
    Text.dropTailWhile (· == c) s = s := by
  rw [Text.dropTailWhile, List.dropWhile_eq_self_iff.mpr, List.reverse_reverse]
  intro hl hc
  apply h
  rw [← List.reverse_prefix, List.reverse_singleton, List.singleton_prefix_iff_head?_eq_some,
    List.head?_eq_getElem?, List.getElem?_eq_getElem hl, eq_of_beq hc]

variable {target : List Char} {address : Address}

theorem linkedDashboard?_eq (h : Address.read target = .ok address)
    (hp : "/dashboard".toList <:+ address.path) :
    linkedDashboard? target = .ok ((Query.lookup? address.query "id").map String.ofList) := by
  have hend : ¬['/'] <:+ address.path := not_suffix_of_suffix hp (by decide) (by decide)
  rw [linkedDashboard?, h]
  simp only [bind, Except.bind, dropTailWhile_eq_self hend, List.isSuffixOf_iff_suffix, hp, if_true]
  rfl

theorem linkedDashboard?_eq_none (h : Address.read target = .ok address)
    (hp : "/project/issues".toList <:+ address.path) : linkedDashboard? target = .ok none := by
  have hend : ¬['/'] <:+ address.path := not_suffix_of_suffix hp (by decide) (by decide)
  have hother : ¬"/dashboard".toList <:+ address.path := fun hd =>
    absurd (List.suffix_of_suffix_length_le hd hp (by decide)) (by decide)
  rw [linkedDashboard?, h]
  simp only [bind, Except.bind, dropTailWhile_eq_self hend, List.isSuffixOf_iff_suffix, hother,
    if_false]
  rfl

/-- A body whose other lines hold no links has the one link at its end. -/
theorem targets_note {lines : List String} (hl : ∀ l ∈ lines, targets l.toList = [])
    (hne : url ≠ "") (hu : ∀ c ∈ url.toList, isTargetChar c = true) :
    targets ("\n".intercalate (lines ++ [ViewLink.write url])).toList = [url.toList] := by
  rw [String.toList_intercalate, show "\n".toList = ['\n'] from rfl, targets_lines, List.map_append,
    List.flatMap_append, List.flatMap_map, List.flatMap_eq_nil_iff.mpr hl]
  simp [targets_write hne hu]

/-- The link of an issue note leads to its issue and to no dashboard. -/
theorem of_issueUrl {a : Analysis} {key : String} (hs : a.HasPlainServer) (hp : a.projectKey ≠ "")
    (hk : key ≠ "") :
    ∃ url, issueUrl a.serverUrl a.projectKey a.pullRequestId key = .ok url ∧ url ≠ "" ∧
      (∀ c ∈ url.toList, isTargetChar c = true) ∧
      linkedIssue? url.toList = .ok (some ⟨some a.projectKey, key⟩) ∧
      linkedDashboard? url.toList = .ok none := by
  obtain ⟨server, hserver, hchars⟩ := hs
  obtain ⟨url, hurl, hne, hu, address, hread, hquery, hpath⟩ :=
    underServer_text [("id", a.projectKey), ("pullRequest", a.pullRequestId), ("issues", key),
      ("open", key)] hchars isPage_issues
  refine ⟨url, by rw [hserver, issueUrl, hurl], hne, hu, ?_, linkedDashboard?_eq_none hread hpath⟩
  have hissues : Query.lookup? address.query "issues" = some key.toList := by
    rw [hquery, lookup?_write]
    simp [hk]
  have hid : Query.lookup? address.query "id" = some a.projectKey.toList := by
    rw [hquery, lookup?_write]
    simp [hp]
  simp [linkedIssue?, hread, bind, Except.bind, hissues, hid, pure, Except.pure]

/-- The link of a summary leads to the dashboard of its project and to no issue. -/
theorem of_dashboard {a : Analysis} (hs : a.HasPlainServer) (hp : a.projectKey ≠ "") :
    ∃ url, a.dashboard = .ok url ∧ url ≠ "" ∧ (∀ c ∈ url.toList, isTargetChar c = true) ∧
      linkedIssue? url.toList = .ok none ∧
      linkedDashboard? url.toList = .ok (some a.projectKey) := by
  obtain ⟨server, hserver, hchars⟩ := hs
  obtain ⟨url, hurl, hne, hu, address, hread, hquery, hpath⟩ :=
    underServer_text [("id", a.projectKey), ("pullRequest", a.pullRequestId)] hchars
      isPage_dashboard
  have hissues : Query.lookup? address.query "issues" = none := by
    rw [hquery, lookup?_write]
    simp
  have hid : Query.lookup? address.query "id" = some a.projectKey.toList := by
    rw [hquery, lookup?_write]
    simp [hp]
  refine ⟨url, by rw [Analysis.dashboard, hserver, dashboardUrl, hurl], hne, hu, ?_, ?_⟩
  · simp [linkedIssue?, hread, bind, Except.bind, hissues, pure, Except.pure]
  · rw [linkedDashboard?_eq hread hpath, hid, Option.map_some, String.ofList_toList]

end Identity
end MergeDecoration
