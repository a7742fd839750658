import Mathlib
import MergeDecoration.Gitlab.Client
import MergeDecoration.Proofs.Remote.Spelling

/-!
The instance that a remote for web pages is on. It is told by the host alone: the port is dropped,
and so the interface for programs is looked for at another address where there is one.
-/
namespace MergeDecoration.Remote

variable {host : String}

/-- The address of an instance, and an address below it, has the host alone for its authority. -/
theorem read_instance (below : String)
    (hplain : ∀ c ∈ host.toList, Address.isHostChar c = true)
    (hbelow : below = "" ∨ below.toList.head? = some '/')
    (hpath : ∀ c ∈ below.toList, Address.isPathChar c = true) :
    Address.read ("https://" ++ host ++ below).toList =
      .ok ⟨"https".toList, (Address.authorityOf none host none).toList, below.toList,
        [], [], []⟩ := by
  have hparts : Address.AreParts none host none := ⟨by simp, hplain, by simp⟩
  have htext : ("https://" ++ host ++ below).toList = "https".toList ++ ':' :: '/' :: '/' ::
      ((Address.authorityOf none host none).toList ++ below.toList) := by
    simp [Address.authorityOf]
  rw [htext]
  apply Address.read_location (by decide) (List.all_eq_true.mp (by decide)) hparts.isServerChar _
    hpath
  rcases hbelow with rfl | hhead
  · exact Or.inl rfl
  · exact Or.inr hhead

/-- The root of the interface for programs is right below the address of an instance. -/
theorem connect_instance (hhost : host ≠ "")
    (hplain : ∀ c ∈ host.toList, Address.isHostChar c = true) (token : String) (timeout : Value) :
    Gitlab.Client.connect (.text ("https://" ++ host)) token timeout =
      .ok ⟨"https://" ++ host ++ "/api/v4", token, timeout⟩ := by
  have hedges : Text.HasEdges (· == '/') host.toList := by
    apply Text.hasEdges_of_forall fun hnil => hhost (String.toList_eq_nil_iff.mp hnil)
    intro c hc
    rw [beq_eq_false_iff_ne]
    rintro rfl
    exact absurd (hplain _ hc) (by decide)
  have hbase : Text.dropTailSlashes ("https://" ++ host) = "https://" ++ host := by
    obtain ⟨t, c, ht, hc⟩ := hedges.last
    rw [Text.dropTailSlashes, Text.dropTailWhile_of_last ⟨"https://".toList ++ t, c, ?_, hc⟩,
      String.ofList_toList]
    rw [String.toList_append, ht, List.append_assoc]
  rw [Gitlab.Client.connect, Value.textOperand, ok_bind, hbase]
  rfl

/-- The address that is detected has the host of the remote and no port, and so has the root of the
interface below it: the port is the one of the remote only if there is none. -/
theorem instance_port_iff {user port : Option String} {host path token : String}
    {timeout : Value} (hparts : Address.AreParts user host port) (hhost : host ≠ "")
    (hpath : IsProjectPath path) :
    ∃ project remote site client root,
      project? (addressOf "https" user host port path) = .ok (some project) ∧
      Address.read (addressOf "https" user host port path).toList = .ok remote ∧
      Address.read project.url.toList = .ok site ∧
      Gitlab.Client.connect (.text project.url) token timeout = .ok client ∧
      client.root = project.url ++ "/api/v4" ∧ Address.read client.root.toList = .ok root ∧
      remote.host? = some host ∧ site.host? = remote.host? ∧ root.host? = remote.host? ∧
      remote.port? = port ∧ (site.port? = remote.port? ↔ port = none) ∧
      (root.port? = remote.port? ↔ port = none) := by
  have halone : Address.AreParts none host none := ⟨by simp, hparts.host, by simp⟩
  have hhttps : ∀ c ∈ "https".toList, c.isLower = true := List.all_eq_true.mp (by decide)
  have hbelow : ∀ c ∈ path.toList, Address.isPathChar c = true := by
    intro c hc
    rcases hpath.plain hc with hsegment | rfl
    · exact isPathChar_of_isSegmentChar hsegment
    · decide
  have hslash : '/' ∈ projectPath (['/'] ++ (path.toList ++ [])) :=
    slash_mem_projectPath hpath (by simp) (by simp)
  rw [List.append_nil] at hslash
  have hsite := read_instance "" hparts.host (Or.inl rfl) (by simp)
  rw [String.append_empty] at hsite
  have hroot := read_instance "/api/v4" hparts.host (Or.inr rfl)
    (List.all_eq_true.mp (by decide))
  have hport : (none = port) ↔ port = none := eq_comm
  refine ⟨_, _, _, _, _, project?_addressOf (by decide) hhttps hparts hhost hbelow hslash,
    read_addressOf (by decide) hhttps hparts hbelow, hsite,
    connect_instance hhost hparts.host token timeout, rfl, hroot, ?_⟩
  rw [hparts.host? hhost rfl, halone.host? hhost rfl, halone.host? hhost rfl, hparts.port? rfl,
    halone.port? rfl, halone.port? rfl]
  exact ⟨rfl, rfl, rfl, rfl, hport, hport⟩

theorem instance_port_iff_with_port :
    Address.AreParts (some "bob:s3cret") "gitlab.example.com" (some "8443") ∧
    IsProjectPath "group/sub_2/repo.git" ∧
    ∃ project remote site client root,
      project? (addressOf "https" (some "bob:s3cret") "gitlab.example.com" (some "8443")
        "group/sub_2/repo.git") = .ok (some project) ∧
      Address.read (addressOf "https" (some "bob:s3cret") "gitlab.example.com" (some "8443")
        "group/sub_2/repo.git").toList = .ok remote ∧
      Address.read project.url.toList = .ok site ∧
      Gitlab.Client.connect (.text project.url) "token" (.int 30) = .ok client ∧
      client.root = project.url ++ "/api/v4" ∧ Address.read client.root.toList = .ok root ∧
      remote.host? = some "gitlab.example.com" ∧ site.host? = remote.host? ∧
      root.host? = remote.host? ∧ remote.port? = some "8443" ∧
      (site.port? = remote.port? ↔ some "8443" = none) ∧
      (root.port? = remote.port? ↔ some "8443" = none) := by
  have hparts : Address.AreParts (some "bob:s3cret") "gitlab.example.com" (some "8443") :=
    ⟨List.all_eq_true.mp (by decide), List.all_eq_true.mp (by decide),
      List.all_eq_true.mp (by decide)⟩
  exact ⟨hparts, isProjectPath_nested,
    instance_port_iff hparts (by decide) isProjectPath_nested⟩

/-- The port of an address for web pages is lost. -/
theorem instance_port_dropped :
    ∃ project remote site,
      project? "https://gitlab.example.com:8443/group/repo.git" = .ok (some project) ∧
      Address.read "https://gitlab.example.com:8443/group/repo.git".toList = .ok remote ∧
      Address.read project.url.toList = .ok site ∧
      remote.port? = some "8443" ∧ site.port? = none := by
  exact ⟨⟨"https://gitlab.example.com", "group/repo"⟩, _, _, rfl, rfl, rfl, rfl, rfl⟩

end MergeDecoration.Remote
