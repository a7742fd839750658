import MergeDecoration.Platform
import MergeDecoration.Proofs.Discussion.Change
import MergeDecoration.Proofs.Link.Lines
import MergeDecoration.Proofs.Note.Identity

/-!
Issue notes whose free text holds links of its own. The links are read in order, those of the free
text before the note's own, so a note keeps its identity exactly if the links before it leave it.
-/
namespace MergeDecoration
namespace Identity

/-- Links that do not get in the way of an issue's own: they can be read, they lead to no dashboard
of the project, and the first of them that leads to an issue, if any does, leads to this one. -/
def Spares (links : List (List Char)) (project key : String) : Prop :=
  (firstIssue links = .ok none ∨ firstIssue links = .ok (some ⟨some project, key⟩)) ∧
    anyDashboard (project == ·) links = .ok false

variable {a : Analysis} {i : Issue} {body : String}

/-- An issue note is about the first issue that its free text links to, and about its own issue only
if there is none. It is a summary of just those projects whose dashboards its free text links to. -/
theorem of_issueNote_links (hs : a.HasPlainServer) (hp : a.projectKey ≠ "") (hk : i.key ≠ "")
    (hb : a.issueNote i = .ok body) :
    (issue? body = firstIssue i.links >>= fun found =>
      .ok (found.or (some ⟨some a.projectKey, i.key⟩))) ∧
    ∀ project, isSummary body project = anyDashboard (fun p => project.all (· == p)) i.links := by
  obtain ⟨url, hurl, hne, hu, hissue, hdash⟩ := of_issueUrl hs hp hk
  have htargets := targets_issueNote hne hu hurl hb
  have hown : firstIssue [url.toList] = .ok (some ⟨some a.projectKey, i.key⟩) := by
    rw [firstIssue, hissue]
    rfl
  have hnone : ∀ isWanted, anyDashboard isWanted [url.toList] = .ok false := by
    intro isWanted
    rw [anyDashboard, hdash]
    rfl
  constructor
  · rw [issue?, htargets, firstIssue_append, hown]
    congr 1
    funext found
    cases found <;> rfl
  · intro project
    rw [isSummary, htargets, anyDashboard_append, hnone]
    cases anyDashboard _ i.links with
    | error e => rfl
    | ok found => cases found <;> rfl

/-- A note is read back as the note of its issue exactly if its free text spares it. -/
theorem spares_iff (hs : a.HasPlainServer) (hp : a.projectKey ≠ "") (hk : i.key ≠ "")
    (hb : a.issueNote i = .ok body) :
    issue? body = .ok (some ⟨some a.projectKey, i.key⟩) ∧
        isSummary body (some a.projectKey) = .ok false ↔
      Spares i.links a.projectKey i.key := by
  obtain ⟨hissue, hsummary⟩ := of_issueNote_links hs hp hk hb
  have hdash : isSummary body (some a.projectKey) =
      anyDashboard (a.projectKey == ·) i.links := hsummary (some a.projectKey)
  rw [Spares, hissue, hdash]
  refine and_congr_left fun _ => ?_
  cases firstIssue i.links with
  | error e => simp [bind, Except.bind]
  | ok found => cases found <;> simp [bind, Except.bind]

/-- A discussion that the machine user opens is a thread of the issue that its text is about, unless
the text is a summary. -/
theorem classify_openDiscussion_iff {p : Platform} {key : String} {identity : IssueIdentity}
    (h : p.username.same p.username = true) :
    let d := (p.openDiscussion p.username (.text body) true).1
    d.classify p.username (some key) = .ok ⟨d, .singleIdentified, some identity, false⟩ ↔
      issue? body = .ok (some identity) ∧ isSummary body (some key) = .ok false := by
  intro d
  have hlink : ∀ first rest text, d.notes = first :: rest → first.linkText = .ok text →
      text = body := by
    intro first rest text hnotes htext
    obtain ⟨rfl, -⟩ := List.cons.inj hnotes
    rw [Discussion.linkText_text rfl, Except.ok.injEq] at htext
    exact htext.symm
  constructor
  · intro hd
    rcases Discussion.classify_cases hd with ⟨heq, -⟩ | ⟨j, closed, heq, hstart, -⟩ | ⟨-, -, hnone⟩
    · cases heq
    · obtain ⟨first, rest, text, hnotes, -, -, htext, hsummary, hissue⟩ := hstart
      obtain ⟨-, -, hj, -⟩ := Classified.mk.inj heq
      rw [hlink first rest text hnotes htext] at hsummary hissue
      rw [hj]
      exact ⟨hissue, hsummary⟩
    · cases hnone
  · rintro ⟨hissue, hsummary⟩
    exact Discussion.classify_of_startsIssue
      ⟨_, [], body, rfl, h, rfl, Discussion.linkText_text rfl, hsummary, hissue⟩ rfl

/-- Links in the message or the rule of an issue come before the note's own link. The note is read
back as the note of its issue, and its discussion is taken for the issue's thread, exactly if they
spare its identity; otherwise the note is about the issue or the summary that they lead to. -/
theorem issueNote_identity_iff (hs : a.HasPlainServer) (hp : a.projectKey ≠ "") (hk : i.key ≠ "")
    (ht : ∃ m, i.message = .text m) :
    ∃ body, a.issueNote i = .ok body ∧
      (issue? body = firstIssue i.links >>= fun found =>
        .ok (found.or (some ⟨some a.projectKey, i.key⟩))) ∧
      (∀ project, isSummary body project = anyDashboard (fun p => project.all (· == p)) i.links) ∧
      (issue? body = .ok (some ⟨some a.projectKey, i.key⟩) ∧
          isSummary body (some a.projectKey) = .ok false ↔
        Spares i.links a.projectKey i.key) ∧
      ∀ p : Platform, p.username.same p.username = true →
        let d := (p.openDiscussion p.username (.text body) true).1
        (d.classify p.username (some a.projectKey) =
            .ok ⟨d, .singleIdentified, some ⟨some a.projectKey, i.key⟩, false⟩ ↔
          Spares i.links a.projectKey i.key) := by
  obtain ⟨body, hb⟩ := exists_issueNote hs hp hk ht
  obtain ⟨hissue, hsummary⟩ := of_issueNote_links hs hp hk hb
  have hiff := spares_iff hs hp hk hb
  exact ⟨body, hb, hissue, hsummary, hiff, fun p h => (classify_openDiscussion_iff h).trans hiff⟩

/-- A message with a link to another project's dashboard, and a rule with a link to the issue. -/
theorem issueNote_identity_iff_spared :
    let i : Issue := {
      key := "k 1"
      message := .text "as in [View in SonarQube](http://y/dashboard?id=q)\nand"
      rule := .text "[View in SonarQube](/issues?issues=k+1&id=p)" }
    let a : Analysis := {
      projectKey := "p"
      pullRequestId := "7"
      commitSha := ""
      gate := .error
      serverUrl := .text "http://x" }
    let q : Platform := {
      mergeRequest := fun iid => ⟨iid, .int 1, .int 2, .text "b", .text "s", .text "h", .text "u"⟩ }
    Spares i.links "p" "k 1" ∧ ∃ body, a.issueNote i = .ok body ∧
      issue? body = .ok (some ⟨some "p", "k 1"⟩) ∧ isSummary body (some "p") = .ok false ∧
      let d := (q.openDiscussion q.username (.text body) true).1
      d.classify q.username (some "p") =
        .ok ⟨d, .singleIdentified, some ⟨some "p", "k 1"⟩, false⟩ := by
  intro i a q
  have hserver : a.HasPlainServer := ⟨_, rfl, List.all_eq_true.mp (by decide)⟩
  have hspares : Spares i.links "p" "k 1" :=
    ⟨Or.inr (eq_ok_of_toOption (by decide +kernel)), eq_ok_of_toOption (by decide +kernel)⟩
  obtain ⟨body, hb, -, -, hread, hopened⟩ :=
    issueNote_identity_iff (a := a) (i := i) hserver (by decide) (by decide) ⟨_, rfl⟩
  obtain ⟨hissue, hsummary⟩ := hread.mpr hspares
  exact ⟨hspares, body, hb, hissue, hsummary, (hopened q (Value.same_text ..)).mpr hspares⟩

/-- A message can make the note of an issue one of another issue, or a summary, or one that cannot
be read. -/
theorem issueNote_identity_lost :
    let a : Analysis := {
      projectKey := "p"
      pullRequestId := "7"
      commitSha := ""
      gate := .error
      serverUrl := .text "http://x" }
    let issue (message : String) : Issue := { key := "k", message := .text message }
    a.HasPlainServer ∧
      (∃ body, a.issueNote (issue "[View in SonarQube](http://x/project/issues?id=q&issues=other)") =
        .ok body ∧ issue? body = .ok (some ⟨some "q", "other"⟩)) ∧
      (∃ body, a.issueNote (issue "[View in SonarQube](http://x/dashboard?id=p)") = .ok body ∧
        isSummary body (some "p") = .ok true) ∧
      ∃ body, a.issueNote (issue "[View in SonarQube](http://[x)") = .ok body ∧
        (issue? body).toOption = none := by
  intro a issue
  have hserver : a.HasPlainServer := ⟨_, rfl, List.all_eq_true.mp (by decide)⟩
  have hread : ∀ message, ∃ body, a.issueNote (issue message) = .ok body ∧
      (issue? body = firstIssue (issue message).links >>= fun found =>
        .ok (found.or (some ⟨some "p", "k"⟩))) ∧
      isSummary body (some "p") = anyDashboard ("p" == ·) (issue message).links := by
    intro message
    have hp : a.projectKey ≠ "" := by decide
    have hk : (issue message).key ≠ "" := by simp [issue]
    obtain ⟨body, hb⟩ := exists_issueNote hserver hp hk ⟨message, rfl⟩
    obtain ⟨hissue, hsummary⟩ := of_issueNote_links hserver hp hk hb
    exact ⟨body, hb, hissue, hsummary (some "p")⟩
  refine ⟨hserver, ?_, ?_, ?_⟩
  · obtain ⟨body, hb, hissue, -⟩ :=
      hread "[View in SonarQube](http://x/project/issues?id=q&issues=other)"
    exact ⟨body, hb, hissue.trans (eq_ok_of_toOption (by decide +kernel))⟩
  · obtain ⟨body, hb, -, hsummary⟩ := hread "[View in SonarQube](http://x/dashboard?id=p)"
    exact ⟨body, hb, hsummary.trans (eq_ok_of_toOption (by decide +kernel))⟩
  · obtain ⟨body, hb, hissue, -⟩ := hread "[View in SonarQube](http://[x)"
    refine ⟨body, hb, ?_⟩
    rw [hissue]
    decide +kernel

end Identity
end MergeDecoration
