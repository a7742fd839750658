import MergeDecoration.Proofs.Link.Identity
import MergeDecoration.Proofs.Note.Lines

/-!
The identity of the program's own notes. A note has the links of its free text and then its own;
where the free text opens no link, the note is read back as what it was written for.
-/
namespace MergeDecoration

open ViewLink

theorem Value.eq_text_of_asText {v : Value} {s : String} (h : v.asText = .ok s) : v = .text s := by
  cases v with
  | text t => rw [Value.asText, Except.ok.injEq] at h; rw [h]
  | _ => simp [Value.asText] at h

/-- The links in the free text of an issue note: those of the message, then those of the rule. -/
def Issue.links (i : Issue) : List (List Char) :=
  (if i.message.holds then targets i.message.shown.toList else []) ++
    if i.rule.holds then targets i.rule.shown.toList else []

namespace Identity

variable {a : Analysis} {i : Issue} {body : String}

/-- An issue note has the links of its free text, and then the link to the issue. -/
theorem targets_issueNote {url : String} (hne : url ≠ "")
    (hu : ∀ c ∈ url.toList, isTargetChar c = true)
    (hurl : issueUrl a.serverUrl a.projectKey a.pullRequestId i.key = .ok url)
    (hb : a.issueNote i = .ok body) : targets body.toList = i.links ++ [url.toList] := by
  have hempty : targets "".toList = [] := targets_nil
  have hhead := targets_eq_nil (not_opens_headline i.severity i.type)
  have hlines : ∀ lines : List String, targets ("\n".intercalate (lines ++
      [ViewLink.write url])).toList = (lines.flatMap fun l => targets l.toList) ++ [url.toList] := by
    intro lines
    rw [String.toList_intercalate, show "\n".toList = ['\n'] from rfl, targets_lines,
      List.flatMap_map, List.flatMap_append, List.flatMap_singleton, targets_write hne hu]
  have hrule : (if i.rule.holds then ["_Rule: `" ++ i.rule.shown ++ "`_", ""] else []).flatMap
      (fun l => targets l.toList) = if i.rule.holds then targets i.rule.shown.toList else [] := by
    split
    · simp only [List.flatMap_cons, List.flatMap_nil, targets_ruleLine, hempty, List.append_nil]
    · rfl
  rw [Analysis.issueNote, hurl] at hb
  simp only [bind, Except.bind] at hb
  rw [Issue.links]
  by_cases hh : i.message.holds = true
  · rw [if_pos hh] at hb ⊢
    cases ht : i.message.asText with
    | error e => simp [ht] at hb
    | ok m =>
      have hshown : i.message.shown = m := by rw [Value.eq_text_of_asText ht, Value.shown_text]
      simp only [ht, pure, Except.pure, Except.ok.injEq] at hb
      rw [← hb, hlines, List.flatMap_append, List.flatMap_append, hrule, hshown]
      simp only [List.flatMap_cons, List.flatMap_nil, hhead, hempty, List.append_nil,
        List.nil_append]
  · rw [if_neg hh] at hb ⊢
    simp only [pure, Except.pure, Except.ok.injEq] at hb
    rw [← hb, hlines, List.flatMap_append, List.flatMap_append, hrule]
    simp only [List.flatMap_cons, List.flatMap_nil, hhead, hempty, List.append_nil,
      List.nil_append]

theorem links_eq_nil (hm : ¬Opens i.message.shown.toList) (hr : ¬Opens i.rule.shown.toList) :
    i.links = [] := by
  simp only [Issue.links, targets_eq_nil hm, targets_eq_nil hr, ite_self, List.append_nil]

/-- The note of an issue has one link, and it leads to the issue. -/
theorem of_issueNote (hs : a.HasPlainServer) (hp : a.projectKey ≠ "") (hk : i.key ≠ "")
    (hm : ¬Opens i.message.shown.toList) (hr : ¬Opens i.rule.shown.toList)
    (hb : a.issueNote i = .ok body) :
    issue? body = .ok (some ⟨some a.projectKey, i.key⟩) ∧ ∀ q, isSummary body q = .ok false := by
  obtain ⟨url, hurl, hne, hu, hissue, hdash⟩ := of_issueUrl hs hp hk
  have htargets := targets_issueNote hne hu hurl hb
  rw [links_eq_nil hm hr, List.nil_append] at htargets
  constructor
  · simp only [issue?, htargets, firstIssue, hissue]
    rfl
  · intro q
    simp only [isSummary, htargets, anyDashboard, hdash]
    rfl

theorem exists_issueNote (hs : a.HasPlainServer) (hp : a.projectKey ≠ "") (hk : i.key ≠ "")
    (ht : ∃ m, i.message = .text m) : ∃ body, a.issueNote i = .ok body := by
  obtain ⟨url, hurl, -⟩ := of_issueUrl hs hp hk
  obtain ⟨m, hm⟩ := ht
  rw [Analysis.issueNote, hurl, hm]
  simp only [bind, Except.bind, Value.asText]
  split <;> exact ⟨_, rfl⟩

/-- A summary has one link, and it leads to the dashboard of its project. -/
theorem of_summaryNote (hs : a.HasPlainServer) (hp : a.projectKey ≠ "")
    (h : ∀ i ∈ a.openIssues,
      ¬Opens i.message.shown.toList ∧ ¬Opens i.path.shown.toList ∧ ¬Opens i.key.toList) :
    ∃ body, a.summaryNote = .ok body ∧ issue? body = .ok none ∧
      ∀ q, isSummary body q = .ok (decide (q = none ∨ q = some a.projectKey)) := by
  obtain ⟨url, hurl, hne, hu, hissue, hdash⟩ := of_dashboard hs hp
  have htargets := targets_note (fun l hl => targets_eq_nil (not_opens_summaryLines h l hl)) hne hu
  refine ⟨_, by rw [Analysis.summaryNote, hurl]; rfl, ?_, ?_⟩
  · simp only [issue?, htargets, firstIssue, hissue]
    rfl
  · intro q
    simp only [isSummary, htargets, anyDashboard, hdash, bind, Except.bind, pure, Except.pure]
    cases q with
    | none => rfl
    | some p =>
      by_cases hpq : p = a.projectKey
      · simp [hpq]
      · simp [hpq]

/-- Notes keep their identity: an issue note is read back as the note of its issue and never as a
summary, and a summary as that of its project and never as the note of an issue. -/
theorem note_identity_round_trip (a : Analysis) (hs : a.HasPlainServer) (hp : a.projectKey ≠ "") :
    (∀ i : Issue, i.key ≠ "" → (∃ m, i.message = .text m) → ¬Opens i.message.shown.toList →
      ¬Opens i.rule.shown.toList →
      ∃ body, a.issueNote i = .ok body ∧ issue? body = .ok (some ⟨some a.projectKey, i.key⟩) ∧
        ∀ q, isSummary body q = .ok false) ∧
    ((∀ i ∈ a.openIssues,
        ¬Opens i.message.shown.toList ∧ ¬Opens i.path.shown.toList ∧ ¬Opens i.key.toList) →
      ∃ body, a.summaryNote = .ok body ∧ issue? body = .ok none ∧
        ∀ q, isSummary body q = .ok (decide (q = none ∨ q = some a.projectKey))) := by
  constructor
  · intro i hk ht hm hr
    obtain ⟨body, hb⟩ := exists_issueNote hs hp hk ht
    exact ⟨body, hb, of_issueNote hs hp hk hm hr hb⟩
  · exact of_summaryNote hs hp

/-- Keys of reserved and foreign characters, and a message with a closed link label, survive. -/
theorem note_identity_round_trip_reserved :
    let i : Issue := {
      key := "k=&%41+(é)\n#"
      path := .text "src/[x].py"
      severity := "[view in"
      type := "view_in"
      message := .text "see [View in SonarQube] (there)"
      rule := .text "a)b" }
    let a : Analysis := {
      projectKey := "ä b&id=c)"
      pullRequestId := ""
      commitSha := ""
      gate := .error
      serverUrl := .text "http://x:9000//dashboard;a//"
      issues := [i] }
    (∃ body, a.issueNote i = .ok body ∧
        issue? body = .ok (some ⟨some "ä b&id=c)", "k=&%41+(é)\n#"⟩) ∧
      ∀ q, isSummary body q = .ok false) ∧
    ∃ body, a.summaryNote = .ok body ∧ issue? body = .ok none ∧
      ∀ q, isSummary body q = .ok (decide (q = none ∨ q = some "ä b&id=c)")) := by
  intro i a
  have hserver : a.HasPlainServer := ⟨_, rfl, List.all_eq_true.mp (by decide)⟩
  have h := note_identity_round_trip a hserver (by decide)
  refine ⟨h.1 i (by decide) ⟨_, rfl⟩ (by decide) (by decide), h.2 ?_⟩
  have hi : a.openIssues = [i] := rfl
  rw [hi]
  decide

end Identity
end MergeDecoration
