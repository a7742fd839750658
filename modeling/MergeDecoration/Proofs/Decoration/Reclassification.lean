import MergeDecoration.Proofs.Decoration.Progress
import MergeDecoration.Proofs.Discussion.Change

/-!
What the next run makes of a discussion that a run has treated in part or in full: what is done is
not asked again, and what is not done is asked as before.
-/
namespace MergeDecoration

open Platform (noteId discussionId)

namespace Snapshot

variable {s : Snapshot} {c : Classified} {written : Nat} {e : Discussion}

/-- A run on a snapshot can read the discussion back. -/
structure Reads (s : Snapshot) (c : Classified) : Prop where
  username : s.username.same s.username = true
  classify : c.discussion.classify s.username (some s.analysis.projectKey) = .ok c
  ids : ∃ count, Value.Numbered noteId count c.discussion.noteIds
  system : ∀ n ∈ c.discussion.notes, n.system = true → n.IsPlain
  flags : c.kind = .summary → ∃ b, s.isFlagged c = .ok b
  current : s.isCurrent c = true → c.kind = .summary ∧ s.flagged c = false
  summary : Identity.isSummary s.summaryBody (some s.analysis.projectKey) = .ok true

/-- The discussion of the current summary with the new text, as it is before and after the summary
is resolved. -/
def HoldsNewText (s : Snapshot) (c : Classified) (e : Discussion) : Prop :=
  e = c.discussion.editNote (firstNoteId c) s.summaryBody ∨ s.analysis.passed = true ∧
    e = (c.discussion.editNote (firstNoteId c) s.summaryBody).resolve

/-- Nothing is to be done about a discussion unless its summary is the current one: it is idle, or
its summary is flagged. -/
def IsSettled (s : Snapshot) (k : Classified) : Prop :=
  k.IsIdle s.analysis.projectKey ∨ k.kind = .summary ∧ s.isFlagged k = .ok true ∧
    k.discussion.replies.isEmpty = false

/-- What a discussion at a stage is classified as by the next run. -/
inductive Next (s : Snapshot) (written : Nat) (c : Classified) : Classified → Prop
  /-- Nothing was done yet, or nothing is to be done. -/
  | same : Next s written c c
  /-- The summary holds the new text. -/
  | current {k : Classified} (h : s.isCurrent c = true) (hkind : k.kind = .summary)
    (hflag : s.isFlagged k = .ok false) (hd : s.HoldsNewText c k.discussion) : Next s written c k
  /-- The discussion needs nothing more. -/
  | idle {k : Classified} {n : Nat} (hcurrent : s.isCurrent c = false)
    (h : k.IsIdle s.analysis.projectKey) (hn : written ≤ n)
    (ht : s.treated (noteId n) c = some k.discussion) : Next s written c k
  /-- The summary is flagged. -/
  | flagged {k : Classified} {n : Nat} (hcurrent : s.isCurrent c = false)
    (hkind : k.kind = .summary) (hflag : s.isFlagged k = .ok true)
    (hreplies : k.discussion.replies.isEmpty = false) (hn : written ≤ n)
    (ht : s.treated (noteId n) c = some k.discussion) : Next s written c k

theorem isFlagged_of_flagged {b : Bool} (h : s.Reads c) (hkind : c.kind = .summary)
    (hflag : s.flagged c = b) : s.isFlagged c = .ok b :=
  isFlagged_eq (h.flags hkind) hflag

theorem treatment_of_isRetired (h : s.isRetired c = true) (hcurrent : s.isCurrent c = false) :
    s.treatment c = s.retirement c := by
  rw [treatment, hcurrent, if_neg Bool.false_ne_true, if_pos h]

/-- The current summary, edited and possibly resolved. -/
theorem next_of_current (h : s.Reads c) (hcurrent : s.isCurrent c = true)
    (he : s.HoldsNewText c e) :
    ∃ k, e.classify s.username (some s.analysis.projectKey) = .ok k ∧ s.Next written c k := by
  obtain ⟨hkind, hflag⟩ := h.current hcurrent
  obtain ⟨first, rest, body, hn, hby, -⟩ := Discussion.startsSummary_of_kind h.classify hkind
  obtain ⟨count, hids⟩ := h.ids
  have hfirst := firstNoteId_of_notes hn
  have hstart := Discussion.startsSummary_editNote hn hids hby h.summary
  have hnote : (c.discussion.editNote first.id s.summaryBody).hasNote s.username
      outdatedSummaryNote = .ok false := by
    rw [Discussion.hasNote_editNote hn hids]
    exact isFlagged_of_flagged h hkind hflag
  have hd := he
  rw [HoldsNewText, hfirst] at he
  rcases he with rfl | ⟨-, rfl⟩
  · exact ⟨_, Discussion.classify_of_startsSummary hstart, .current hcurrent rfl hnote hd⟩
  · have hresolved := Discussion.startsSummary_congr Discussion.face_resolve hstart
    refine ⟨_, Discussion.classify_of_startsSummary hresolved, .current hcurrent rfl ?_ hd⟩
    rw [isFlagged, Discussion.hasNote_resolve]
    exact hnote

/-- What is left of a deleted summary without replies, system notes, is idle. -/
theorem idle_of_deleteNote (h : s.Reads c) (hkind : c.kind = .summary)
    (hreplies : c.discussion.replies.isEmpty = true)
    (he : c.discussion.deleteNote (firstNoteId c) = some e) :
    ∃ k, e.classify s.username (some s.analysis.projectKey) = .ok k ∧
      k.IsIdle s.analysis.projectKey := by
  obtain ⟨first, rest, body, hnotes, -⟩ := Discussion.startsSummary_of_kind h.classify hkind
  obtain ⟨count, hids⟩ := h.ids
  rw [firstNoteId_of_notes hnotes] at he
  exact Discussion.classify_system s.username (some s.analysis.projectKey)
    (Discussion.system_of_deleteNote hnotes hids hreplies h.system he) s.analysis.projectKey

/-- A retired summary is flagged, or nothing of it is left but system notes. -/
theorem next_of_retired {n : Nat} (h : s.Reads c) (hretired : s.isRetired c = true)
    (hcurrent : s.isCurrent c = false) (hn : written ≤ n)
    (he : s.treated (noteId n) c = some e) :
    ∃ k, e.classify s.username (some s.analysis.projectKey) = .ok k ∧ s.Next written c k ∧
      s.IsSettled k := by
  have hkind := kind_of_isRetired hretired
  have htreated := he
  rw [treated, treatment_of_isRetired hretired hcurrent, retirement] at he
  split_ifs at he with hreplies hflag
  · rw [Discussion.changes_singleton] at he
    obtain ⟨k, hk, hidle⟩ := idle_of_deleteNote h hkind hreplies he
    refine ⟨k, hk, .idle hcurrent hidle hn ?_, Or.inl hidle⟩
    rw [htreated, Discussion.discussion_of_classify hk]
  · rw [Bool.not_eq_true] at hreplies
    have heq : e = c.discussion := (Option.some.inj he).symm
    have hflagged := isFlagged_of_flagged h hkind hflag
    refine ⟨c, by rw [heq]; exact h.classify, .same, Or.inr ⟨hkind, hflagged, hreplies⟩⟩
  · rw [Bool.not_eq_true] at hflag
    rw [Discussion.changes_singleton] at he
    have hstart := Discussion.startsSummary_of_kind h.classify hkind
    have hne := hstart.notes_ne_nil
    have heq : e = c.discussion.addNote s.username (noteId n) outdatedSummaryNote :=
      (Option.some.inj he).symm
    have hclassify := Discussion.classify_of_startsSummary
      (Discussion.startsSummary_congr (Discussion.face_addNote s.username (noteId n) hne
        outdatedSummaryNote) hstart)
    have hnote := Discussion.hasNote_addNote_outdated (noteId n) hne h.username
      (isFlagged_of_flagged h hkind hflag)
    have hreply := Discussion.replies_addNote s.username (noteId n) hne outdatedSummaryNote
    rw [heq]
    refine ⟨_, hclassify, .flagged hcurrent rfl hnote hreply hn ?_, Or.inr ⟨rfl, hnote, hreply⟩⟩
    rw [htreated, heq]

theorem isIdle_of_closed {d : Discussion} {kind : DiscussionKind} {i : IssueIdentity}
    {project : String} (hkind : kind ≠ .summary) :
    (⟨d, kind, some i, true⟩ : Classified).IsIdle project := by
  refine ⟨hkind, ?_⟩
  rw [Classified.isLiveIssue, Bool.not_true, Bool.and_false, Bool.false_and]

/-- The thread of an issue that is gone is closed. -/
theorem next_of_stale {n : Nat} (h : s.Reads c) (hstale : s.isStale s.openKeys c = true)
    (hcurrent : s.isCurrent c = false) (ht : s.treatment c = s.staleRequests s.openKeys c)
    (hn : written ≤ n)
    (he : s.treated (noteId n) c = some e) :
    ∃ k, e.classify s.username (some s.analysis.projectKey) = .ok k ∧ s.Next written c k ∧
      k.IsIdle s.analysis.projectKey := by
  have hlive := hstale
  rw [isStale, Bool.and_eq_true] at hlive
  obtain ⟨i, hc, -, hstart, hopen⟩ := Discussion.startsIssue_of_isLiveIssue h.classify hlive.1
  have htreated := he
  rw [treated, ht, staleRequests, if_pos hstale] at he
  split_ifs at he with hmixed
  · rw [Discussion.changes_singleton] at he
    have heq : e = c.discussion.addNote s.username (noteId n) staleIssueNote :=
      (Option.some.inj he).symm
    have hclassify := Discussion.classify_addNote_stale (noteId n) h.username hstart hopen
    rw [← heq] at hclassify
    have hidle : (⟨e, .mixed, some i, true⟩ : Classified).IsIdle s.analysis.projectKey :=
      isIdle_of_closed (by decide)
    exact ⟨_, hclassify, .idle hcurrent hidle hn htreated, hidle⟩
  · rw [Discussion.changes_singleton] at he
    have heq : e = c.discussion.resolve := (Option.some.inj he).symm
    have hclassify := Discussion.classify_resolve_issue hstart
    rw [← heq] at hclassify
    have hkind : (if c.discussion.replies.isEmpty then .singleIdentified else .mixed) ≠
        DiscussionKind.summary := by
      split_ifs <;> decide
    exact ⟨_, hclassify, .idle hcurrent (isIdle_of_closed hkind) hn htreated,
      isIdle_of_closed hkind⟩

/-- What a discussion at a stage is classified as by the next run. -/
theorem next_of_stage (h : s.Reads c) (hstage : s.Stage written c (some e)) :
    ∃ k, e.classify s.username (some s.analysis.projectKey) = .ok k ∧ s.Next written c k := by
  generalize hx : some e = x at hstage
  cases hstage with
  | untouched =>
    rw [Option.some.inj hx]
    exact ⟨c, h.classify, .same⟩
  | edited hcurrent => exact next_of_current h hcurrent (Or.inl (Option.some.inj hx))
  | @treated n hn =>
    by_cases hcurrent : s.isCurrent c = true
    · rw [treated_of_isCurrent _ hcurrent] at hx
      apply next_of_current h hcurrent
      cases hp : s.analysis.passed with
      | true =>
        rw [hp] at hx
        exact Or.inr ⟨hp, Option.some.inj hx⟩
      | false =>
        rw [hp] at hx
        exact Or.inl (Option.some.inj hx)
    rw [Bool.not_eq_true] at hcurrent
    by_cases hretired : s.isRetired c = true
    · obtain ⟨k, hk, hnext, -⟩ := next_of_retired h hretired hcurrent hn hx.symm
      exact ⟨k, hk, hnext⟩
    have ht : s.treatment c = s.staleRequests s.openKeys c := by
      rw [treatment, hcurrent, if_neg Bool.false_ne_true, if_neg hretired]
    by_cases hstale : s.isStale s.openKeys c = true
    · obtain ⟨k, hk, hnext, -⟩ := next_of_stale h hstale hcurrent ht hn hx.symm
      exact ⟨k, hk, hnext⟩
    · rw [treated, ht, staleRequests, if_neg hstale] at hx
      rw [Option.some.inj hx]
      exact ⟨c, h.classify, .same⟩

end Snapshot
end MergeDecoration
