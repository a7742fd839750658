import MergeDecoration.Proofs.Discussion.Classification
import MergeDecoration.Proofs.Lists
import MergeDecoration.Proofs.Platform.Numbering

/-!
What the program's own changes make of a discussion. Each of them takes away the reason that it was
made for.
-/
namespace MergeDecoration

namespace Discussion

variable {d e : Discussion} {user note : Value} {project : Option String} {first : Note}
  {rest : List Note}

/-- A reply by the user is one of its later notes. -/
theorem hasLaterNote_addNote {q : String → Bool} {found : Bool} (hn : d.notes ≠ [])
    (hsame : user.same user = true) (h : d.hasLaterNote user q = .ok found) (text : String) :
    (d.addNote user note text).hasLaterNote user q = .ok (found || q (Text.trim text)) := by
  obtain ⟨first, rest, hnotes⟩ := List.exists_cons_of_ne_nil hn
  unfold hasLaterNote at h ⊢
  rw [addNote, hnotes, List.cons_append, List.tail_cons, anyM_append]
  rw [hnotes, List.tail_cons] at h
  rw [h]
  cases found with
  | true => rfl
  | false =>
    simp only [bind, Except.bind, pure, Except.pure, Note.isBy, hsame, Value.textOperand,
      List.anyM_cons, List.anyM_nil, Bool.false_eq_true, if_false, if_true, Bool.false_or]
    cases q (Text.trim text) <;> rfl

theorem hasLaterNote_congr {q : String → Bool}
    (h : e.notes.tail.map (fun n => (n.author, n.body)) =
      d.notes.tail.map (fun n => (n.author, n.body))) :
    e.hasLaterNote user q = d.hasLaterNote user q := by
  have hmap : ∀ f : Discussion, f.hasLaterNote user q =
      (f.notes.tail.map fun n => (n.author, n.body)).anyM fun x => do
        if x.1.username.same user then return q (Text.trim (← x.2.textOperand))
        else return false := by
    intro f
    unfold hasLaterNote
    induction f.notes.tail with
    | nil => rfl
    | cons n ns ih =>
      rw [List.map_cons, List.anyM_cons, List.anyM_cons, ih]
      rfl
  rw [hmap, hmap, h]

theorem hasLaterNote_resolve {q : String → Bool} :
    d.resolve.hasLaterNote user q = d.hasLaterNote user q := by
  apply hasLaterNote_congr
  rw [resolve, ← List.map_tail, List.map_map]
  apply List.map_congr_left
  intro n _
  simp only [Function.comp_apply]
  split <;> rfl

/-- Ids being unique, the first note has its id alone. -/
theorem id_first {next : Nat → Value} {count : Nat} (hn : d.notes = first :: rest)
    (hids : Value.Numbered next count d.noteIds) :
    first.id.same first.id = true ∧ ∀ n ∈ rest, n.id.same first.id = false := by
  rw [noteIds, hn, List.map_cons] at hids
  refine ⟨hids.same _ (List.mem_cons_self ..), ?_⟩
  intro n hmem
  exact ((List.pairwise_cons.mp hids.apart).1 n.id (List.mem_map_of_mem hmem)).2

/-- Only the first note is edited. -/
theorem editNote_first {next : Nat → Value} {count : Nat} (hn : d.notes = first :: rest)
    (hids : Value.Numbered next count d.noteIds) (text : String) :
    d.editNote first.id text = { d with notes := { first with body := .text text } :: rest } := by
  obtain ⟨hsame, hapart⟩ := id_first hn hids
  rw [editNote, hn, List.map_cons, if_pos hsame]
  congr
  conv_rhs => rw [← List.map_id rest]
  apply List.map_congr_left
  intro n hmem
  rw [hapart n hmem, if_neg Bool.false_ne_true]
  rfl

/-- Only the first note is deleted. -/
theorem deleteNote_first {next : Nat → Value} {count : Nat} (hn : d.notes = first :: rest)
    (hids : Value.Numbered next count d.noteIds) :
    d.deleteNote first.id = if rest = [] then none else some { d with notes := rest } := by
  obtain ⟨hsame, hapart⟩ := id_first hn hids
  have hfilter : d.notes.filter (!·.id.same first.id) = rest := by
    rw [hn, List.filter_cons_of_neg (by rw [hsame]; exact Bool.false_ne_true), List.filter_eq_self]
    intro n hmem
    rw [hapart n hmem]
    rfl
  unfold deleteNote
  rw [hfilter]
  cases rest with
  | nil => rfl
  | cons n ns => rfl

/-- An edit made twice is one edit. -/
theorem editNote_editNote (d : Discussion) (note : Value) (text : String) :
    (d.editNote note text).editNote note text = d.editNote note text := by
  simp only [editNote, List.map_map]
  congr 1
  apply List.map_congr_left
  intro n _
  simp only [Function.comp_apply]
  split_ifs <;> rfl

theorem resolve_resolve (d : Discussion) : d.resolve.resolve = d.resolve := by
  simp only [resolve, List.map_map]
  congr 1
  apply List.map_congr_left
  intro n _
  simp only [Function.comp_apply]
  split_ifs <;> rfl

theorem editNote_resolve (d : Discussion) (note : Value) (text : String) :
    d.resolve.editNote note text = (d.editNote note text).resolve := by
  simp only [editNote, resolve, List.map_map]
  congr 1
  apply List.map_congr_left
  intro n _
  simp only [Function.comp_apply]
  split_ifs <;> rfl

/-- What of the first note tells what a discussion is. -/
def face (d : Discussion) : Option (User × Value × Bool) :=
  d.notes.head?.map fun n => (n.author, n.body, n.resolvable)

theorem face_addNote (user note : Value) (hn : d.notes ≠ []) (text : String) :
    (d.addNote user note text).face = d.face := by
  obtain ⟨first, rest, hnotes⟩ := List.exists_cons_of_ne_nil hn
  rw [face, face, addNote, hnotes, List.cons_append, List.head?_cons, List.head?_cons]

theorem face_resolve : d.resolve.face = d.face := by
  rw [face, face, resolve]
  cases d.notes with
  | nil => rfl
  | cons n ns =>
    rw [List.map_cons, List.head?_cons, List.head?_cons, Option.map_some, Option.map_some]
    split <;> rfl

/-- Discussions with the same face start alike. -/
theorem notes_of_face (h : e.face = d.face) (hn : d.notes = first :: rest) :
    ∃ n ns, e.notes = n :: ns ∧ n.author = first.author ∧ n.body = first.body ∧
      n.resolvable = first.resolvable := by
  rw [face, face, hn, List.head?_cons, Option.map_some, Option.map_eq_some_iff] at h
  obtain ⟨n, hhead, heq⟩ := h
  obtain ⟨ns, hns⟩ := List.head?_eq_some_iff.mp hhead
  simp only [Prod.mk.injEq] at heq
  exact ⟨n, ns, hns, heq.1, heq.2.1, heq.2.2⟩

theorem startsSummary_congr (hface : e.face = d.face) (h : d.StartsSummary user project) :
    e.StartsSummary user project := by
  obtain ⟨first, rest, body, hn, hby, htext, hs⟩ := h
  obtain ⟨n, ns, he, hauthor, hbody, -⟩ := notes_of_face hface hn
  refine ⟨n, ns, body, he, ?_, ?_, hs⟩
  · rwa [Note.isBy, hauthor]
  · rwa [Note.linkText, hbody]

theorem startsIssue_congr {i : IssueIdentity} (hface : e.face = d.face)
    (h : d.StartsIssue user project i) : e.StartsIssue user project i := by
  obtain ⟨first, rest, body, hn, hby, hr, htext, hs, hi⟩ := h
  obtain ⟨n, ns, he, hauthor, hbody, hresolvable⟩ := notes_of_face hface hn
  refine ⟨n, ns, body, he, ?_, hresolvable.trans hr, ?_, hs, hi⟩
  · rwa [Note.isBy, hauthor]
  · rwa [Note.linkText, hbody]

theorem StartsSummary.notes_ne_nil (h : d.StartsSummary user project) : d.notes ≠ [] := by
  obtain ⟨first, rest, -, hn, -⟩ := h
  rw [hn]
  exact List.cons_ne_nil _ _

theorem StartsIssue.notes_ne_nil {i : IssueIdentity} (h : d.StartsIssue user project i) :
    d.notes ≠ [] := by
  obtain ⟨first, rest, -, hn, -⟩ := h
  rw [hn]
  exact List.cons_ne_nil _ _

theorem trim_staleIssueNote : Text.trim staleIssueNote = staleIssueNote := by
  apply Text.trim_append
  · rw [String.toList_append, String.toList_append]
    decide
  · decide

theorem trim_outdatedSummaryNote : Text.trim outdatedSummaryNote = outdatedSummaryNote := by
  apply Text.trim_append
  · rw [String.toList_append, String.toList_append]
    decide
  · decide

theorem replies_addNote (user note : Value) (hn : d.notes ≠ []) (text : String) :
    (d.addNote user note text).replies.isEmpty = false := by
  obtain ⟨first, rest, hnotes⟩ := List.exists_cons_of_ne_nil hn
  rw [replies, addNote, hnotes, List.cons_append, List.tail_cons, List.filter_append,
    List.isEmpty_eq_false_iff]
  exact List.append_ne_nil_of_right_ne_nil _ (List.cons_ne_nil _ _)

theorem replies_resolve : d.resolve.replies.isEmpty = d.replies.isEmpty := by
  rw [replies, replies, resolve, ← List.map_tail, List.filter_map, List.isEmpty_map]
  congr 1
  apply List.filter_congr
  intro n _
  simp only [Function.comp_apply]
  split <;> rfl

/-- A reply leaves it open whether a discussion is resolved. -/
theorem resolved_addNote (hn : d.notes ≠ []) (text : String) :
    (d.addNote user note text).resolved = d.resolved := by
  obtain ⟨first, rest, hnotes⟩ := List.exists_cons_of_ne_nil hn
  rw [resolved, resolved, addNote, hnotes, List.cons_append]

/-- Whether the first note can be resolved. -/
def isResolvable (d : Discussion) : Bool := d.notes.head?.any (·.resolvable)

theorem isResolvable_resolve : d.resolve.isResolvable = d.isResolvable := by
  cases hn : d.notes with
  | nil => simp [isResolvable, resolve, hn]
  | cons first rest =>
    simp only [isResolvable, resolve, hn, List.map_cons, List.head?_cons, Option.any_some]
    split <;> rfl

theorem isResolvable_editNote (d : Discussion) (note : Value) (text : String) :
    (d.editNote note text).isResolvable = d.isResolvable := by
  cases hn : d.notes with
  | nil => simp [isResolvable, editNote, hn]
  | cons first rest =>
    simp only [isResolvable, editNote, hn, List.map_cons, List.head?_cons, Option.any_some]
    split <;> rfl

theorem StartsIssue.isResolvable {i : IssueIdentity} (h : d.StartsIssue user project i) :
    d.isResolvable = true := by
  obtain ⟨first, rest, body, hn, -, hr, -⟩ := h
  rw [Discussion.isResolvable, hn, List.head?_cons, Option.any_some, hr]

theorem resolved_resolve (h : d.isResolvable = true) : d.resolve.resolved = true := by
  cases hn : d.notes with
  | nil =>
    rw [isResolvable, hn] at h
    cases h
  | cons first rest =>
    rw [isResolvable, hn, List.head?_cons, Option.any_some] at h
    simp [resolved, resolve, hn, h]

/-- No edit changes whether a discussion is resolved. -/
theorem resolved_editNote (d : Discussion) (note : Value) (text : String) :
    (d.editNote note text).resolved = d.resolved := by
  cases hn : d.notes with
  | nil => simp [resolved, editNote, hn]
  | cons first rest =>
    simp only [resolved, editNote, hn, List.map_cons]
    split <;> rfl

/-- The stale note closes a thread. -/
theorem classify_addNote_stale {i : IssueIdentity} (note : Value) (hsame : user.same user = true)
    (h : d.StartsIssue user project i) (hopen : d.isClosed user = .ok false) :
    (d.addNote user note staleIssueNote).classify user project =
      .ok ⟨d.addNote user note staleIssueNote, .mixed, some i, true⟩ := by
  have hne := h.notes_ne_nil
  have hclosed : (d.addNote user note staleIssueNote).isClosed user = .ok true := by
    rw [isClosed, resolved_addNote hne]
    rw [isClosed] at hopen
    split at hopen
    · cases hopen
    · next hr =>
      rw [if_neg hr, hasLaterNote_addNote hne hsame hopen, trim_staleIssueNote, isAcknowledgement,
        beq_self_eq_true, Bool.true_or, Bool.or_true]
  rw [classify_of_startsIssue (startsIssue_congr (face_addNote user note hne _) h) hclosed,
    replies_addNote user note hne]
  rfl

/-- A thread that is resolved is closed. -/
theorem classify_resolve_issue {i : IssueIdentity} (h : d.StartsIssue user project i) :
    d.resolve.classify user project =
      .ok ⟨d.resolve, if d.replies.isEmpty then .singleIdentified else .mixed, some i, true⟩ := by
  have hclosed : d.resolve.isClosed user = .ok true := by
    rw [isClosed, resolved_resolve h.isResolvable, if_pos rfl]
  rw [classify_of_startsIssue (startsIssue_congr face_resolve h) hclosed, replies_resolve]

/-- A summary whose text is replaced by a summary's is one still. -/
theorem startsSummary_editNote {next : Nat → Value} {count : Nat} {text : String}
    (hn : d.notes = first :: rest) (hids : Value.Numbered next count d.noteIds)
    (hby : first.isBy user = true) (hs : Identity.isSummary text project = .ok true) :
    (d.editNote first.id text).StartsSummary user project := by
  rw [editNote_first hn hids]
  exact ⟨_, rest, text, rfl, hby, linkText_text rfl, hs⟩

theorem hasLaterNote_editNote {next : Nat → Value} {count : Nat} {q : String → Bool}
    (hn : d.notes = first :: rest) (hids : Value.Numbered next count d.noteIds) (text : String) :
    (d.editNote first.id text).hasLaterNote user q = d.hasLaterNote user q := by
  apply hasLaterNote_congr
  rw [editNote_first hn hids, hn]
  rfl

theorem hasNote_editNote {next : Nat → Value} {count : Nat} (hn : d.notes = first :: rest)
    (hids : Value.Numbered next count d.noteIds) (text flag : String) :
    (d.editNote first.id text).hasNote user flag = d.hasNote user flag :=
  hasLaterNote_editNote hn hids text

theorem hasNote_resolve (flag : String) : d.resolve.hasNote user flag = d.hasNote user flag :=
  hasLaterNote_resolve

/-- The outdated note flags a summary. -/
theorem hasNote_addNote_outdated {found : Bool} (note : Value) (hn : d.notes ≠ [])
    (hsame : user.same user = true) (h : d.hasNote user outdatedSummaryNote = .ok found) :
    (d.addNote user note outdatedSummaryNote).hasNote user outdatedSummaryNote = .ok true := by
  rw [hasNote, hasLaterNote_addNote hn hsame h, trim_outdatedSummaryNote, beq_self_eq_true,
    Bool.or_true]

end Discussion

/-- A body without links. -/
def Note.IsPlain (n : Note) : Prop :=
  ∃ text : String, n.body = .text text ∧ ViewLink.targets text.toList = []

/-- A run leaves such a discussion alone. -/
def Classified.IsIdle (c : Classified) (project : String) : Prop :=
  c.kind ≠ .summary ∧ c.isLiveIssue project = false

namespace Discussion

variable {d : Discussion} {user : Value} {project : Option String}

/-- What is left of a summary, system notes without links, is left alone from then on. -/
theorem classify_system (user : Value) (project : Option String)
    (h : ∀ n ∈ d.notes, n.system = true ∧ n.IsPlain) (key : String) :
    ∃ c, d.classify user project = .ok c ∧ c.IsIdle key := by
  have hidle : ∀ kind closed, kind ≠ .summary →
      (⟨d, kind, none, closed⟩ : Classified).IsIdle key := by
    intro kind closed hkind
    refine ⟨hkind, ?_⟩
    simp [Classified.isLiveIssue]
  unfold classify
  split
  next => exact ⟨_, rfl, hidle _ _ (by decide)⟩
  next first rest hn =>
    rw [hn] at h
    obtain ⟨text, hbody, htargets⟩ := (h first (List.mem_cons_self ..)).2
    split
    next => exact ⟨_, rfl, hidle _ _ (by decide)⟩
    next =>
      have hsummary : Identity.isSummary text project = .ok false := by
        rw [Identity.isSummary, htargets, Identity.anyDashboard]
      have hissue : Identity.issue? text = .ok none := by
        rw [Identity.issue?, htargets, Identity.firstIssue]
      have hreplies : d.replies.isEmpty = true := by
        rw [replies, hn, List.tail_cons, List.isEmpty_iff, List.filter_eq_nil_iff]
        intro n hmem
        rw [(h n (List.mem_cons_of_mem first hmem)).1]
        exact Bool.false_ne_true
      have hclosed : ∃ closed, d.isClosed user = .ok closed := by
        rw [isClosed]
        split
        · exact ⟨true, rfl⟩
        · apply hasLaterNote_of_texts
          intro n hmem
          obtain ⟨later, hlater, -⟩ := (h n (hn ▸ List.mem_of_mem_tail hmem)).2
          exact ⟨later, hlater⟩
      obtain ⟨closed, hclosed⟩ := hclosed
      simp only [linkText_text hbody, hsummary, hissue, hclosed, hreplies, bind, Except.bind,
        Except.mapError, Bool.false_eq_true, if_false]
      split
      · exact ⟨_, rfl, hidle _ _ (by decide)⟩
      · exact ⟨_, rfl, hidle _ _ (by decide)⟩

/-- The later notes of a discussion without replies are system notes. -/
theorem system_of_mem_tail {n : Note} (hreplies : d.replies.isEmpty = true)
    (hn : n ∈ d.notes.tail) : n.system = true := by
  rw [replies, List.isEmpty_iff, List.filter_eq_nil_iff] at hreplies
  have hnot := hreplies n hn
  rwa [Bool.not_eq_true', Bool.not_eq_false] at hnot

/-- When its first note is deleted, system notes are left. -/
theorem system_of_deleteNote {e : Discussion} {first : Note} {rest : List Note}
    {next : Nat → Value} {count : Nat} (hn : d.notes = first :: rest)
    (hids : Value.Numbered next count d.noteIds) (hreplies : d.replies.isEmpty = true)
    (hsystem : ∀ n ∈ d.notes, n.system = true → n.IsPlain)
    (he : d.deleteNote first.id = some e) : ∀ n ∈ e.notes, n.system = true ∧ n.IsPlain := by
  rw [deleteNote_first hn hids] at he
  split_ifs at he
  rw [← Option.some.inj he]
  intro n hmem
  have htail : n ∈ d.notes.tail := by rwa [hn]
  have hplain := system_of_mem_tail hreplies htail
  exact ⟨hplain, hsystem n (List.mem_of_mem_tail htail) hplain⟩

end Discussion

namespace Platform.IsNew

variable {p : Platform} {body : String} {resolved : Bool} {d : Discussion} {project : Option String}

/-- A discussion that is opened with the text of a summary is one. -/
theorem classify_summary (h : p.IsNew body resolved d) (hsame : p.username.same p.username = true)
    (hsummary : Identity.isSummary body project = .ok true) :
    d.classify p.username project = .ok ⟨d, .summary, none, resolved⟩ := by
  obtain ⟨k, m, -, -, rfl⟩ := h
  exact Discussion.classify_of_startsSummary
    ⟨_, [], body, rfl, hsame, Discussion.linkText_text rfl, hsummary⟩

/-- A discussion that is opened with the text of an issue is its thread. -/
theorem classify_issue {i : IssueIdentity} (h : p.IsNew body resolved d)
    (hsame : p.username.same p.username = true)
    (hsummary : Identity.isSummary body project = .ok false)
    (hissue : Identity.issue? body = .ok (some i)) :
    d.classify p.username project = .ok ⟨d, .singleIdentified, some i, resolved⟩ := by
  obtain ⟨k, m, -, -, rfl⟩ := h
  refine Discussion.classify_of_startsIssue
    ⟨_, [], body, rfl, hsame, rfl, Discussion.linkText_text rfl, hsummary, hissue⟩ ?_
  cases resolved <;> rfl

end Platform.IsNew
end MergeDecoration
