import MergeDecoration.Proofs.Program.Completion

/-!
What requests do to a platform, one discussion at a time: a discussion is changed by the requests
that concern it and by no others, and new discussions stand behind the old ones.
-/
namespace MergeDecoration

namespace Request

/-- The discussion that a write changes. -/
def target? : Request → Option Value
  | .addNote _ _ id _ | .editNote _ _ id _ _ | .deleteNote _ _ id _ | .resolve _ _ id => some id
  | _ => none

/-- Whether the discussion with an id is changed. -/
def concerns (r : Request) (id : Value) : Bool := r.target?.any id.same

/-- The note that is rewritten: edits and deletions name one. -/
def note? : Request → Option Value
  | .editNote _ _ _ note _ | .deleteNote _ _ _ note => some note
  | _ => none

/-- Whether a new discussion is asked for. -/
def isOpening : Request → Bool
  | .createDiscussion .. => true
  | _ => false

end Request

namespace Discussion

def addNote (d : Discussion) (user id : Value) (text : String) : Discussion :=
  { d with notes := d.notes ++ [{ id, author := ⟨user, .null⟩, body := .text text }] }

def editNote (d : Discussion) (note : Value) (text : String) : Discussion :=
  { d with
    notes := d.notes.map fun n => if n.id.same note then { n with body := .text text } else n }

/-- None if no note is left. -/
def deleteNote (d : Discussion) (note : Value) : Option Discussion :=
  match d.notes.filter (!·.id.same note) with
  | [] => none
  | notes => some { d with notes }

def resolve (d : Discussion) : Discussion :=
  { d with notes := d.notes.map fun n => if n.resolvable then { n with resolved := true } else n }

def noteIds (d : Discussion) : List Value := d.notes.map (·.id)

@[simp] theorem noteIds_addNote (d : Discussion) (user id : Value) (text : String) :
    (d.addNote user id text).noteIds = d.noteIds ++ [id] := by
  simp [noteIds, addNote]

@[simp] theorem noteIds_editNote (d : Discussion) (note : Value) (text : String) :
    (d.editNote note text).noteIds = d.noteIds := by
  rw [noteIds, editNote, List.map_map]
  apply List.map_congr_left
  intro n _
  simp only [Function.comp_apply]
  split <;> rfl

@[simp] theorem noteIds_resolve (d : Discussion) : d.resolve.noteIds = d.noteIds := by
  rw [noteIds, resolve, List.map_map]
  apply List.map_congr_left
  intro n _
  simp only [Function.comp_apply]
  split <;> rfl

theorem eq_of_deleteNote {d e : Discussion} {note : Value} (h : d.deleteNote note = some e) :
    e = { d with notes := d.notes.filter (!·.id.same note) } := by
  unfold deleteNote at h
  split at h
  · cases h
  · exact (Option.some.inj h).symm

theorem noteIds_deleteNote {d e : Discussion} {note : Value} (h : d.deleteNote note = some e) :
    e.noteIds.Sublist d.noteIds := by
  rw [eq_of_deleteNote h]
  exact List.filter_sublist.map _

/-- What a write makes of a discussion that it concerns, if the next note is called `id`. -/
def change (d : Discussion) (user id : Value) : Request → Option Discussion
  | .addNote _ _ _ text => some (d.addNote user id text)
  | .editNote _ _ _ note text => some (d.editNote note text)
  | .deleteNote _ _ _ note => d.deleteNote note
  | .resolve .. => some d.resolve
  | _ => some d

theorem id_of_change {d e : Discussion} {user id : Value} {r : Request}
    (h : d.change user id r = some e) : e.id = d.id := by
  cases r with
  | deleteNote _ _ _ note => rw [eq_of_deleteNote h]
  | _ =>
    rw [← Option.some.inj h]
    try rfl

end Discussion

namespace Platform

/-- What a request makes of one discussion. -/
def changed (p : Platform) (r : Request) (d : Discussion) : Option Discussion :=
  if r.concerns d.id then d.change p.username p.nextNoteId r else some d

/-- The discussion that a request opens. -/
def opens? (p : Platform) : Request → Option Discussion
  | .createDiscussion _ _ note => some (p.openDiscussion p.username (.text note.body) true).1
  | _ => none

theorem changed_of_not_concerns {p : Platform} {r : Request} {d : Discussion}
    (h : r.concerns d.id = false) : p.changed r d = some d := by
  rw [changed, h, if_neg Bool.false_ne_true]

theorem id_of_changed {p : Platform} {r : Request} {d e : Discussion}
    (h : p.changed r d = some e) : e.id = d.id := by
  unfold changed at h
  split at h
  · exact Discussion.id_of_change h
  · rw [← Option.some.inj h]

theorem update_discussions (p : Platform) (id : Value) (f : Discussion → Discussion) :
    (p.update id f).discussions =
      p.discussions.filterMap fun d => if d.id.same id then some (f d) else some d := by
  rw [update, ← List.filterMap_eq_map]
  apply List.filterMap_congr
  intro d _
  simp only [Function.comp_apply]
  split <;> rfl

theorem reply_discussions (p : Platform) (id user : Value) (text : String) :
    (p.reply id user (.text text) false false).discussions = p.discussions.filterMap fun d =>
      if d.id.same id then some (d.addNote user p.nextNoteId text) else some d := by
  unfold reply
  split
  · exact update_discussions p id fun d => d.addNote user p.nextNoteId text
  · next h =>
    rw [holds, Bool.not_eq_true, List.any_eq_false] at h
    symm
    rw [List.filterMap_congr (g := some), List.filterMap_some]
    intro d hd
    rw [if_neg (h d hd)]

/-- A request changes each discussion for itself, and what it opens comes last. -/
theorem discussions_answer (p : Platform) (r : Request) :
    (p.answer r).2.discussions = p.discussions.filterMap (p.changed r) ++ (p.opens? r).toList := by
  have hsame : ∀ q : Platform, q.discussions.filterMap some = q.discussions :=
    fun q => List.filterMap_some
  cases r with
  | createDiscussion _ _ note =>
    change p.discussions ++ _ = p.discussions.filterMap some ++ _
    rw [hsame]
    rfl
  | addNote _ _ id text =>
    exact (reply_discussions p id p.username text).trans (List.append_nil _).symm
  | editNote _ _ id note text =>
    exact (update_discussions p id (·.editNote note text)).trans (List.append_nil _).symm
  | deleteNote _ _ id note => exact (List.append_nil _).symm
  | resolve _ _ id =>
    exact (update_discussions p id Discussion.resolve).trans (List.append_nil _).symm
  | _ => exact (hsame p).symm.trans (List.append_nil _).symm

@[simp] theorem username_answer (p : Platform) (r : Request) :
    (p.answer r).2.username = p.username := by
  cases r with
  | addNote _ _ id text =>
    simp only [answer, reply]
    split <;> rfl
  | _ => rfl

@[simp] theorem changeset_answer (p : Platform) (r : Request) :
    (p.answer r).2.changeset = p.changeset := by
  cases r with
  | addNote _ _ id text =>
    simp only [answer, reply]
    split <;> rfl
  | _ => rfl

@[simp] theorem commits_answer (p : Platform) (r : Request) :
    (p.answer r).2.commits = p.commits := by
  cases r with
  | addNote _ _ id text =>
    simp only [answer, reply]
    split <;> rfl
  | _ => rfl

@[simp] theorem mergeRequest_answer (p : Platform) (r : Request) :
    (p.answer r).2.mergeRequest = p.mergeRequest := by
  cases r with
  | addNote _ _ id text =>
    simp only [answer, reply]
    split <;> rfl
  | _ => rfl

theorem opened_answer (p : Platform) (r : Request) :
    (p.answer r).2.opened = p.opened + if r.isOpening then 1 else 0 := by
  cases r with
  | addNote _ _ id text =>
    simp only [answer, reply]
    split <;> rfl
  | _ => rfl

theorem written_le_answer (p : Platform) (r : Request) : p.written ≤ (p.answer r).2.written := by
  cases r with
  | addNote _ _ id text =>
    simp only [answer, reply]
    split
    · exact Nat.le_succ p.written
    · exact Nat.le_refl p.written
  | createDiscussion _ _ note => exact Nat.le_succ p.written
  | _ => exact Nat.le_refl p.written

theorem written_le_after (p : Platform) (rs : List Request) : p.written ≤ (p.after rs).written := by
  induction rs generalizing p with
  | nil => exact Nat.le_refl p.written
  | cons r rs ih => exact (written_le_answer p r).trans (ih (p.answer r).2)

@[simp] theorem username_after (p : Platform) (rs : List Request) :
    (p.after rs).username = p.username := by
  induction rs generalizing p with
  | nil => rfl
  | cons r rs ih => rw [after_cons, ih, username_answer]

@[simp] theorem changeset_after (p : Platform) (rs : List Request) :
    (p.after rs).changeset = p.changeset := by
  induction rs generalizing p with
  | nil => rfl
  | cons r rs ih => rw [after_cons, ih, changeset_answer]

@[simp] theorem commits_after (p : Platform) (rs : List Request) :
    (p.after rs).commits = p.commits := by
  induction rs generalizing p with
  | nil => rfl
  | cons r rs ih => rw [after_cons, ih, commits_answer]

@[simp] theorem mergeRequest_after (p : Platform) (rs : List Request) :
    (p.after rs).mergeRequest = p.mergeRequest := by
  induction rs generalizing p with
  | nil => rfl
  | cons r rs ih => rw [after_cons, ih, mergeRequest_answer]

theorem opened_after (p : Platform) (rs : List Request) :
    (p.after rs).opened = p.opened + rs.countP (·.isOpening) := by
  induction rs generalizing p with
  | nil => rfl
  | cons r rs ih =>
    rw [after_cons, ih, opened_answer, List.countP_cons]
    omega

/-- What requests make of one discussion. -/
def carried (p : Platform) : List Request → Discussion → Option Discussion
  | [], d => some d
  | r :: rs, d => (p.changed r d).bind ((p.answer r).2.carried rs)

/-- The discussions that requests open, as the later ones among these leave them. -/
def newcomers (p : Platform) : List Request → List Discussion
  | [] => []
  | r :: rs => (p.opens? r).toList.filterMap ((p.answer r).2.carried rs) ++
    (p.answer r).2.newcomers rs

/-- Requests change each discussion for itself, and what they open comes last. -/
theorem discussions_after (p : Platform) (rs : List Request) :
    (p.after rs).discussions = p.discussions.filterMap (p.carried rs) ++ p.newcomers rs := by
  induction rs generalizing p with
  | nil =>
    rw [newcomers, List.append_nil]
    exact List.filterMap_some.symm
  | cons r rs ih =>
    rw [after_cons, ih, discussions_answer, List.filterMap_append, List.filterMap_filterMap,
      newcomers, List.append_assoc]
    rfl

theorem carried_append (p : Platform) (rs ss : List Request) (d : Discussion) :
    p.carried (rs ++ ss) d = (p.carried rs d).bind ((p.after rs).carried ss) := by
  induction rs generalizing p d with
  | nil => rfl
  | cons r rs ih =>
    rw [List.cons_append, carried, carried, Option.bind_assoc]
    apply Option.bind_congr
    intro e _
    exact ih (p.answer r).2 e

theorem newcomers_append (p : Platform) (rs ss : List Request) :
    p.newcomers (rs ++ ss) =
      (p.newcomers rs).filterMap ((p.after rs).carried ss) ++ (p.after rs).newcomers ss := by
  induction rs generalizing p with
  | nil => rfl
  | cons r rs ih =>
    rw [List.cons_append, newcomers, newcomers, ih, List.filterMap_append, List.filterMap_filterMap,
      List.append_assoc, after_cons]
    congr 1
    apply List.filterMap_congr
    intro d _
    exact carried_append (p.answer r).2 rs ss d

section

variable {p : Platform} {rs ss : List Request} {r : Request} {d e : Discussion}

theorem id_of_carried (h : p.carried rs d = some e) : e.id = d.id := by
  induction rs generalizing p d with
  | nil => rw [← Option.some.inj h]
  | cons r rs ih =>
    obtain ⟨f, hf, he⟩ := Option.bind_eq_some_iff.mp h
    rw [ih he, id_of_changed hf]

/-- Requests that do not concern a discussion leave it alone. -/
theorem carried_of_filter_nil (h : rs.filter (·.concerns d.id) = []) :
    p.carried rs d = some d := by
  induction rs generalizing p with
  | nil => rfl
  | cons r rs ih =>
    have hr : r.concerns d.id = false := by
      by_contra hc
      rw [List.filter_cons_of_pos (Bool.not_eq_false _ ▸ hc)] at h
      cases h
    rw [List.filter_cons_of_neg (Bool.not_eq_true _ ▸ hr)] at h
    rw [carried, changed_of_not_concerns hr, Option.bind_some, ih h]

/-- The first request that concerns a discussion changes it, and then come the others. -/
theorem carried_of_filter_cons (h : rs.filter (·.concerns d.id) = r :: ss) :
    ∃ (q : Platform) (k : Nat) (ts : List Request),
      q.username = p.username ∧ p.written ≤ k ∧ k ≤ q.written ∧
      ts.filter (·.concerns d.id) = ss ∧
      p.carried rs d = (d.change p.username (.int (k + 1001)) r).bind (q.carried ts) := by
  obtain ⟨us, ts, rfl, hus, hr, hts⟩ := List.filter_eq_cons_iff.mp h
  have hnil : us.filter (·.concerns d.id) = [] := List.filter_eq_nil_iff.mpr hus
  refine ⟨((p.after us).answer r).2, (p.after us).written, ts, ?_, written_le_after p us,
    written_le_answer _ r, hts, ?_⟩
  · rw [username_answer, username_after]
  · rw [carried_append, carried_of_filter_nil hnil, Option.bind_some, carried, changed, if_pos hr,
      username_after]
    rfl

end

end Platform
end MergeDecoration
