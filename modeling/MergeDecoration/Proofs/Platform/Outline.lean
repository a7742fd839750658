import MergeDecoration.Proofs.Platform.Numbering

/-!
Discussions up to the ids that were given after a certain state of the platform.
-/
namespace MergeDecoration

/-- A note whose id may be left out. -/
structure NoteOutline where
  id : Option Value
  author : User
  body : Value
  resolvable : Bool
  system : Bool
  resolved : Bool

/-- A discussion where ids may be left out. -/
structure Outline where
  id : Option Value
  notes : List NoteOutline

namespace Platform

/-- Whether a note has the id. -/
def holdsNote (p : Platform) (id : Value) : Bool :=
  p.discussions.any fun d => d.noteIds.any (·.same id)

/-- A note without its id if the platform does not know it. -/
def outlineNote (p : Platform) (n : Note) : NoteOutline where
  id := if p.holdsNote n.id then some n.id else none
  author := n.author
  body := n.body
  resolvable := n.resolvable
  system := n.system
  resolved := n.resolved

/-- A discussion without the ids that the platform does not know. -/
def outline (p : Platform) (d : Discussion) : Outline where
  id := if p.holds d.id then some d.id else none
  notes := d.notes.map p.outlineNote

/-- Two platforms that are the same up to the ids that a third one does not know and up to the
order of their discussions. -/
structure Alike (p q r : Platform) : Prop where
  username : q.username = r.username
  mergeRequest : q.mergeRequest = r.mergeRequest
  commits : q.commits = r.commits
  changeset : q.changeset = r.changeset
  discussions : (q.discussions.map p.outline).Perm (r.discussions.map p.outline)

variable {p : Platform}

theorem holdsNote_noteId (hp : p.IsNumbered) {k : Nat} (hk : p.written ≤ k) :
    p.holdsNote (noteId k) = false := by
  rw [holdsNote, List.any_eq_false]
  intro d hd
  rw [Bool.not_eq_true, List.any_eq_false]
  intro id hid
  rw [((hp.notes d hd).fresh id hid k hk).1]
  exact Bool.false_ne_true

theorem holds_discussionId (hp : p.IsNumbered) {k : Nat} (hk : p.opened ≤ k) :
    p.holds (discussionId k) = false := by
  rw [holds, List.any_eq_false]
  intro d hd
  rw [(hp.discussions.fresh d.id (List.mem_map_of_mem hd) k hk).1]
  exact Bool.false_ne_true

/-- The outline does not show how a new note is called. -/
theorem outline_addNote (hp : p.IsNumbered) {j k : Nat} (hj : p.written ≤ j) (hk : p.written ≤ k)
    (d : Discussion) (user : Value) (text : String) :
    p.outline (d.addNote user (noteId j) text) = p.outline (d.addNote user (noteId k) text) := by
  have hnew : ∀ i, p.written ≤ i →
      p.outlineNote { id := noteId i, author := ⟨user, .null⟩, body := .text text } =
        ⟨none, ⟨user, .null⟩, .text text, false, false, false⟩ := by
    intro i hi
    rw [outlineNote, holdsNote_noteId hp hi, if_neg Bool.false_ne_true]
  simp only [outline, Discussion.addNote, List.map_append, List.map_singleton]
  rw [hnew j hj, hnew k hk]
  rfl

theorem outline_of_isNew (hp : p.IsNumbered) {body : String} {resolved : Bool} {d : Discussion}
    (h : p.IsNew body resolved d) :
    p.outline d = ⟨none, [⟨none, ⟨p.username, .null⟩, .text body, true, false, resolved⟩]⟩ := by
  obtain ⟨k, m, hk, hm, rfl⟩ := h
  rw [outline, holds_discussionId hp hk, if_neg Bool.false_ne_true, List.map_singleton, outlineNote,
    holdsNote_noteId hp hm, if_neg Bool.false_ne_true]

end Platform
end MergeDecoration
