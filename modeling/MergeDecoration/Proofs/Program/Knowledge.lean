import MergeDecoration.Proofs.Platform.Effect

/-!
What a program knows when it rewrites a note: that the note stood first in a discussion it was
shown, under the user's name.
-/
namespace MergeDecoration

/-- The first note is the user's and has the id. -/
def Discussion.IsHeadedBy (d : Discussion) (user note : Value) : Prop :=
  ∃ first rest, d.notes = first :: rest ∧ first.isBy user = true ∧ first.id = note

namespace Request

/-- The notes known to be the user's once a request is answered. -/
def learn (user : Value) : (r : Request) → r.Reply → (Value → Prop) → Value → Prop
  | .discussions .., ds, known => fun note => known note ∨ ∃ d ∈ ds, d.IsHeadedBy user note
  | _, _, known => known

/-- Answers in which the user is called by the name. -/
def IsAnswer (user : Value) : (r : Request) → r.Reply → Prop
  | .currentUser, x => User.username x = user
  | _, _ => True

theorem learn_of_known {user note : Value} {known : Value → Prop} (h : known note) :
    (r : Request) → (x : r.Reply) → r.learn user x known note
  | .discussions .., _ => Or.inl h
  | .mergeRequest .., _ | .currentUser, _ | .commits .., _ | .createDiscussion .., _
  | .addNote .., _ | .editNote .., _ | .deleteNote .., _ | .resolve .., _ | .pushStatus .., _
  | .close, _ | .changeset .., _ => h

end Request

namespace Program

variable {α β : Type} {prog : Program α} {user : Value} {known : Value → Prop}

/-- The program rewrites known notes only, whatever it is answered under the user's name. -/
def Careful (user : Value) : Program α → (Value → Prop) → Prop
  | .done _, _ | .stop _, _ => True
  | .log _ next, known => next.Careful user known
  | .ask r next, known => (∀ note, r.note? = some note → known note) ∧
    (∀ e, (next (.error e)).Careful user known) ∧
    ∀ x, r.IsAnswer user x → (next (.ok x)).Careful user (r.learn user x known)

theorem careful_log {r : LogRecord} {next : Program α} :
    (log r next).Careful user known ↔ next.Careful user known := Iff.rfl

theorem careful_ask {r : Request} {next : Except Fault r.Reply → Program α} :
    (ask r next).Careful user known ↔ (∀ note, r.note? = some note → known note) ∧
      (∀ e, (next (.error e)).Careful user known) ∧
      ∀ x, r.IsAnswer user x → (next (.ok x)).Careful user (r.learn user x known) := Iff.rfl

theorem careful_lift_bind {x : Except Fault α} {f : α → Program β}
    (h : ∀ a, x = .ok a → (f a).Careful user known) :
    ((liftM x : Program α) >>= f).Careful user known := by
  cases x with
  | ok a => exact h a rfl
  | error e => exact trivial

theorem careful_step_bind {s : Step} {r : Request} {f : r.Reply → Program β}
    (hnote : r.note? = none)
    (h : ∀ x, r.IsAnswer user x → (f x).Careful user (r.learn user x known)) :
    (step s r >>= f).Careful user known := by
  refine ⟨?_, ?_, h⟩
  · rw [hnote]
    nofun
  · intro e
    cases e <;> exact trivial

/-- A program that asks only what the known notes allow is careful. -/
theorem careful_of_asks {allowed : Request → Prop} {result : α → Prop}
    (hp : prog.Asks allowed result)
    (h : ∀ r, allowed r → ∀ note, r.note? = some note → known note) : prog.Careful user known := by
  induction hp generalizing known with
  | done => exact trivial
  | stop => exact trivial
  | log _ ih => exact ih h
  | @ask r next hr hfail _ ih =>
    refine ⟨h r hr, ?_, ?_⟩
    · intro e
      obtain ⟨f, hf⟩ := hfail e
      rw [hf]
      exact trivial
    · intro x _
      apply ih
      intro u hu note hnote
      exact Request.learn_of_known (h u hu note hnote) r x

/-- What asks nothing teaches nothing. -/
theorem careful_bind_of_silent {result : α → Prop} {f : α → Program β}
    (hp : prog.Asks (fun _ => False) result) (hf : ∀ a, result a → (f a).Careful user known) :
    (prog >>= f).Careful user known := by
  induction hp with
  | done ha => exact hf _ ha
  | stop => exact trivial
  | log _ ih => exact ih
  | ask hr => exact hr.elim

end Program
end MergeDecoration
