import MergeDecoration.Proofs.Program.Exchange

/-!
Programs without their log. To a backend that does not listen to the log, a program is what it asks
and how it ends.
-/
namespace MergeDecoration

/-- What is logged plays no part in the answers; it may change a state only in what does not matter
to them. -/
structure Backend.IsDeaf {σ : Type} (b : Backend σ) (same : σ → σ → Prop) : Prop where
  answer : ∀ r w v, same w v →
    (b.answer r w).1 = (b.answer r v).1 ∧ same (b.answer r w).2 (b.answer r v).2
  record : ∀ l w v, same w v → same (b.record l w) v

theorem Backend.isDeaf_of_record_eq {σ : Type} {b : Backend σ} (h : ∀ l w, b.record l w = w) :
    b.IsDeaf Eq := by
  constructor
  · rintro r w _ rfl
    exact ⟨rfl, rfl⟩
  · intro l w v hwv
    rw [h, hwv]

namespace Program

variable {α β σ : Type}

/-- The program with its log left out. -/
def quiet : Program α → Program α
  | .done a => .done a
  | .stop f => .stop f
  | .log _ next => next.quiet
  | .ask r next => .ask r fun x => (next x).quiet

theorem quiet_bind (prog : Program α) (f : α → Program β) :
    (prog >>= f).quiet = prog.quiet >>= fun a => (f a).quiet := by
  change (prog.bind f).quiet = prog.quiet.bind _
  induction prog with
  | done a => rfl
  | stop e => rfl
  | log r next ih => exact ih
  | ask r next ih => exact congrArg (Program.ask r) (funext ih)

@[simp] theorem quiet_lift (x : Except Fault α) : (liftM x : Program α).quiet = liftM x := by
  cases x <;> rfl

@[simp] theorem quiet_debug_bind (m : String) (f : Unit → Program α) :
    (debug m >>= f).quiet = (f ()).quiet := rfl

/-- A backend that does not listen to the log answers the program as it does without it. -/
theorem trace_quiet {b : Backend σ} {same : σ → σ → Prop} (hb : b.IsDeaf same)
    (prog : Program α) {w v : σ} (h : same w v) :
    prog.trace b w = prog.quiet.trace b v ∧ (prog.run b w).1 = (prog.quiet.run b v).1 ∧
      same (prog.run b w).2 (prog.quiet.run b v).2 := by
  induction prog generalizing w v with
  | done a => exact ⟨rfl, rfl, h⟩
  | stop f => exact ⟨rfl, rfl, h⟩
  | log r next ih => exact ih (hb.record r w v h)
  | ask r next ih =>
    obtain ⟨hanswer, hnext⟩ := hb.answer r w v h
    obtain ⟨htrace, hrun⟩ := ih (b.answer r w).1 hnext
    simp only [trace, run, quiet]
    rw [← hanswer, htrace]
    exact ⟨rfl, hrun⟩

end Program
end MergeDecoration
