import MergeDecoration.Proofs.Program.Completion

/-!
How far a program can get. Answered by a platform it asks one request after another, and under an
outage a part of them.
-/
namespace MergeDecoration
namespace Program

variable {α β : Type} {prog : Program α} {p : Platform} {rs ss ts : List Request}

/-- Answered by a platform, the program asks these requests in order, or stops before the last of
them. -/
def Within : Program α → Platform → List Request → Prop
  | .done _, _, _ | .stop _, _, _ => True
  | .log _ next, p, rs => next.Within p rs
  | .ask r next, p, rs =>
    ∃ ss, rs = r :: ss ∧ (next (.ok (p.answer r).1)).Within (p.answer r).2 ss

theorem within_pure (a : α) : (pure a : Program α).Within p rs := trivial

theorem within_debug_bind {m : String} {f : Unit → Program α} (h : (f ()).Within p rs) :
    (debug m >>= f).Within p rs := h

theorem within_lift_bind {x : Except Fault α} {f : α → Program β}
    (h : ∀ a, x = .ok a → (f a).Within p rs) : ((liftM x : Program α) >>= f).Within p rs := by
  cases x with
  | ok a => exact h a rfl
  | error e => exact trivial

theorem within_step (s : Step) (r : Request) : (step s r).Within p [r] := ⟨[], rfl, trivial⟩

theorem within_call_bind {r : Request} {f : r.Reply → Program α}
    (h : (f (p.answer r).1).Within (p.answer r).2 rs) : (call r >>= f).Within p (r :: rs) :=
  ⟨rs, rfl, h⟩

theorem within_step_bind {s : Step} {r : Request} {f : r.Reply → Program α}
    (h : (f (p.answer r).1).Within (p.answer r).2 rs) : (step s r >>= f).Within p (r :: rs) :=
  ⟨rs, rfl, h⟩

theorem within_of_completes {a : α} (h : prog.Completes p rs a) : prog.Within p rs := by
  induction prog generalizing p rs with
  | done => exact trivial
  | stop => exact trivial
  | log _ next ih => exact ih h
  | ask r next ih =>
    obtain ⟨ss, rfl, h⟩ := h
    exact ⟨ss, rfl, ih _ h⟩

theorem within_of_silent {allowed : Request → Prop} {result : α → Prop}
    (h : prog.Asks allowed result) (hnone : ∀ r, ¬allowed r) : prog.Within p rs := by
  induction h with
  | done => exact trivial
  | stop => exact trivial
  | log _ ih => exact ih
  | ask hr => exact absurd hr (hnone _)

theorem within_bind {f : α → Program β} (h : prog.Within p ss)
    (hf : ∀ us a, prog.Completes p us a → us = ss ∧ (f a).Within (p.after ss) ts) :
    (prog >>= f).Within p (ss ++ ts) := by
  change (prog.bind f).Within p (ss ++ ts)
  induction prog generalizing p ss with
  | done a =>
    obtain ⟨rfl, hnext⟩ := hf [] a ⟨rfl, rfl⟩
    exact hnext
  | stop e => exact trivial
  | log _ next ih => exact ih h hf
  | ask r next ih =>
    obtain ⟨us, rfl, h⟩ := h
    refine ⟨us ++ ts, rfl, ih _ h ?_⟩
    intro vs a hvs
    obtain ⟨heq, hnext⟩ := hf (r :: vs) a ⟨vs, rfl, hvs⟩
    exact ⟨(List.cons.inj heq).2, hnext⟩

/-- Under an outage the platform answers some of the first requests, all of them allowed. If the
program still has a result, these are what it asks when nothing fails. -/
theorem exists_after_of_within {w : Watched} {allowed : Request → Prop} {result : α → Prop}
    (outage : Outage) (hp : prog.Asks allowed result) (h : prog.Within w.platform rs) :
    ∃ ss, ss <+: rs ∧ (∀ r ∈ ss, allowed r) ∧
      (prog.run (Watched.backend outage) w).2.platform = w.platform.after ss ∧
      ∀ a, (prog.run (Watched.backend outage) w).1 = .ok a → prog.Completes w.platform ss a := by
  induction hp generalizing w rs with
  | done =>
    exact ⟨[], List.nil_prefix, nofun, rfl, fun a ha => ⟨rfl, (Except.ok.inj ha).symm⟩⟩
  | stop => exact ⟨[], List.nil_prefix, nofun, rfl, nofun⟩
  | @log l next _ ih => exact ih (w := { w with records := w.records ++ [l] }) h
  | @ask r next hallowed hfail _ ih =>
    obtain ⟨ts, rfl, h⟩ := h
    cases hr : outage w.requests r with
    | none =>
      obtain ⟨ss, hss, hall, hplatform, hresult⟩ := ih (w.platform.answer r).1 (w := { w with
        platform := (w.platform.answer r).2
        requests := w.requests ++ [r] }) h
      refine ⟨r :: ss, List.cons_prefix_cons.mpr ⟨rfl, hss⟩,
        List.forall_mem_cons.mpr ⟨hallowed, hall⟩, ?_, ?_⟩
      · simp only [run, Watched.backend, hr]
        exact hplatform
      · intro a ha
        simp only [run, Watched.backend, hr] at ha
        exact ⟨ss, rfl, hresult a ha⟩
    | some message =>
      obtain ⟨f, hf⟩ := hfail (.transport message)
      refine ⟨[], List.nil_prefix, nofun, ?_, ?_⟩
      · simp only [run, Watched.backend, hr, hf, Platform.after_nil]
      · intro a ha
        simp only [run, Watched.backend, hr, hf] at ha
        cases ha

end Program
end MergeDecoration
