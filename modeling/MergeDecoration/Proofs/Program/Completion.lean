import Mathlib
import MergeDecoration.Platform

/-!
What a program asks of a platform when nothing fails, and how much of that it has asked when
something does.
-/
namespace MergeDecoration

/-- The platform after it answered requests. -/
def Platform.after (p : Platform) : List Request → Platform
  | [] => p
  | r :: rs => (p.answer r).2.after rs

@[simp] theorem Platform.after_nil (p : Platform) : p.after [] = p := rfl

@[simp] theorem Platform.after_cons (p : Platform) (r : Request) (rs : List Request) :
    p.after (r :: rs) = (p.answer r).2.after rs := rfl

theorem Platform.after_append (p : Platform) (rs ss : List Request) :
    p.after (rs ++ ss) = (p.after rs).after ss := by
  induction rs generalizing p with
  | nil => rfl
  | cons r rs ih => exact ih (p.answer r).2

/-- Nothing fails. -/
def Outage.never : Outage := fun _ _ => none

namespace Program

theorem bind_done {α : Type} (prog : Program α) : prog.bind .done = prog := by
  induction prog with
  | done a => rfl
  | stop f => rfl
  | log r p ih => exact congrArg (Program.log r) ih
  | ask r k ih => exact congrArg (Program.ask r) (funext ih)

theorem bind_bind {α β γ : Type} (prog : Program α) (f : α → Program β) (g : β → Program γ) :
    (prog.bind f).bind g = prog.bind fun a => (f a).bind g := by
  induction prog with
  | done a => rfl
  | stop e => rfl
  | log r p ih => exact congrArg (Program.log r) ih
  | ask r k ih => exact congrArg (Program.ask r) (funext ih)

instance : LawfulMonad Program :=
  LawfulMonad.mk' Program bind_done (fun _ _ => rfl) bind_bind

variable {α β : Type} {prog : Program α} {p : Platform} {rs : List Request} {a : α}

/-- Answered by a platform, the program asks just these requests and ends with the result. -/
def Completes : Program α → Platform → List Request → α → Prop
  | .done a, _, rs, b => rs = [] ∧ b = a
  | .stop _, _, _, _ => False
  | .log _ next, p, rs, b => next.Completes p rs b
  | .ask r next, p, rs, b =>
    ∃ ss, rs = r :: ss ∧ (next (.ok (p.answer r).1)).Completes (p.answer r).2 ss b

@[simp] theorem completes_pure {b : α} :
    (pure a : Program α).Completes p rs b ↔ rs = [] ∧ b = a := Iff.rfl

@[simp] theorem completes_ofExcept {x : Except Fault α} :
    (ofExcept x).Completes p rs a ↔ rs = [] ∧ x = .ok a := by
  cases x with
  | ok b => simp [ofExcept, Completes, eq_comm]
  | error e => simp [ofExcept, Completes]

@[simp] theorem completes_liftExcept {x : Except Fault α} :
    (liftM x : Program α).Completes p rs a ↔ rs = [] ∧ x = .ok a := completes_ofExcept

@[simp] theorem completes_step {s : Step} {r : Request} {x : r.Reply} :
    (step s r).Completes p rs x ↔ rs = [r] ∧ x = (p.answer r).1 := by
  simp only [step, Completes]
  constructor
  · rintro ⟨_, rfl, rfl, rfl⟩
    exact ⟨rfl, rfl⟩
  · rintro ⟨rfl, rfl⟩
    exact ⟨[], rfl, rfl, rfl⟩

theorem completes_bind {f : α → Program β} {b : β} :
    (prog >>= f).Completes p rs b ↔
      ∃ a ss ts, rs = ss ++ ts ∧ prog.Completes p ss a ∧ (f a).Completes (p.after ss) ts b := by
  change (prog.bind f).Completes p rs b ↔ _
  induction prog generalizing p rs with
  | done a =>
    simp only [Program.bind, Completes]
    constructor
    · intro h
      exact ⟨a, [], rs, rfl, ⟨rfl, rfl⟩, h⟩
    · rintro ⟨_, _, ts, rfl, ⟨rfl, rfl⟩, h⟩
      exact h
  | stop e => simp [Program.bind, Completes]
  | log r next ih => exact ih
  | ask r next ih =>
    simp only [Program.bind, Completes, ih]
    constructor
    · rintro ⟨_, rfl, a, ss, ts, rfl, hs, ht⟩
      exact ⟨a, r :: ss, ts, rfl, ⟨ss, rfl, hs⟩, ht⟩
    · rintro ⟨a, _, ts, rfl, ⟨ss, rfl, hs⟩, ht⟩
      exact ⟨ss ++ ts, rfl, a, ss, ts, rfl, hs, ht⟩

section

variable {b : β}

@[simp] theorem completes_pure_bind {f : α → Program β} :
    (pure a >>= f).Completes p rs b ↔ (f a).Completes p rs b := Iff.rfl

@[simp] theorem completes_debug_bind {m : String} {f : Unit → Program β} :
    (debug m >>= f).Completes p rs b ↔ (f ()).Completes p rs b := Iff.rfl

@[simp] theorem completes_lift_bind {x : Except Fault α} {f : α → Program β} :
    ((liftM x : Program α) >>= f).Completes p rs b ↔ ∃ a, x = .ok a ∧ (f a).Completes p rs b := by
  rw [completes_bind]
  constructor
  · rintro ⟨a, _, ts, rfl, hx, h⟩
    obtain ⟨rfl, rfl⟩ := completes_liftExcept.mp hx
    exact ⟨a, rfl, h⟩
  · rintro ⟨a, rfl, h⟩
    exact ⟨a, [], rs, rfl, completes_liftExcept.mpr ⟨rfl, rfl⟩, h⟩

@[simp] theorem completes_step_bind {s : Step} {r : Request} {f : r.Reply → Program β} :
    (step s r >>= f).Completes p rs b ↔
      ∃ ts, rs = r :: ts ∧ (f (p.answer r).1).Completes (p.answer r).2 ts b := Iff.rfl

@[simp] theorem completes_call_bind {r : Request} {f : r.Reply → Program β} :
    (call r >>= f).Completes p rs b ↔
      ∃ ts, rs = r :: ts ∧ (f (p.answer r).1).Completes (p.answer r).2 ts b := Iff.rfl

end

/-- The program asks allowed requests only, ends at once with whatever fails, and has results of one
kind only. -/
inductive Asks (allowed : Request → Prop) (result : α → Prop) : Program α → Prop
  | done {a : α} (ha : result a) : Asks allowed result (done a)
  | stop (f : Fault) : Asks allowed result (stop f)
  | log {r : LogRecord} {next : Program α} (hnext : Asks allowed result next) :
    Asks allowed result (log r next)
  | ask {r : Request} {next : Except Fault r.Reply → Program α} (hr : allowed r)
    (hfail : ∀ e, ∃ f, next (.error e) = .stop f)
    (hnext : ∀ x, Asks allowed result (next (.ok x))) :
    Asks allowed result (ask r next)

section

variable {allowed : Request → Prop} {result : α → Prop}

theorem Asks.mono {more : Request → Prop} {weaker : α → Prop} (h : prog.Asks allowed result)
    (hr : ∀ r, allowed r → more r) (ha : ∀ a, result a → weaker a) : prog.Asks more weaker := by
  induction h with
  | done hres => exact .done (ha _ hres)
  | stop e => exact .stop e
  | log _ ih => exact .log ih
  | ask hask hfail _ ih => exact .ask (hr _ hask) hfail ih

end

theorem run_of_completes {w : Watched} (h : prog.Completes w.platform rs a) :
    ∃ records, prog.run (Watched.backend .never) w =
      (.ok a, { platform := w.platform.after rs, requests := w.requests ++ rs, records }) := by
  induction prog generalizing w rs with
  | done b =>
    obtain ⟨rfl, rfl⟩ := h
    exact ⟨w.records, by rw [List.append_nil]; rfl⟩
  | stop e => exact h.elim
  | log r next ih => exact ih h
  | ask r next ih =>
    obtain ⟨ss, rfl, h⟩ := h
    obtain ⟨records, hrun⟩ := ih _ (w := { w with
      platform := (w.platform.answer r).2
      requests := w.requests ++ [r] }) h
    rw [List.append_assoc, List.singleton_append] at hrun
    exact ⟨records, hrun⟩

theorem completes_of_run {w : Watched} (h : (prog.run (Watched.backend .never) w).1 = .ok a) :
    ∃ rs, prog.Completes w.platform rs a := by
  induction prog generalizing w with
  | done b => exact ⟨[], rfl, (Except.ok.inj h).symm⟩
  | stop e => cases h
  | log r next ih => exact ih (w := { w with records := w.records ++ [r] }) h
  | ask r next ih =>
    obtain ⟨rs, hrs⟩ := ih _ h
    exact ⟨r :: rs, rs, rfl, hrs⟩

/-- Under an outage the platform answers allowed requests only. If the program still has a result,
it was answered all that it asks when nothing fails. -/
theorem platform_after_of_asks {w : Watched} {allowed : Request → Prop} {result : α → Prop}
    (outage : Outage) (hp : prog.Asks allowed result) : ∃ rs, (∀ r ∈ rs, allowed r) ∧
      (prog.run (Watched.backend outage) w).2.platform = w.platform.after rs ∧
      ∀ a, (prog.run (Watched.backend outage) w).1 = .ok a → prog.Completes w.platform rs a := by
  induction hp generalizing w with
  | done => exact ⟨[], nofun, rfl, fun a ha => ⟨rfl, (Except.ok.inj ha).symm⟩⟩
  | stop e => exact ⟨[], nofun, rfl, nofun⟩
  | @log r next _ ih => exact ih (w := { w with records := w.records ++ [r] })
  | @ask r next hallowed hfail _ ih =>
    cases hr : outage w.requests r with
    | none =>
      obtain ⟨rs, hrs, hplatform, hresult⟩ := ih (w.platform.answer r).1 (w := { w with
        platform := (w.platform.answer r).2
        requests := w.requests ++ [r] })
      refine ⟨r :: rs, List.forall_mem_cons.mpr ⟨hallowed, hrs⟩, ?_, ?_⟩
      · simp only [run, Watched.backend, hr]
        exact hplatform
      · intro a ha
        simp only [run, Watched.backend, hr] at ha
        exact ⟨rs, rfl, hresult a ha⟩
    | some message =>
      obtain ⟨f, hf⟩ := hfail (.transport message)
      refine ⟨[], nofun, ?_, ?_⟩
      · simp only [run, Watched.backend, hr, hf, Platform.after_nil]
      · intro a ha
        simp only [run, Watched.backend, hr, hf] at ha
        cases ha

section

variable {State : Type} {b : Backend State} {x y : State}

theorem run_bind_of_ok {f : α → Program β} (h : prog.run b x = (.ok a, y)) :
    (prog >>= f).run b x = (f a).run b y := by
  change (prog.bind f).run b x = _
  induction prog generalizing x with
  | done c =>
    obtain ⟨hc, rfl⟩ := Prod.mk.inj h
    rw [Except.ok.inj hc]
    rfl
  | stop e => cases h
  | log r next ih => exact ih h
  | ask r next ih => exact ih _ h

theorem run_bind_of_error {f : α → Program β} {e : Fault} (h : prog.run b x = (.error e, y)) :
    (prog >>= f).run b x = (.error e, y) := by
  change (prog.bind f).run b x = _
  induction prog generalizing x with
  | done c => cases h
  | stop e' =>
    obtain ⟨he, rfl⟩ := Prod.mk.inj h
    rw [Except.error.inj he]
    rfl
  | log r next ih => exact ih h
  | ask r next ih => exact ih _ h

end

/-- Under an outage the platform answers a prefix of what the program asks when nothing fails. -/
theorem platform_run_of_asks {w : Watched} {allowed : Request → Prop} {result : α → Prop}
    (outage : Outage) (hp : prog.Asks allowed result)
    (h : prog.Completes w.platform rs a) :
    ∃ ss ts, rs = ss ++ ts ∧
      (prog.run (Watched.backend outage) w).2.platform = w.platform.after ss := by
  induction hp generalizing w rs with
  | done => exact ⟨[], rs, rfl, rfl⟩
  | stop e => exact h.elim
  | @log r next _ ih => exact ih (w := { w with records := w.records ++ [r] }) h
  | @ask r next _ hfail _ ih =>
    obtain ⟨rest, rfl, h⟩ := h
    cases hr : outage w.requests r with
    | none =>
      obtain ⟨ss, ts, rfl, hrun⟩ := ih _ (w := { w with
        platform := (w.platform.answer r).2
        requests := w.requests ++ [r] }) h
      refine ⟨r :: ss, ts, rfl, ?_⟩
      simp only [run, Watched.backend, hr]
      exact hrun
    | some message =>
      obtain ⟨f, hf⟩ := hfail (.transport message)
      refine ⟨[], r :: rest, rfl, ?_⟩
      simp only [run, Watched.backend, hr, hf, Platform.after_nil]

end Program
end MergeDecoration
