import MergeDecoration.Proofs.Program.Completion

/-!
Programs that give up at the first request that fails. What such a program asked up to there is what
it asks when the request does not fail.
-/
namespace MergeDecoration

namespace Request

/-- The step of a run that a request to the platform is. -/
def step? : Request → Option Step
  | .mergeRequest .. => some .readMergeRequest
  | .currentUser => some .readUser
  | .commits .. => some .readCommits
  | .discussions .. => some .readDiscussions
  | .createDiscussion _ _ (.line _) => some .createIssueNote
  | .createDiscussion _ _ (.general _) => some .createSummary
  | .addNote .. => some .flagDiscussion
  | .editNote .. => some .editSummary
  | .deleteNote .. => some .deleteSummary
  | .resolve .. => some .resolveDiscussion
  | .pushStatus .. => some .pushStatus
  | .close | .changeset .. => none

/-- What a run ends with when a request fails: that the platform could not be reached is the failure
of the step. -/
def failure (r : Request) : Fault → Fault
  | .transport m => r.step?.elim (.transport m) (.decoration · (.transport m))
  | e => e

variable {r : Request} {s : Step} {m : String} {e : Fault}

theorem failure_transport (h : r.step? = some s) :
    r.failure (.transport m) = .decoration s (.transport m) := by
  rw [failure, h, Option.elim_some]

theorem failure_of_step?_eq_none (h : r.step? = none) : r.failure e = e := by
  cases e with
  | transport m => rw [failure, h, Option.elim_none]
  | _ => rfl

end Request

namespace Program

variable {α β : Type} {prog : Program α} {allowed : Request → Prop} {faults : Fault → Prop}
  {result : α → Prop}

/-- The program asks allowed requests only, ends at once with the failure of the request that fails,
and otherwise ends with faults and results of one kind only. -/
inductive FailStop (allowed : Request → Prop) (faults : Fault → Prop) (result : α → Prop) :
    Program α → Prop
  | done {a : α} (ha : result a) : FailStop allowed faults result (done a)
  | stop {f : Fault} (hf : faults f) : FailStop allowed faults result (stop f)
  | log {r : LogRecord} {next : Program α} (hnext : FailStop allowed faults result next) :
    FailStop allowed faults result (log r next)
  | ask {r : Request} {next : Except Fault r.Reply → Program α} (hr : allowed r)
    (hfail : ∀ e, next (.error e) = .stop (r.failure e))
    (hnext : ∀ x, FailStop allowed faults result (next (.ok x))) :
    FailStop allowed faults result (ask r next)

theorem failStop_pure {a : α} (ha : result a) :
    (pure a : Program α).FailStop allowed faults result := .done ha

theorem failStop_debug (m : String) : (debug m).FailStop allowed faults fun _ => True :=
  .log (.done trivial)

theorem failStop_lift {x : Except Fault α} (hfaults : ∀ f, x = .error f → faults f)
    (hresult : ∀ a, x = .ok a → result a) :
    (liftM x : Program α).FailStop allowed faults result := by
  cases x with
  | ok a => exact .done (hresult a rfl)
  | error f => exact .stop (hfaults f rfl)

theorem failStop_step {s : Step} {r : Request} (h : allowed r) (hs : r.step? = some s) :
    (step s r).FailStop allowed faults fun _ => True := by
  refine .ask h ?_ fun _ => .done trivial
  intro e
  cases e with
  | transport m => rw [Request.failure_transport hs]
  | _ => rfl

theorem failStop_call {r : Request} (h : allowed r) (hs : r.step? = none) :
    (call r).FailStop allowed faults fun _ => True := by
  refine .ask h ?_ fun _ => .done trivial
  intro e
  rw [Request.failure_of_step?_eq_none hs]
  rfl

theorem failStop_bind {f : α → Program β} {final : β → Prop}
    (hp : prog.FailStop allowed faults result)
    (hf : ∀ a, result a → (f a).FailStop allowed faults final) :
    (prog >>= f).FailStop allowed faults final := by
  induction hp with
  | done ha => exact hf _ ha
  | stop hfault => exact .stop hfault
  | log _ ih => exact .log ih
  | @ask r next hr hfail _ ih =>
    refine .ask hr ?_ ih
    intro e
    rw [hfail e]
    rfl

theorem failStop_lift_bind {x : Except Fault α} {f : α → Program β} {final : β → Prop}
    (hfaults : ∀ e, x = .error e → faults e)
    (hf : ∀ a, x = .ok a → (f a).FailStop allowed faults final) :
    ((liftM x : Program α) >>= f).FailStop allowed faults final :=
  failStop_bind (failStop_lift hfaults fun _ ha => ha) hf

theorem failStop_debug_bind {m : String} {f : Unit → Program α}
    (hf : (f ()).FailStop allowed faults result) :
    (debug m >>= f).FailStop allowed faults result :=
  failStop_bind (failStop_debug m) fun _ _ => hf

theorem failStop_bind_pure {f : α → β} (hp : prog.FailStop allowed faults result) :
    (prog >>= fun a => (pure (f a) : Program β)).FailStop allowed faults fun _ => True :=
  failStop_bind hp fun _ _ => failStop_pure trivial

theorem FailStop.mono {more : Request → Prop} {worse : Fault → Prop} {weaker : α → Prop}
    (h : prog.FailStop allowed faults result) (hr : ∀ r, allowed r → more r)
    (hf : ∀ f, faults f → worse f) (ha : ∀ a, result a → weaker a) :
    prog.FailStop more worse weaker := by
  induction h with
  | done hres => exact .done (ha _ hres)
  | stop hfault => exact .stop (hf _ hfault)
  | log _ ih => exact .log ih
  | ask hask hfail _ ih => exact .ask (hr _ hask) hfail ih

theorem FailStop.asks (h : prog.FailStop allowed faults result) : prog.Asks allowed result := by
  induction h with
  | done ha => exact .done ha
  | stop _ => exact .stop _
  | log _ ih => exact .log ih
  | ask hr hfail _ ih => exact .ask hr (fun e => ⟨_, hfail e⟩) ih

theorem FailStop.allowed_of_mem {σ : Type} {b : Backend σ} {w : σ} {r : Request}
    (h : prog.FailStop allowed faults result) (hr : r ∈ prog.asked b w) : allowed r := by
  induction h generalizing w with
  | done _ => cases hr
  | stop _ => cases hr
  | log _ ih => exact ih hr
  | @ask u next hu hfail _ ih =>
    rcases List.mem_cons.mp hr with rfl | hr
    · exact hu
    · revert hr
      cases (b.answer u w).1 with
      | ok x => exact ih x
      | error e =>
        rw [hfail e]
        nofun

end Program

/-- A backend that counts what it is asked and fails once, after `n` requests and to no effect. -/
def Backend.failingAt {σ : Type} (b : Backend σ) (n : Nat) (message : String) :
    Backend (Nat × σ) where
  answer r w :=
    if w.1 = n then (.error (.transport message), (w.1 + 1, w.2))
    else
      let (reply, w') := b.answer r w.2
      (reply, (w.1 + 1, w'))
  record l w := (w.1, b.record l w.2)

namespace Backend

variable {σ : Type} {b : Backend σ} {n k : Nat} {message : String} {w : σ}

theorem failingAt_answer_self (r : Request) :
    (b.failingAt n message).answer r (n, w) = (.error (.transport message), (n + 1, w)) :=
  if_pos rfl

theorem failingAt_answer_of_ne (r : Request) (h : k ≠ n) :
    (b.failingAt n message).answer r (k, w) =
      ((b.answer r w).1, (k + 1, (b.answer r w).2)) := if_neg h

end Backend

namespace Program

variable {α σ : Type} {prog : Program α} {allowed : Request → Prop} {faults : Fault → Prop}
  {result : α → Prop}

/-- When a request fails, the program has asked what it asks when nothing fails, up to this request
and nothing after it, and it ends with the failure of the request. -/
theorem FailStop.run_failingAt (h : prog.FailStop allowed faults result) (b : Backend σ)
    (message : String) {w : σ} {k n : Nat} {r : Request} (hr : (prog.asked b w)[n]? = some r) :
    prog.asked (b.failingAt (k + n) message) (k, w) = (prog.asked b w).take (n + 1) ∧
      (prog.run (b.failingAt (k + n) message) (k, w)).1 =
        .error (r.failure (.transport message)) := by
  induction h generalizing w k n with
  | done _ => cases hr
  | stop _ => cases hr
  | log _ ih => exact ih hr
  | @ask u next hu hfail _ ih =>
    cases n with
    | zero =>
      obtain rfl : u = r := Option.some.inj hr
      simp only [asked, run, Nat.add_zero, Backend.failingAt_answer_self, hfail, List.take_succ_cons,
        List.take_zero, and_self]
    | succ n =>
      have hne : k ≠ k + (n + 1) := by omega
      simp only [asked, run, Backend.failingAt_answer_of_ne u hne, List.take_succ_cons]
      rw [asked, List.getElem?_cons_succ] at hr
      revert hr
      cases (b.answer u w).1 with
      | error e =>
        intro hr
        rw [hfail e] at hr
        cases hr
      | ok x =>
        intro hr
        have hcount : k + (n + 1) = k + 1 + n := by omega
        rw [hcount]
        obtain ⟨hasked, hrun⟩ := ih x (k := k + 1) hr
        exact ⟨congrArg _ hasked, hrun⟩

end Program
end MergeDecoration
