import MergeDecoration.Proofs.Program.FailStop

/-!
How a program ends, told from the answers that it got. Which backend gave them plays no part.
-/
namespace MergeDecoration

/-- A request with its answer. -/
structure Exchange where
  request : Request
  answer : Except Fault request.Reply

namespace Program

variable {α β σ : Type} {prog : Program α} {t : List Exchange} {x : Except Fault α}

/-- What a program asks on its way and what it is answered, in order. -/
def trace (b : Backend σ) : Program α → σ → List Exchange
  | .done _, _ | .stop _, _ => []
  | .log r p, w => p.trace b (b.record r w)
  | .ask r k, w =>
    let (reply, w) := b.answer r w
    ⟨r, reply⟩ :: (k reply).trace b w

section

variable {r : Request} {next : Except Fault r.Reply → Program α}

theorem run_ask (b : Backend σ) (w : σ) :
    (ask r next).run b w = (next (b.answer r w).1).run b (b.answer r w).2 := rfl

theorem asked_ask (b : Backend σ) (w : σ) :
    (ask r next).asked b w = r :: (next (b.answer r w).1).asked b (b.answer r w).2 := rfl

theorem trace_ask (b : Backend σ) (w : σ) :
    (ask r next).trace b w =
      ⟨r, (b.answer r w).1⟩ :: (next (b.answer r w).1).trace b (b.answer r w).2 := rfl

end

theorem map_request_trace (prog : Program α) (b : Backend σ) (w : σ) :
    (prog.trace b w).map (·.request) = prog.asked b w := by
  induction prog generalizing w with
  | done a => rfl
  | stop f => rfl
  | log r p ih => exact ih _
  | ask r k ih => exact congrArg _ (ih _ _)

/-- Every exchange is an answer of the backend. -/
theorem exists_answer_of_mem_trace {b : Backend σ} {w : σ} {e : Exchange}
    (h : e ∈ prog.trace b w) :
    ∃ v, (b.answer e.request v).1 = e.answer := by
  induction prog generalizing w with
  | done a => cases h
  | stop f => cases h
  | log r next ih => exact ih h
  | ask r next ih =>
    rcases List.mem_cons.mp h with rfl | h
    · exact ⟨w, rfl⟩
    · exact ih _ h

/-- Answered so, the program ends with the result. -/
def Ends : Program α → List Exchange → Except Fault α → Prop
  | .done a, t, x => t = [] ∧ x = .ok a
  | .stop f, t, x => t = [] ∧ x = .error f
  | .log _ p, t, x => p.Ends t x
  | .ask r k, t, x => ∃ reply rest, t = ⟨r, reply⟩ :: rest ∧ (k reply).Ends rest x

theorem ends_run (prog : Program α) (b : Backend σ) (w : σ) :
    prog.Ends (prog.trace b w) (prog.run b w).1 := by
  induction prog generalizing w with
  | done a => exact ⟨rfl, rfl⟩
  | stop f => exact ⟨rfl, rfl⟩
  | log r p ih => exact ih _
  | ask r k ih => exact ⟨_, _, rfl, ih _ _⟩

section

variable {f : α → Program β} {y : Except Fault β}

/-- A program followed by another ends with a fault of the first, or as the second. -/
theorem ends_bind (h : (prog >>= f).Ends t y) :
    (∃ e, y = .error e ∧ prog.Ends t (.error e)) ∨
      ∃ a ss ts, t = ss ++ ts ∧ prog.Ends ss (.ok a) ∧ (f a).Ends ts y := by
  change (prog.bind f).Ends t y at h
  induction prog generalizing t with
  | done a => exact Or.inr ⟨a, [], t, rfl, ⟨rfl, rfl⟩, h⟩
  | stop e => exact Or.inl ⟨e, h.2, h.1, rfl⟩
  | log r p ih => exact ih h
  | ask r k ih =>
    obtain ⟨reply, rest, rfl, h⟩ := h
    rcases ih reply h with ⟨e, rfl, hfirst⟩ | ⟨a, ss, ts, rfl, hs, ht⟩
    · exact Or.inl ⟨e, rfl, reply, rest, rfl, hfirst⟩
    · exact Or.inr ⟨a, ⟨r, reply⟩ :: ss, ts, rfl, ⟨reply, ss, rfl, hs⟩, ht⟩

theorem ends_lift_bind {v : Except Fault α} (h : ((liftM v : Program α) >>= f).Ends t y) :
    (∃ e, v = .error e ∧ t = [] ∧ y = .error e) ∨ ∃ a, v = .ok a ∧ (f a).Ends t y := by
  cases v with
  | ok a => exact Or.inr ⟨a, rfl, h⟩
  | error e => exact Or.inl ⟨e, rfl, h⟩

theorem ends_step_bind {s : Step} {r : Request} {f : r.Reply → Program β} (hs : r.step? = some s)
    (h : (step s r >>= f).Ends t y) :
    (∃ e, t = [⟨r, .error e⟩] ∧ y = .error (r.failure e)) ∨
      ∃ a rest, t = ⟨r, .ok a⟩ :: rest ∧ (f a).Ends rest y := by
  obtain ⟨reply, rest, rfl, h⟩ := h
  cases reply with
  | ok a => exact Or.inr ⟨a, rest, rfl, h⟩
  | error e =>
    refine Or.inl ⟨e, ?_⟩
    cases e with
    | transport m =>
      obtain ⟨rfl, rfl⟩ := h
      exact ⟨rfl, by rw [Request.failure_transport hs]⟩
    | _ =>
      obtain ⟨rfl, rfl⟩ := h
      exact ⟨rfl, rfl⟩

end

/-- A program that stops at the first failure ends with a result, with a fault of its own, or with
the failure of a request. -/
theorem FailStop.ends {allowed : Request → Prop} {faults : Fault → Prop} {result : α → Prop}
    (hp : prog.FailStop allowed faults result) (h : prog.Ends t x) :
    (∀ e ∈ t, allowed e.request) ∧
      ((∃ a, x = .ok a ∧ result a) ∨ (∃ f, x = .error f ∧ faults f) ∨
        ∃ e ∈ t, ∃ f, e.answer = .error f ∧ x = .error (e.request.failure f)) := by
  induction hp generalizing t with
  | done ha =>
    obtain ⟨rfl, rfl⟩ := h
    exact ⟨nofun, Or.inl ⟨_, rfl, ha⟩⟩
  | stop hf =>
    obtain ⟨rfl, rfl⟩ := h
    exact ⟨nofun, Or.inr (Or.inl ⟨_, rfl, hf⟩)⟩
  | log _ ih => exact ih h
  | @ask r next hr hfail _ ih =>
    obtain ⟨reply, rest, rfl, h⟩ := h
    cases reply with
    | ok a =>
      obtain ⟨hallowed, hends⟩ := ih a h
      refine ⟨List.forall_mem_cons.mpr ⟨hr, hallowed⟩, ?_⟩
      rcases hends with hend | hend | ⟨e, he, f, hend⟩
      · exact Or.inl hend
      · exact Or.inr (Or.inl hend)
      · exact Or.inr (Or.inr ⟨e, List.mem_cons_of_mem _ he, f, hend⟩)
    | error f =>
      rw [hfail f] at h
      obtain ⟨rfl, rfl⟩ := h
      refine ⟨List.forall_mem_singleton.mpr hr, Or.inr (Or.inr ?_)⟩
      exact ⟨_, List.mem_cons_self .., f, rfl, rfl⟩

end Program
end MergeDecoration
