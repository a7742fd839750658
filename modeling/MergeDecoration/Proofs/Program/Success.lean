import MergeDecoration.Proofs.Program.Exchange
import MergeDecoration.Proofs.Program.Mirror

/-!
Programs that succeed. Whoever answers, all requests have been granted then, and the program has
asked what it asks of a platform.
-/
namespace MergeDecoration

/-- An exchange that a platform could have had once everything is read: a write is carried out, and
the working copy tells of a line what the function says. The id of a discussion on a line plays no
part; a general discussion is not opened. -/
def Exchange.Grants (changeset : Value → Int → Option String) : Exchange → Prop
  | ⟨.changeset path line, x⟩ => x = .ok (changeset path line)
  | ⟨.createDiscussion _ _ (.general _), _⟩ => False
  | ⟨r, x⟩ => r.isWrite = true ∧ ∃ a, x = .ok a

namespace Program

variable {α α' β : Type} {prog : Program α} {t : List Exchange} {a : α} {b : β}

theorem ends_ok_bind {f : α → Program β} (h : (prog >>= f).Ends t (.ok b)) :
    ∃ a ss ts, t = ss ++ ts ∧ prog.Ends ss (.ok a) ∧ (f a).Ends ts (.ok b) := by
  rcases ends_bind h with ⟨e, he, -⟩ | hok
  · cases he
  · exact hok

theorem ends_ok_lift_bind {x : Except Fault α} {f : α → Program β}
    (h : ((liftM x : Program α) >>= f).Ends t (.ok b)) :
    ∃ a, x = .ok a ∧ (f a).Ends t (.ok b) := by
  rcases ends_lift_bind h with ⟨e, -, -, he⟩ | hok
  · cases he
  · exact hok

theorem ends_ok_step_bind {s : Step} {r : Request} {f : r.Reply → Program β}
    (hs : r.step? = some s) (h : (step s r >>= f).Ends t (.ok b)) :
    ∃ x rest, t = ⟨r, .ok x⟩ :: rest ∧ (f x).Ends rest (.ok b) := by
  rcases ends_step_bind hs h with ⟨e, -, he⟩ | hok
  · cases he
  · exact hok

theorem ends_ok_step {s : Step} {r : Request} {x : r.Reply} (hs : r.step? = some s)
    (h : (step s r).Ends t (.ok x)) : t = [⟨r, .ok x⟩] := by
  rw [← bind_pure (step s r)] at h
  obtain ⟨y, rest, rfl, rfl, hx⟩ := ends_ok_step_bind hs h
  rw [Except.ok.inj hx]

/-- Of a program that stops at the first failure and has succeeded, no request has failed. -/
theorem FailStop.granted {allowed : Request → Prop} {faults : Fault → Prop} {result : α → Prop}
    (hp : prog.FailStop allowed faults result) (h : prog.Ends t (.ok a)) :
    ∀ e ∈ t, allowed e.request ∧ ∃ x, e.answer = .ok x := by
  induction hp generalizing t with
  | done => rw [h.1]; exact List.forall_mem_nil _
  | stop => cases h.2
  | log _ ih => exact ih h
  | @ask r next hr hfail _ ih =>
    obtain ⟨reply, rest, rfl, h⟩ := h
    cases reply with
    | ok x => exact List.forall_mem_cons.mpr ⟨⟨hr, x, rfl⟩, ih x h⟩
    | error e =>
      rw [hfail e] at h
      cases h.2

/-- A platform that is watched keeps what it is asked. -/
theorem requests_run (prog : Program α) (outage : Outage) (w : Watched) :
    (prog.run (Watched.backend outage) w).2.requests =
      w.requests ++ prog.asked (Watched.backend outage) w := by
  induction prog generalizing w with
  | done a => exact (List.append_nil _).symm
  | stop f => exact (List.append_nil _).symm
  | log r next ih => exact ih _
  | ask r next ih =>
    have hkept : ((Watched.backend outage).answer r w).2.requests = w.requests ++ [r] := by
      unfold Watched.backend
      dsimp only
      split <;> rfl
    rw [run_ask, ih, hkept, asked_ask, List.append_assoc, List.singleton_append]

/-- A platform grants what has been granted. -/
theorem Alike.completes {prog' : Program α'} {Q : α → α' → Prop} {p : Platform}
    (h : prog.Alike Eq Q prog') (ht : prog.Ends t (.ok a))
    (hgrants : ∀ e ∈ t, e.Grants p.changeset) :
    ∃ a', Q a a' ∧ prog'.Completes p (t.map (·.request)) a' := by
  induction h generalizing p t with
  | done h =>
    obtain ⟨rfl, ha⟩ := ht
    rw [Except.ok.inj ha]
    exact ⟨_, h, rfl, rfl⟩
  | stop => cases ht.2
  | log _ ih => exact ih ht hgrants
  | @ask r next next' hopening hlisting _ _ ih =>
    obtain ⟨reply, rest, rfl, ht⟩ := ht
    obtain ⟨hfirst, hrest⟩ := List.forall_mem_cons.mp hgrants
    have hreply : reply = .ok (p.answer r).1 := by
      cases r with
      | changeset path line => exact hfirst
      | createDiscussion => cases hopening
      | mergeRequest | currentUser | commits | discussions | close => cases hfirst.1
      | _ => exact hfirst.2.choose_spec
    rw [hreply] at ht
    rw [← Platform.changeset_answer p r] at hrest
    obtain ⟨a', ha, hnext⟩ := ih _ ht hrest
    exact ⟨a', ha, _, rfl, hnext⟩
  | @resolve project iid v v' next next' hv _ ih =>
    obtain ⟨reply, rest, rfl, ht⟩ := ht
    obtain ⟨hfirst, hrest⟩ := List.forall_mem_cons.mp hgrants
    obtain ⟨x, rfl⟩ := hfirst.2
    subst hv
    obtain ⟨a', ha, hnext⟩ := ih _ ht (p := (p.answer (.resolve project iid v)).2) hrest
    exact ⟨a', ha, _, rfl, hnext⟩
  | @create project iid note next next' _ _ _ ih =>
    obtain ⟨reply, rest, rfl, ht⟩ := ht
    obtain ⟨hfirst, hrest⟩ := List.forall_mem_cons.mp hgrants
    cases note with
    | general body => exact hfirst.elim
    | line note =>
      obtain ⟨d, rfl⟩ := hfirst.2
      obtain ⟨a', ha, hnext⟩ := ih d _ (fun body hbody => by cases hbody) ht
        (p := (p.answer (.createDiscussion project iid (.line note))).2) hrest
      exact ⟨a', ha, _, rfl, hnext⟩

end Program
end MergeDecoration
