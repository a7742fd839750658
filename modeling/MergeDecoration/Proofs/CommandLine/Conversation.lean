import MergeDecoration.CommandLine.Decorate
import MergeDecoration.Proofs.Gitlab.Sent
import MergeDecoration.Proofs.Host.Action
import MergeDecoration.Proofs.Program.Rehearsal

/-!
Conversations with an instance. What a program asks goes out over the session of the host, a
rehearsal sends what reads alone, and the session is closed once everything is asked.
-/
namespace MergeDecoration

open Stateful

namespace Host

/-- Between the two states requests of one kind went out over the session, and nothing else. -/
def Sends (P : Web.Request → Prop) (h h' : Host) : Prop := h.session.Sends P h'.session

instance {P : Web.Request → Prop} : IsPreorder Host (Sends P) where
  refl h := refl_of (Web.Session.Sends P) h.session
  trans _ _ _ hfirst hrest := trans_of (Web.Session.Sends P) hfirst hrest

/-- Between the two states requests of one kind went out, and then the session was closed. -/
def Converses (P : Web.Request → Prop) (h h' : Host) : Prop :=
  ∃ rs : List Web.Request, h'.session.sent = h.session.sent ++ rs.map .request ++ [.close] ∧
    ∀ r ∈ rs, P r

variable {P : Web.Request → Prop} {h t h' : Host}

theorem Keeps.sends (hkeeps : h.Keeps h') : h.Sends P h' := by
  unfold Sends
  rw [hkeeps.session]
  exact refl_of _ _

theorem Sends.converses (hsends : h.Sends P t) (hclose : h'.session = t.session.close) :
    h.Converses P h' := by
  obtain ⟨rs, hsent, hrs⟩ := hsends
  refine ⟨rs, ?_, hrs⟩
  rw [hclose, Web.Session.close, hsent]

theorem Converses.of_session (hconverses : h.Converses P t) (heq : h'.session = t.session) :
    h.Converses P h' := by
  unfold Converses
  rwa [heq]

end Host

/-- Between the two states of a rehearsal requests of one kind went out over the session of the host
behind it, and nothing else. -/
def Rehearsal.Sends (P : Web.Request → Prop) (s s' : Rehearsal Host) : Prop :=
  s.inner.Sends P s'.inner

instance {P : Web.Request → Prop} : IsPreorder (Rehearsal Host) (Rehearsal.Sends P) where
  refl s := refl_of (Host.Sends P) s.inner
  trans _ _ _ hfirst hrest := trans_of (Host.Sends P) hfirst hrest

namespace Program

variable {σ α : Type} {prog : Program α} {allowed : Request → Prop} {result : α → Prop}
  {R : σ → σ → Prop}

/-- What holds between the states before and after each answer and each record holds between those
before and after a run. -/
theorem Asks.run_related [IsPreorder σ R] (hp : prog.Asks allowed result) {b : Backend σ}
    (hanswer : ∀ r, allowed r → ∀ w, R w (b.answer r w).2) (hrecord : ∀ l w, R w (b.record l w))
    (w : σ) : R w (prog.run b w).2 := by
  induction hp generalizing w with
  | done _ => exact refl_of R w
  | stop _ => exact refl_of R w
  | log _ ih => exact trans_of R (hrecord _ w) (ih _)
  | @ask r next hr hfail _ ih =>
    refine trans_of R (hanswer r hr w) ?_
    rw [run_ask]
    cases (b.answer r w).1 with
    | ok x => exact ih x _
    | error e =>
      obtain ⟨f, hf⟩ := hfail e
      rw [hf]
      exact refl_of R _

end Program

namespace CommandLine

open Gitlab.Client (MadeFor)

variable {α : Type} {c : Gitlab.Client} {root : String} {r : Request} {prog : Program α}
  {allowed : Request → Prop} {result : α → Prop} {P : Web.Request → Prop}

theorem platform_answer (hr : ∀ path line, r ≠ .changeset path line) (h : Host) :
    ((platform c root).answer r h).2 = { h with session := (c.ask r h.session).2 } := by
  cases r with
  | changeset path line => exact absurd rfl (hr path line)
  | _ => rfl

/-- What a program asks goes out over the session, unless the working copy is asked. -/
theorem sends_platform (hr : r ≠ .close) (h : Host) :
    h.Sends (MadeFor r) ((platform c root).answer r h).2 := by
  by_cases hcopy : ∃ path line, r = .changeset path line
  · obtain ⟨path, line, rfl⟩ := hcopy
    exact (Blame.keeps_find root path line h).sends
  · rw [platform_answer (fun path line heq => hcopy ⟨path, line, heq⟩)]
    exact Gitlab.Client.leads_ask c hr h.session

theorem keeps_platform_record (c : Gitlab.Client) (root : String) (l : LogRecord) (h : Host) :
    h.Keeps ((platform c root).record l h) := ⟨rfl, rfl⟩

/-- In a rehearsal what is read goes out, and nothing else. -/
theorem sends_rehearsal (hr : r ≠ .close) (s : Rehearsal Host) :
    s.Sends (fun q => q.method = "GET")
      ((Rehearsal.backend (platform c root)).answer r s).2 := by
  cases hw : r.isWrite with
  | false =>
    rw [Rehearsal.answer_of_read _ s hw]
    exact (sends_platform hr s.inner).mono fun q hq => hq hw
  | true =>
    obtain ⟨x, o, hanswer, -⟩ := Rehearsal.answer_of_write (platform c root) s hw
    rw [hanswer]
    exact refl_of (Host.Sends _) s.inner

namespace Decorate

/-- A program that never closes the session has it closed when it is over, however it ends. -/
theorem converses_runLive (hp : prog.Asks allowed result) (hclose : ∀ r, allowed r → r ≠ .close)
    (hP : ∀ r, allowed r → ∀ q, MadeFor r q → P q) (h : Host) :
    h.Converses P (runLive c root prog h).2 := by
  have hsends : h.Sends P (prog.run (platform c root) h).2 := by
    refine hp.run_related ?_ ?_ h
    · intro r hr w
      exact (sends_platform (hclose r hr) w).mono (hP r hr)
    · intro l w
      exact (keeps_platform_record c root l w).sends
  exact hsends.converses rfl

/-- Whatever is rehearsed, only requests that read go out. -/
theorem converses_rehearse (hp : prog.Asks (· ≠ .close) result) (h : Host) :
    h.Converses (fun q => q.method = "GET") (rehearse c root prog h).2 := by
  have hsends : Rehearsal.Sends (fun q => q.method = "GET") ⟨h, []⟩
      (prog.run (Rehearsal.backend (platform c root)) ⟨h, []⟩).2 :=
    hp.run_related (fun r hr s => sends_rehearsal hr s)
      (fun l s => (keeps_platform_record c root l s.inner).sends) _
  exact Host.Sends.converses hsends rfl

end Decorate
end CommandLine
end MergeDecoration
