import MergeDecoration.Proofs.Program.Quiet
import MergeDecoration.Proofs.Platform.Effect

/-!
Two conversations side by side. They are the same up to the ids of the discussions that were opened
in their course: the program learns such an id from the answer, and may hand it back.
-/
namespace MergeDecoration

/-- Whether the discussions are asked for. -/
def Request.isListing : Request → Bool
  | .discussions .. => true
  | _ => false

/-- Requests that are the same up to ids that are related. -/
inductive Request.Alike (R : Value → Value → Prop) : Request → Request → Prop
  | same {r : Request} (h : ∀ id, r.target? = some id → R id id) : Alike R r r
  | resolve {project iid v v' : Value} (h : R v v') :
    Alike R (.resolve project iid v) (.resolve project iid v')

theorem Request.related_of_none {R : Value → Value → Prop} {r : Request} (h : r.target? = none) :
    ∀ id, r.target? = some id → R id id := by
  intro id hid
  rw [h] at hid
  cases hid

theorem Request.related_of_some {R : Value → Value → Prop} {r : Request} {v : Value}
    (h : r.target? = some v) (hv : R v v) : ∀ id, r.target? = some id → R id id := by
  intro id hid
  rw [h] at hid
  rwa [← Option.some.inj hid]

/-- Exchanges that are the same up to ids that are related, and up to what is opened. -/
inductive Exchange.Alike (R : Value → Value → Prop) : Exchange → Exchange → Prop
  | same {e : Exchange} (h : ∀ id, e.request.target? = some id → R id id) : Alike R e e
  | resolve {project iid v v' : Value} {x : Except Fault Unit} (h : R v v') :
    Alike R ⟨.resolve project iid v, x⟩ ⟨.resolve project iid v', x⟩
  | opened {project iid : Value} {note : NewNote} {d d' : Discussion} :
    Alike R ⟨.createDiscussion project iid note, .ok d⟩
      ⟨.createDiscussion project iid note, .ok d'⟩

theorem Exchange.Alike.request {R : Value → Value → Prop} {e e' : Exchange} (h : e.Alike R e') :
    e.request.Alike R e'.request := by
  cases h with
  | same h => exact .same h
  | resolve h => exact .resolve h
  | opened => exact .same (Request.related_of_none rfl)

/-- The ids that two conversations gave to a discussion that was opened at the same place in them,
and not on a line. -/
def Opened (t t' : List Exchange) (v v' : Value) : Prop :=
  ∃ (project iid : Value) (body : String) (d d' : Discussion),
    ((⟨.createDiscussion project iid (.general body), .ok d⟩ : Exchange),
      (⟨.createDiscussion project iid (.general body), .ok d'⟩ : Exchange)) ∈ t.zip t' ∧
    d.id = v ∧ d'.id = v'

theorem Opened.cons {t t' : List Exchange} {v v' : Value} (h : Opened t t' v v')
    (e e' : Exchange) : Opened (e :: t) (e' :: t') v v' := by
  obtain ⟨project, iid, body, d, d', hmem, hv⟩ := h
  exact ⟨project, iid, body, d, d', List.mem_cons_of_mem _ hmem, hv⟩

/-- The second backend answers as the first one, whenever that one answers in a fair way: the same,
except that discussions may be called otherwise when they are opened. -/
structure Backend.Mirrors {σ τ : Type} (b : Backend σ) (b' : Backend τ)
    (R : Value → Value → Prop) (fair : Exchange → Prop) (S : σ → τ → Prop) : Prop where
  record : ∀ l w w', S w w' → S (b.record l w) (b'.record l w')
  ask : ∀ r w w', r.isOpening = false → r.isListing = false → S w w' →
    fair ⟨r, (b.answer r w).1⟩ →
      (b.answer r w).1 = (b'.answer r w').1 ∧ S (b.answer r w).2 (b'.answer r w').2
  resolve : ∀ project iid v v' w w', R v v' → S w w' →
    fair ⟨.resolve project iid v, (b.answer (.resolve project iid v) w).1⟩ →
      (b.answer (.resolve project iid v) w).1 = (b'.answer (.resolve project iid v') w').1 ∧
      S (b.answer (.resolve project iid v) w).2 (b'.answer (.resolve project iid v') w').2
  create : ∀ project iid note w w', S w w' →
    fair ⟨.createDiscussion project iid note,
      (b.answer (.createDiscussion project iid note) w).1⟩ →
      ((∃ e, (b.answer (.createDiscussion project iid note) w).1 = .error e ∧
          (b'.answer (.createDiscussion project iid note) w').1 = .error e) ∨
        ∃ d d', (b.answer (.createDiscussion project iid note) w).1 = .ok d ∧
          (b'.answer (.createDiscussion project iid note) w').1 = .ok d') ∧
      S (b.answer (.createDiscussion project iid note) w).2
        (b'.answer (.createDiscussion project iid note) w').2

/-- A backend mirrors itself. -/
theorem Backend.mirrors_self {σ : Type} (b : Backend σ) {R : Value → Value → Prop}
    (hR : ∀ v v', R v v' → v = v') : b.Mirrors b R (fun _ => True) Eq := by
  constructor
  · rintro l w _ rfl
    rfl
  · rintro r w _ - - rfl -
    exact ⟨rfl, rfl⟩
  · rintro project iid v v' w _ hv rfl -
    rw [hR v v' hv]
    exact ⟨rfl, rfl⟩
  · rintro project iid note w _ rfl -
    refine ⟨?_, rfl⟩
    cases h : (b.answer (.createDiscussion project iid note) w).1 with
    | error e => exact Or.inl ⟨e, rfl, rfl⟩
    | ok d => exact Or.inr ⟨d, d, rfl, rfl⟩

theorem Opened.eq_of_self {t : List Exchange} {v v' : Value} (h : Opened t t v v') :
    v = v' ∧ ∃ (project iid : Value) (body : String) (d : Discussion),
      (⟨.createDiscussion project iid (.general body), .ok d⟩ : Exchange) ∈ t ∧ d.id = v := by
  obtain ⟨project, iid, body, d, d', hmem, rfl, rfl⟩ := h
  have hsame : ∀ {l : List Exchange} {e e' : Exchange}, (e, e') ∈ l.zip l → e = e' ∧ e ∈ l := by
    intro l e e' hmem
    rw [List.mem_iff_getElem?] at hmem
    obtain ⟨i, hi⟩ := hmem
    rw [List.getElem?_zip_eq_some] at hi
    exact ⟨Option.some.inj (hi.1.symm.trans hi.2), List.mem_of_getElem? hi.1⟩
  obtain ⟨heq, hmem⟩ := hsame hmem
  refine ⟨?_, project, iid, body, d, hmem, rfl⟩
  simp only [Exchange.mk.injEq, heq_eq_eq, Except.ok.injEq, true_and] at heq
  rw [heq]

namespace Program

variable {α α' β β' : Type} {R : Value → Value → Prop} {Q : α → α' → Prop}

/-- Two programs that ask alike and end alike, as long as they are answered alike. What a discussion
on a line is called plays no part in what is asked after it was opened. -/
inductive Alike (R : Value → Value → Prop) (Q : α → α' → Prop) : Program α → Program α' → Prop
  | done {a : α} {a' : α'} (h : Q a a') : Alike R Q (done a) (done a')
  | stop (f : Fault) : Alike R Q (stop f) (stop f)
  | log {l : LogRecord} {next : Program α} {next' : Program α'} (h : Alike R Q next next') :
    Alike R Q (log l next) (log l next')
  | ask {r : Request} {next : Except Fault r.Reply → Program α}
    {next' : Except Fault r.Reply → Program α'} (hopening : r.isOpening = false)
    (hlisting : r.isListing = false) (htarget : ∀ id, r.target? = some id → R id id)
    (h : ∀ x, Alike R Q (next x) (next' x)) : Alike R Q (ask r next) (ask r next')
  | resolve {project iid v v' : Value} {next : Except Fault Unit → Program α}
    {next' : Except Fault Unit → Program α'} (hv : R v v')
    (h : ∀ x, Alike R Q (next x) (next' x)) :
    Alike R Q (ask (.resolve project iid v) next) (ask (.resolve project iid v') next')
  | create {project iid : Value} {note : NewNote} {next : Except Fault Discussion → Program α}
    {next' : Except Fault Discussion → Program α'}
    (herror : ∀ e, Alike R Q (next (.error e)) (next' (.error e)))
    (hok : ∀ d d' : Discussion, (∀ body, note = .general body → R d.id d'.id) →
      Alike R Q (next (.ok d)) (next' (.ok d'))) :
    Alike R Q (ask (.createDiscussion project iid note) next)
      (ask (.createDiscussion project iid note) next')

theorem alike_pure {a : α} {a' : α'} (h : Q a a') :
    (pure a : Program α).Alike R Q (pure a' : Program α') := .done h

theorem Alike.bind {prog : Program α} {prog' : Program α'} {f : α → Program β}
    {f' : α' → Program β'} {Q' : β → β' → Prop} (h : prog.Alike R Q prog')
    (hf : ∀ a a', Q a a' → (f a).Alike R Q' (f' a')) :
    (prog >>= f).Alike R Q' (prog' >>= f') := by
  change (prog.bind f).Alike R Q' (prog'.bind f')
  induction h with
  | done h => exact hf _ _ h
  | stop e => exact .stop e
  | log _ ih => exact .log ih
  | ask hopening hlisting htarget _ ih => exact .ask hopening hlisting htarget ih
  | resolve hv _ ih => exact .resolve hv ih
  | create _ _ ihe ihd => exact .create ihe ihd

theorem Alike.debug_bind {m : String} {f : Unit → Program α} {f' : Unit → Program α'}
    (h : (f ()).Alike R Q (f' ())) : (debug m >>= f).Alike R Q (debug m >>= f') := .log h

theorem alike_lift_bind {x : Except Fault β} {f : β → Program α} {f' : β → Program α'}
    (h : ∀ a, x = .ok a → (f a).Alike R Q (f' a)) :
    ((liftM x : Program β) >>= f).Alike R Q ((liftM x : Program β) >>= f') := by
  cases x with
  | ok a => exact h a rfl
  | error e => exact .stop e

theorem alike_call {r : Request} (hopening : r.isOpening = false) (hlisting : r.isListing = false)
    (htarget : ∀ id, r.target? = some id → R id id) : (call r).Alike R Eq (call r) := by
  refine .ask hopening hlisting htarget ?_
  intro x
  cases x with
  | ok a => exact .done rfl
  | error e => exact .stop e

theorem alike_step {r : Request} (s : Step) (hopening : r.isOpening = false)
    (hlisting : r.isListing = false) (htarget : ∀ id, r.target? = some id → R id id) :
    (step s r).Alike R Eq (step s r) := by
  refine .ask hopening hlisting htarget ?_
  intro x
  cases x with
  | ok a => exact .done rfl
  | error e => cases e <;> exact .stop _

theorem alike_step_resolve {project iid v v' : Value} (s : Step) (h : R v v') :
    (step s (.resolve project iid v)).Alike R Eq (step s (.resolve project iid v')) := by
  refine .resolve h ?_
  intro x
  cases x with
  | ok a => exact .done rfl
  | error e => cases e <;> exact .stop _

theorem alike_step_create {project iid : Value} (note : NewNote) (s : Step) :
    (step s (.createDiscussion project iid note)).Alike R
      (fun d d' : Discussion => ∀ body, note = .general body → R d.id d'.id)
      (step s (.createDiscussion project iid note)) := by
  refine .create ?_ fun d d' h => .done h
  intro e
  cases e <;> exact .stop _

theorem Alike.quiet {prog : Program α} {prog' : Program α'} (h : prog.Alike R Q prog') :
    prog.quiet.Alike R Q prog'.quiet := by
  induction h with
  | done h => exact .done h
  | stop e => exact .stop e
  | log _ ih => exact ih
  | ask hopening hlisting htarget _ ih => exact .ask hopening hlisting htarget ih
  | resolve hv _ ih => exact .resolve hv ih
  | create _ _ ihe ihd => exact .create ihe ihd

/-- What asks nothing is alike to itself. -/
theorem alike_of_silent {prog : Program α} {allowed : Request → Prop} {result : α → Prop}
    (h : prog.Asks allowed result) (hnone : ∀ r, ¬allowed r) :
    prog.Alike R (fun a a' => a = a' ∧ result a) prog := by
  induction h with
  | done ha => exact .done ⟨rfl, ha⟩
  | stop e => exact .stop e
  | log _ ih => exact .log ih
  | ask hr => exact absurd hr (hnone _)

section

variable {σ τ : Type} {b : Backend σ} {b' : Backend τ} {fair : Exchange → Prop}
  {S : σ → τ → Prop} {w : σ} {w' : τ} {prog prog' : Program α}

/-- Two programs that are alike have conversations that are alike with backends of which one
mirrors the other, and end with the same result. -/
theorem Alike.trace (h : prog.Alike R Eq prog') (hb : b.Mirrors b' R fair S) (hS : S w w')
    (hfair : ∀ e ∈ prog.trace b w, fair e)
    (hR : ∀ v v', Opened (prog.trace b w) (prog'.trace b' w') v v' → R v v') :
    List.Forall₂ (Exchange.Alike R) (prog.trace b w) (prog'.trace b' w') ∧
      (prog.run b w).1 = (prog'.run b' w').1 := by
  induction h generalizing w w' with
  | done h =>
    subst h
    exact ⟨.nil, rfl⟩
  | stop e => exact ⟨.nil, rfl⟩
  | log _ ih => exact ih (hb.record _ w w' hS) hfair hR
  | @ask r next next' hopening hlisting htarget _ ih =>
    obtain ⟨hhead, htail⟩ := List.forall_mem_cons.mp hfair
    obtain ⟨hanswer, hnext⟩ := hb.ask r w w' hopening hlisting hS hhead
    simp only [Program.trace, Program.run] at hR ⊢
    rw [← hanswer] at hR ⊢
    obtain ⟨htrace, hrun⟩ := ih _ hnext htail fun v v' hv => hR v v' (hv.cons _ _)
    exact ⟨.cons (.same htarget) htrace, hrun⟩
  | @resolve project iid v v' next next' hv _ ih =>
    obtain ⟨hhead, htail⟩ := List.forall_mem_cons.mp hfair
    obtain ⟨hanswer, hnext⟩ := hb.resolve project iid v v' w w' hv hS hhead
    simp only [Program.trace, Program.run] at hR ⊢
    rw [← hanswer] at hR ⊢
    obtain ⟨htrace, hrun⟩ := ih _ hnext htail fun u u' hu => hR u u' (hu.cons _ _)
    exact ⟨.cons (.resolve hv) htrace, hrun⟩
  | @create project iid note next next' _ _ ihe ihd =>
    obtain ⟨hhead, htail⟩ := List.forall_mem_cons.mp hfair
    obtain ⟨hanswer, hnext⟩ := hb.create project iid note w w' hS hhead
    simp only [Program.trace, Program.run] at hR htail ⊢
    rcases hanswer with ⟨e, he, he'⟩ | ⟨d, d', hd, hd'⟩
    · rw [he] at htail
      rw [he, he'] at hR ⊢
      obtain ⟨htrace, hrun⟩ := ihe e hnext htail fun v v' hv => hR v v' (hv.cons _ _)
      exact ⟨.cons (.same (Request.related_of_none rfl)) htrace, hrun⟩
    · rw [hd] at htail
      rw [hd, hd'] at hR ⊢
      have hids : ∀ body, note = .general body → R d.id d'.id := by
        rintro body rfl
        exact hR _ _ ⟨project, iid, body, d, d', List.mem_cons_self .., rfl, rfl⟩
      obtain ⟨htrace, hrun⟩ := ihd d d' hids hnext htail fun v v' hv => hR v v' (hv.cons _ _)
      exact ⟨.cons .opened htrace, hrun⟩

end

end Program
end MergeDecoration
