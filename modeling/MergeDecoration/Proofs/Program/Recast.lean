import MergeDecoration.Proofs.Program.Mirror

/-!
Two conversations in which nothing fails. The second program asks what the first one asks, but has
something else to ask in the place of some requests, or nothing.
-/
namespace MergeDecoration

/-- Whatever concerns a discussion is asked as it is. -/
def Value.IsSpared (v : Value) (T : Request → List Request) : Prop :=
  ∀ r : Request, r.target? = some v → T r = [r]

namespace Program

variable {α α' β β' : Type} {T : Request → List Request} {Q : α → α' → Prop}
  {prog : Program α} {prog' : Program α'}

/-- As long as nothing fails, the second program asks what the first one asks, each request recast.
They stop with the same fault, or end with results that go together. What they log plays no part. -/
inductive Recast (T : Request → List Request) (Q : α → α' → Prop) :
    Program α → Program α' → Prop
  | done {a : α} {a' : α'} (h : Q a a') : Recast T Q (done a) (done a')
  | stop (f : Fault) : Recast T Q (stop f) (stop f)
  | logFirst {l : LogRecord} {next : Program α} {prog' : Program α'}
    (h : Recast T Q next prog') : Recast T Q (log l next) prog'
  | logSecond {l : LogRecord} {prog : Program α} {next' : Program α'}
    (h : Recast T Q prog next') : Recast T Q prog (log l next')
  | ask {r : Request} {next : Except Fault r.Reply → Program α}
    {next' : Except Fault r.Reply → Program α'} (hr : T r = [r])
    (hopening : r.isOpening = false) (hlisting : r.isListing = false)
    (h : ∀ x, Recast T Q (next (.ok x)) (next' (.ok x))) :
    Recast T Q (ask r next) (ask r next')
  | create {project iid : Value} {note : NewNote} {next : Except Fault Discussion → Program α}
    {next' : Except Fault Discussion → Program α'}
    (hr : T (.createDiscussion project iid note) = [.createDiscussion project iid note])
    (h : ∀ d d' : Discussion, d.id = d'.id → d.id.IsSpared T →
      Recast T Q (next (.ok d)) (next' (.ok d'))) :
    Recast T Q (ask (.createDiscussion project iid note) next)
      (ask (.createDiscussion project iid note) next')
  | replace {r u : Request} {next : Except Fault r.Reply → Program α}
    {next' : Except Fault u.Reply → Program α'} (hr : T r = [u])
    (hopening : r.isOpening = false) (hopening' : u.isOpening = false)
    (h : ∀ x x', Recast T Q (next (.ok x)) (next' (.ok x'))) :
    Recast T Q (ask r next) (ask u next')
  | drop {r : Request} {next : Except Fault r.Reply → Program α} {prog' : Program α'}
    (hr : T r = []) (hopening : r.isOpening = false)
    (h : ∀ x, Recast T Q (next (.ok x)) prog') : Recast T Q (ask r next) prog'

theorem recast_pure {a : α} {a' : α'} (h : Q a a') :
    (pure a : Program α).Recast T Q (pure a' : Program α') := .done h

theorem Recast.bind {f : α → Program β} {f' : α' → Program β'} {Q' : β → β' → Prop}
    (h : prog.Recast T Q prog') (hf : ∀ a a', Q a a' → (f a).Recast T Q' (f' a')) :
    (prog >>= f).Recast T Q' (prog' >>= f') := by
  change (prog.bind f).Recast T Q' (prog'.bind f')
  induction h with
  | done h => exact hf _ _ h
  | stop e => exact .stop e
  | logFirst _ ih => exact .logFirst ih
  | logSecond _ ih => exact .logSecond ih
  | ask hr hopening hlisting _ ih => exact .ask hr hopening hlisting ih
  | create hr _ ih => exact .create hr ih
  | replace hr hopening hopening' _ ih => exact .replace hr hopening hopening' ih
  | drop hr hopening _ ih => exact .drop hr hopening ih

theorem Recast.debug_bind {m m' : String} {f : Unit → Program α} {f' : Unit → Program α'}
    (h : (f ()).Recast T Q (f' ())) :
    (debug m >>= f).Recast T Q (debug m' >>= f') := .logFirst (.logSecond h)

theorem recast_lift_bind {x : Except Fault β} {f : β → Program α} {f' : β → Program α'}
    (h : ∀ a, x = .ok a → (f a).Recast T Q (f' a)) :
    ((liftM x : Program β) >>= f).Recast T Q ((liftM x : Program β) >>= f') := by
  cases x with
  | ok a => exact h a rfl
  | error e => exact .stop e

/-- The second program goes on with the image of what the first one goes on with. -/
theorem recast_lift_map_bind {x : Except Fault β} {up : β → β'} {f : β → Program α}
    {f' : β' → Program α'} (h : ∀ a, x = .ok a → (f a).Recast T Q (f' (up a))) :
    ((liftM x : Program β) >>= f).Recast T Q ((liftM (up <$> x) : Program β') >>= f') := by
  cases x with
  | ok a => exact h a rfl
  | error e => exact .stop e

theorem recast_step {r : Request} (s : Step) (hr : T r = [r]) (hopening : r.isOpening = false)
    (hlisting : r.isListing = false) : (step s r).Recast T Eq (step s r) :=
  .ask hr hopening hlisting fun _ => .done rfl

/-- One request in the place of another. -/
theorem recast_step_replace {r u : Request} (s s' : Step) (hr : T r = [u])
    (hopening : r.isOpening = false) (hopening' : u.isOpening = false) :
    (step s r).Recast T (fun _ _ => True) (step s' u) :=
  .replace hr hopening hopening' fun _ _ => .done trivial

theorem recast_step_create {project iid : Value} (note : NewNote) (s : Step)
    (hr : T (.createDiscussion project iid note) = [.createDiscussion project iid note]) :
    (step s (.createDiscussion project iid note)).Recast T
      (fun d d' : Discussion => d.id = d'.id ∧ d.id.IsSpared T)
      (step s (.createDiscussion project iid note)) :=
  .create hr fun _ _ hid hspared => .done ⟨hid, hspared⟩

/-- Programs that are alike ask alike, if everything that they name is spared. -/
theorem Alike.recast (hnone : ∀ r : Request, r.target? = none → T r = [r])
    (h : prog.Alike (fun v v' => v = v' ∧ v.IsSpared T) Q prog') :
    prog.Recast T Q prog' := by
  induction h with
  | done h => exact .done h
  | stop e => exact .stop e
  | log _ ih => exact .logFirst (.logSecond ih)
  | @ask r next next' hopening hlisting htarget _ ih =>
    refine .ask ?_ hopening hlisting fun x => ih (.ok x)
    cases hid : r.target? with
    | none => exact hnone r hid
    | some id => exact (htarget id hid).2 r hid
  | @resolve project iid v v' next next' hv _ ih =>
    obtain ⟨rfl, hspared⟩ := hv
    exact .ask (hspared _ rfl) rfl rfl fun x => ih (.ok x)
  | create _ _ _ ih =>
    exact .create (hnone _ rfl) fun d d' hid hspared => ih d d' fun _ _ => ⟨hid, hspared⟩

/-- What asks nothing is alike to itself, and ends so whatever it is run against. -/
theorem recast_of_silent {allowed : Request → Prop} {result : α → Prop}
    (h : prog.Asks allowed result) (hnone : ∀ r, ¬allowed r) :
    prog.Recast T (fun a a' => a = a' ∧ result a ∧ prog.Ends [] (.ok a)) prog := by
  induction h with
  | done ha => exact .done ⟨rfl, ha, rfl, rfl⟩
  | stop e => exact .stop e
  | log _ ih => exact .logFirst (.logSecond ih)
  | ask hr => exact absurd hr (hnone _)

end Program
end MergeDecoration
