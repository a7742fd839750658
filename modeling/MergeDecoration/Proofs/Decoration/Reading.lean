import MergeDecoration.Proofs.Decoration.Sight
import MergeDecoration.Proofs.Program.Mirror

/-!
Two runs that read. They read the same, except that the discussions they are shown may differ, and
then go on with what they have read; or both end with the same failure.
-/
namespace MergeDecoration

theorem Request.target?_of_not_isWrite {r : Request} (h : r.isWrite = false) : r.target? = none := by
  cases r with
  | addNote | editNote | deleteNote | resolve => cases h
  | _ => rfl

namespace Program

variable {α β σ : Type} {b : Backend σ} {prog rest final : Program α} {w v u : σ}
  {t t' : List Exchange} {r : Request} {s : Step}

/-- The program gets as far as `rest` by the exchanges `t`. -/
def Reaches (b : Backend σ) (prog : Program α) (w : σ) (t : List Exchange) (rest : Program α)
    (v : σ) : Prop :=
  prog.run b w = rest.run b v ∧ prog.trace b w = t ++ rest.trace b v

theorem reaches_refl (b : Backend σ) (prog : Program α) (w : σ) : prog.Reaches b w [] prog w :=
  ⟨rfl, rfl⟩

theorem Reaches.trans (h : prog.Reaches b w t rest v) (h' : rest.Reaches b v t' final u) :
    prog.Reaches b w (t ++ t') final u := by
  refine ⟨h.1.trans h'.1, ?_⟩
  rw [h.2, h'.2, List.append_assoc]

/-- What follows a request: the program goes on with the answer or ends with the failure. -/
def resume (r : Request) (f : r.Reply → Program α) : Except Fault r.Reply → Program α
  | .ok a => f a
  | .error e => .stop (r.failure e)

theorem step_bind (hs : r.step? = some s) (f : r.Reply → Program α) :
    step s r >>= f = ask r (resume r f) := by
  refine congrArg (ask r) (funext fun x => ?_)
  cases x with
  | ok a => rfl
  | error e =>
    cases e with
    | transport m => rw [resume, Request.failure_transport hs]; rfl
    | _ => rfl

theorem reaches_step (hs : r.step? = some s) (f : r.Reply → Program α) (b : Backend σ) (w : σ) :
    (step s r >>= f).Reaches b w [⟨r, (b.answer r w).1⟩] (resume r f (b.answer r w).1)
      (b.answer r w).2 := by
  rw [step_bind hs]
  exact ⟨rfl, rfl⟩

end Program

open Program

/-- A run that has read everything only writes, except that it asks the working copy for commits. -/
theorem Readings.failStop_writing (g : Readings) (analysis : Analysis) (config : Config) :
    (g.writing analysis config).FailStop
      (fun r => r.isWrite = true ∨ ∃ path line, r = .changeset path line) (fun _ => True)
      fun _ => True := by
  refine failStop_bind ((failStop_classifyAll _ _ _).mono (fun _ h => h.elim) (fun _ _ => trivial)
    fun _ h => h) fun cs _ => ?_
  refine (Snapshot.failStop_write _).mono ?_ (fun _ _ => trivial) fun _ h => h
  intro r hr
  cases r with
  | changeset path line => exact Or.inr ⟨path, line, rfl⟩
  | mergeRequest | currentUser | commits | discussions | close => exact hr.elim
  | _ => exact Or.inl rfl

theorem Request.isListing_of_writing {r : Request}
    (h : r.isWrite = true ∨ ∃ path line, r = .changeset path line) : r.isListing = false := by
  rcases h with h | ⟨path, line, rfl⟩
  · cases r with
    | discussions => cases h
    | _ => rfl
  · rfl

theorem Readings.target?_of_mem_exchanges {g : Readings} {project : String} {e : Exchange}
    (h : e ∈ g.exchanges project) : e.request.target? = none := by
  simp only [Readings.exchanges, List.mem_cons, List.not_mem_nil, or_false] at h
  rcases h with rfl | rfl | rfl | rfl <;> rfl

/-- What is opened after everything is read. -/
theorem Opened.after_readings {t t' : List Exchange} {v v' : Value} (h : Opened t t' v v')
    (g g' : Readings) (project : String) :
    Opened (g.exchanges project ++ t) (g'.exchanges project ++ t') v v' :=
  (((h.cons _ _).cons _ _).cons _ _).cons _ _

/-- The second backend answers reads as the first one, up to the discussions that are shown. -/
structure Backend.ReadsAlike {σ τ : Type} (b : Backend σ) (b' : Backend τ) (S : σ → τ → Prop)
    (D : List Discussion → List Discussion → Prop) : Prop where
  read : ∀ r w w', r.isWrite = false → r.isListing = false → S w w' →
    (b'.answer r w').1 = (b.answer r w).1 ∧ S (b.answer r w).2 (b'.answer r w').2
  listing : ∀ project iid w w', S w w' →
    ((∃ e, (b.answer (.discussions project iid) w).1 = .error e ∧
        (b'.answer (.discussions project iid) w').1 = .error e) ∨
      ∃ ds ds', (b.answer (.discussions project iid) w).1 = .ok ds ∧
        (b'.answer (.discussions project iid) w').1 = .ok ds' ∧ D ds ds') ∧
    S (b.answer (.discussions project iid) w).2 (b'.answer (.discussions project iid) w').2

section

variable {σ τ : Type} {b : Backend σ} {b' : Backend τ} {S : σ → τ → Prop}
  {D : List Discussion → List Discussion → Prop} {w : σ} {w' : τ} {α : Type} {r : Request}
  {s : Step}

/-- Both runs go on with the same answer, or end with the same failure. -/
theorem step_readsAlike (hb : b.ReadsAlike b' S D) (hS : S w w') (hs : r.step? = some s)
    (hw : r.isWrite = false) (hl : r.isListing = false) (f : r.Reply → Program α) :
    (∃ e v v', S v v' ∧ (step s r >>= f).Reaches b w [⟨r, .error e⟩] (stop (r.failure e)) v ∧
      (step s r >>= f).Reaches b' w' [⟨r, .error e⟩] (stop (r.failure e)) v') ∨
    ∃ a v v', S v v' ∧ (b.answer r w).1 = .ok a ∧
      (step s r >>= f).Reaches b w [⟨r, .ok a⟩] (f a) v ∧
      (step s r >>= f).Reaches b' w' [⟨r, .ok a⟩] (f a) v' := by
  obtain ⟨hanswer, hnext⟩ := hb.read r w w' hw hl hS
  have hfirst := reaches_step hs f b w
  have hsecond := reaches_step hs f b' w'
  rw [hanswer] at hsecond
  cases hx : (b.answer r w).1 with
  | ok a =>
    rw [hx] at hfirst hsecond
    exact Or.inr ⟨a, _, _, hnext, rfl, hfirst, hsecond⟩
  | error e =>
    rw [hx] at hfirst hsecond
    exact Or.inl ⟨e, _, _, hnext, hfirst, hsecond⟩

/-- Both runs go on with the discussions that they are shown, or end with the same failure. -/
theorem listing_readsAlike (hb : b.ReadsAlike b' S D) (hS : S w w') (project iid : Value)
    (f : List Discussion → Program α) :
    (∃ e v v', S v v' ∧
      (step .readDiscussions (.discussions project iid) >>= f).Reaches b w
        [⟨.discussions project iid, .error e⟩] (stop ((Request.discussions project iid).failure e))
        v ∧
      (step .readDiscussions (.discussions project iid) >>= f).Reaches b' w'
        [⟨.discussions project iid, .error e⟩] (stop ((Request.discussions project iid).failure e))
        v') ∨
    ∃ ds ds' v v', S v v' ∧ D ds ds' ∧
      (step .readDiscussions (.discussions project iid) >>= f).Reaches b w
        [⟨.discussions project iid, .ok ds⟩] (f ds) v ∧
      (step .readDiscussions (.discussions project iid) >>= f).Reaches b' w'
        [⟨.discussions project iid, .ok ds'⟩] (f ds') v' := by
  obtain ⟨hlisting, hnext⟩ := hb.listing project iid w w' hS
  have hfirst := reaches_step rfl (r := .discussions project iid) f b w
  have hsecond := reaches_step rfl (r := .discussions project iid) f b' w'
  rcases hlisting with ⟨e, he, he'⟩ | ⟨ds, ds', hds, hds', hD⟩
  · rw [he] at hfirst
    rw [he'] at hsecond
    exact Or.inl ⟨e, _, _, hnext, hfirst, hsecond⟩
  · rw [hds] at hfirst
    rw [hds'] at hsecond
    exact Or.inr ⟨ds, ds', _, _, hnext, hD, hfirst, hsecond⟩

/-- Both runs end while they read, in the same way and having written nothing, or both have read
everything. -/
theorem decorate_readsAlike (hb : b.ReadsAlike b' S D) (hS : S w w')
    (analysis : Analysis) (project : String) (config : Config) (number : Value) :
    let run := decorate analysis project config number
    (∃ f t v v', S v v' ∧ run.Reaches b w t (stop f) v ∧ run.Reaches b' w' t (stop f) v' ∧
      ∀ e ∈ t, e.request.isWrite = false) ∨
    ∃ (g : Readings) (ds : List Discussion) (v : σ) (v' : τ), S v v' ∧ D g.discussions ds ∧
      (∃ u u', S u u' ∧ (b.answer .currentUser u).1 = .ok g.user) ∧
      run.Reaches b w (g.exchanges project) (g.writing analysis config) v ∧
      run.Reaches b' w' ((g.showing ds).exchanges project)
        ((g.showing ds).writing analysis config) v' := by
  unfold decorate
  dsimp only
  cases readNumber (if number.isNull then .text analysis.pullRequestId else number) with
  | error e => exact Or.inl ⟨e, [], w, w', hS, reaches_refl .., reaches_refl .., by simp⟩
  | ok iid =>
    rcases step_readsAlike hb hS rfl rfl rfl (r := .mergeRequest project (.int iid)) _ with
      ⟨e, v, v', hv, h, h'⟩ | ⟨m, w₁, w₁', hS₁, -, hm, hm'⟩
    · exact Or.inl ⟨_, _, v, v', hv, h, h', by simp [Request.isWrite]⟩
    rcases step_readsAlike hb hS₁ rfl rfl rfl (r := .currentUser) _ with
      ⟨e, v, v', hv, h, h'⟩ | ⟨user, w₂, w₂', hS₂, huser, hu, hu'⟩
    · exact Or.inl ⟨_, _, v, v', hv, hm.trans h, hm'.trans h', by simp [Request.isWrite]⟩
    replace hu := hm.trans hu
    replace hu' := hm'.trans hu'
    rcases step_readsAlike hb hS₂ rfl rfl rfl (r := .commits m.targetProject m.iid) _ with
      ⟨e, v, v', hv, h, h'⟩ | ⟨commits, w₃, w₃', hS₃, -, hc, hc'⟩
    · exact Or.inl ⟨_, _, v, v', hv, hu.trans h, hu'.trans h', by simp [Request.isWrite]⟩
    replace hc := hu.trans hc
    replace hc' := hu'.trans hc'
    cases hcheck : checkCommits commits with
    | error e =>
      rw [hcheck] at hc hc'
      exact Or.inl ⟨e, _, w₃, w₃', hS₃, hc, hc', by simp [Request.isWrite]⟩
    | ok _ =>
      rw [hcheck] at hc hc'
      rcases listing_readsAlike hb hS₃ m.targetProject m.iid _ with
        ⟨e, v, v', hv, h, h'⟩ | ⟨ds, ds', v, v', hS₄, hD, hd, hd'⟩
      · exact Or.inl ⟨_, _, v, v', hv, hc.trans h, hc'.trans h', by simp [Request.isWrite]⟩
      · exact Or.inr ⟨⟨iid, m, user, commits, ds⟩, ds', v, v', hS₄, hD, ⟨_, _, hS₁, huser⟩,
          hc.trans hd, hc'.trans hd'⟩

end
end MergeDecoration
