import MergeDecoration.Proofs.Decoration.Mirror
import MergeDecoration.Proofs.Decoration.Reading
import MergeDecoration.Proofs.Program.Rehearsal

/-!
A rehearsal is a preview of the run: it ends in the same way, and what it notes down is what the run
writes, in order.
-/
namespace MergeDecoration

open Program

/-- Exchanges that are alike are the same where nothing is written. -/
theorem reads_of_alike {R : Value → Value → Prop} {t t' : List Exchange}
    (h : List.Forall₂ (Exchange.Alike R) t t') :
    (t.map (·.request)).filter (!·.isWrite) = (t'.map (·.request)).filter (!·.isWrite) := by
  induction h with
  | nil => rfl
  | cons halike _ ih =>
    rw [List.map_cons, List.map_cons]
    cases halike with
    | same => rw [List.filter_cons, List.filter_cons, ih]
    | resolve =>
      rw [List.filter_cons_of_neg Bool.false_ne_true, List.filter_cons_of_neg Bool.false_ne_true, ih]
    | opened =>
      rw [List.filter_cons_of_neg Bool.false_ne_true, List.filter_cons_of_neg Bool.false_ne_true, ih]

/-- Exchanges that are alike write alike. -/
theorem writes_of_alike {R : Value → Value → Prop} {t t' : List Exchange}
    (h : List.Forall₂ (Exchange.Alike R) t t') :
    List.Forall₂ (Exchange.Alike R) (t.filter (·.request.isWrite))
      (t'.filter (·.request.isWrite)) := by
  refine List.rel_filter ?_ h
  intro e e' halike
  cases halike <;> rfl

/-- The id of a discussion that was shown. -/
def Listed (t : List Exchange) (v : Value) : Prop :=
  ∃ (project iid : Value) (ds : List Discussion),
    (⟨.discussions project iid, .ok ds⟩ : Exchange) ∈ t ∧ ∃ d ∈ ds, d.id = v

section

variable {σ τ : Type} {analysis : Analysis} {project : String} {config : Config} {number : Value}

/-- As long as no write fails, the conversations of a run and of its rehearsal are alike, and both
end with the same result. -/
theorem alike_rehearsal (client : Backend σ) (copy : Backend τ) (c : σ) (u : τ)
    {R : Value → Value → Prop} {t t' : List Exchange}
    (ht : t = (decorate analysis project config number).trace (client.beside copy) (c, u))
    (ht' : t' = (decorate analysis project config number).trace
      (Rehearsal.backend (client.beside copy)) ⟨(c, u), []⟩)
    (hgranted : ∀ e ∈ t, e.IsGranted) (hlisted : ∀ v, Listed t v → R v v)
    (hopened : ∀ v v', Opened t t' v v' → R v v') :
    List.Forall₂ (Exchange.Alike R) t t' ∧
      ((decorate analysis project config number).run (client.beside copy) (c, u)).1 =
        ((decorate analysis project config number).run
          (Rehearsal.backend (client.beside copy)) ⟨(c, u), []⟩).1 := by
  have hreads : (client.beside copy).ReadsAlike (Rehearsal.backend (client.beside copy))
      (fun w s => s = ⟨w, []⟩) Eq := by
    constructor
    · rintro r w _ hw - rfl
      rw [Rehearsal.answer_of_read _ _ hw]
      exact ⟨rfl, rfl⟩
    · rintro project iid w _ rfl
      rw [Rehearsal.answer_of_read _ _ rfl]
      refine ⟨?_, rfl⟩
      cases ((client.beside copy).answer (.discussions project iid) w).1 with
      | error e => exact Or.inl ⟨e, rfl, rfl⟩
      | ok ds => exact Or.inr ⟨ds, ds, rfl, rfl, rfl⟩
  rcases decorate_readsAlike hreads rfl analysis project config number with
    ⟨f, reads, v, _, rfl, ⟨hrun, htrace⟩, ⟨hrun', htrace'⟩, hnone⟩ |
    ⟨g, _, v, _, rfl, rfl, -, ⟨hrun, htrace⟩, ⟨hrun', htrace'⟩⟩
  · rw [hrun, hrun', ht, ht', htrace, htrace', trace, trace, List.append_nil]
    refine ⟨List.forall₂_same.mpr fun e he => ?_, rfl⟩
    exact .same (Request.related_of_none (Request.target?_of_not_isWrite (hnone e he)))
  · rw [htrace] at ht
    rw [htrace'] at ht'
    rw [hrun, hrun']
    have hids : ∀ d ∈ g.discussions, Listed t d.id := by
      intro d hd
      refine ⟨g.mergeRequest.targetProject, g.mergeRequest.iid, g.discussions, ?_, d, hd, rfl⟩
      rw [ht]
      exact List.mem_append_left _ (List.mem_of_getLast? rfl)
    have hwriting := g.alike_writing (R := R) analysis config fun d hd _ _ _ =>
      hlisted _ (hids d hd)
    have hfair : ∀ e ∈ (g.writing analysis config).trace (client.beside copy) v, e.IsGranted ∧
        (e.request.isWrite = false → ∃ path line, e.request = .changeset path line) := by
      intro e he
      refine ⟨hgranted e (ht ▸ List.mem_append_right _ he), fun hw => ?_⟩
      have hasked := (g.failStop_writing analysis config).allowed_of_mem
        (map_request_trace _ (client.beside copy) v ▸ List.mem_map_of_mem he)
      exact hasked.resolve_left (by rw [hw]; exact Bool.false_ne_true)
    have hnew : ∀ v₁ v₂, Opened ((g.writing analysis config).trace (client.beside copy) v)
        ((g.writing analysis config).trace (Rehearsal.backend (client.beside copy)) ⟨v, []⟩)
        v₁ v₂ → R v₁ v₂ := by
      intro v₁ v₂ hv
      apply hopened
      rw [ht, ht']
      exact hv.after_readings g g project
    have hstart : v.2 = (⟨v, []⟩ : Rehearsal (σ × τ)).inner.2 := rfl
    obtain ⟨hrest, hresult⟩ := hwriting.trace (mirrors_rehearsal client copy) hstart hfair hnew
    refine ⟨?_, hresult⟩
    rw [ht, ht']
    refine List.rel_append ?_ hrest
    exact List.forall₂_same.mpr fun e he =>
      .same (Request.related_of_none (Readings.target?_of_mem_exchanges he))

/-- As long as no write of the run fails, a rehearsal ends as the run does. Its operations are the
writes of the run, one by one and in order; only a new summary is called otherwise, and is called the
same in all of them. The backend behind gets the reads of the run and nothing else. In no rehearsal
are two discussions called the same. -/
theorem decorate_rehearsal (client : Backend σ) (copy : Backend τ) (c : σ) (u : τ)
    (hgranted : ∀ e ∈ (decorate analysis project config number).trace (client.beside copy) (c, u),
      e.IsGranted) :
    let run := decorate analysis project config number
    let b := client.beside copy
    let t := run.trace b (c, u)
    let t' := run.trace (Rehearsal.backend b) ⟨(c, u), []⟩
    let s := (run.run (Rehearsal.backend b) ⟨(c, u), []⟩).2
    (run.run (Rehearsal.backend b) ⟨(c, u), []⟩).1 = (run.run b (c, u)).1 ∧
    List.Forall₂ (Operation.Records fun v v' => v = v' ∧ Listed t v ∨ Opened t t' v v')
      (t.filter (·.request.isWrite)) s.operations ∧
    s.operations.filterMap (·.opened?) = t'.filterMap (·.opened?) ∧
    s.inner = b.after (c, u) ((run.asked b (c, u)).filter (!·.isWrite)) ∧
    ∀ (α : Type) (prog : Program α) (s : Rehearsal (σ × τ)),
      ((prog.trace (Rehearsal.backend b) s).filterMap (·.opened?)).Nodup := by
  intro run b t t' s
  obtain ⟨halike, hresult⟩ := alike_rehearsal client copy c u
    (R := fun v v' => v = v' ∧ Listed t v ∨ Opened t t' v v') (rfl : t = _) (rfl : t' = _) hgranted
    (fun v hv => Or.inl ⟨rfl, hv⟩) fun v v' hv => Or.inr hv
  obtain ⟨os, hs, hrecords, hopened⟩ :=
    run_rehearsal (b := b) (fun _ _ => rfl) run ⟨(c, u), []⟩
  change s = ⟨_, [] ++ os⟩ at hs
  rw [List.nil_append] at hs
  rw [hs]
  refine ⟨hresult.symm, ?_, hopened, ?_, fun α prog s => (nodup_opened_rehearsal b prog s).2⟩
  · exact Operation.records_of_alike hrecords (writes_of_alike halike)
  · rw [← map_request_trace, ← map_request_trace, reads_of_alike halike]

/-- A rehearsal of two new threads, a thread of an issue that is gone, and a summary that is opened
and resolved. -/
theorem decorate_rehearsal_sample :
    let p := sampleWatched.platform
    let client : Backend Platform :=
      ⟨fun r q => (.ok (q.answer r).1, (q.answer r).2), fun _ q => q⟩
    let run := decorate sampleReport "g/p" []
    let b := client.beside client
    let t := run.trace b (p, p)
    let t' := run.trace (Rehearsal.backend b) ⟨(p, p), []⟩
    let s := (run.run (Rehearsal.backend b) ⟨(p, p), []⟩).2
    s.operations.map (·.action) =
      ["create", "create", "resolve", "create", "resolve", "status"] ∧
    (run.run (Rehearsal.backend b) ⟨(p, p), []⟩).1 = (run.run b (p, p)).1 ∧
    List.Forall₂ (Operation.Records fun v v' => v = v' ∧ Listed t v ∨ Opened t t' v v')
      (t.filter (·.request.isWrite)) s.operations ∧
    s.inner = b.after (p, p) ((run.asked b (p, p)).filter (!·.isWrite)) := by
  intro p client run b t t' s
  have hgranted : ∀ e ∈ run.trace b (p, p), e.IsGranted := by
    intro e he _
    obtain ⟨v, hv⟩ := exists_answer_of_mem_trace he
    rw [← hv]
    cases e.request <;> exact ⟨_, rfl⟩
  obtain ⟨hresult, hwrites, -, hinner, -⟩ := decorate_rehearsal client client p p hgranted
  exact ⟨by decide +kernel, hresult, hwrites, hinner⟩

end
end MergeDecoration
