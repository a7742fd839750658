import MergeDecoration.Proofs.Decoration.Failure
import MergeDecoration.Proofs.Program.Mirror

/-!
A run whose new discussions are called otherwise. It asks the same all the same: what it does depends
on no id that it is given for a discussion that it opens.
-/
namespace MergeDecoration

open Program

namespace Snapshot

variable {R : Value → Value → Prop} (s : Snapshot)

theorem alike_createIssueNote (i : Issue) (path : Value) (line : Int) :
    (s.createIssueNote i path line).Alike R Eq (s.createIssueNote i path line) := by
  unfold createIssueNote
  refine (alike_call (r := .changeset path line) rfl rfl (Request.related_of_none rfl)).bind ?_
  rintro revision _ rfl
  cases revision with
  | none =>
    dsimp only
    exact Alike.debug_bind (alike_pure rfl)
  | some revision =>
    dsimp only
    split
    · exact Alike.debug_bind (alike_pure rfl)
    · refine alike_lift_bind fun body _ => ?_
      exact (alike_step_create _ _).bind fun _ _ _ => alike_pure rfl

theorem alike_createIssueNotes (represented : List String) (issues : List Issue) :
    (s.createIssueNotes represented issues).Alike R Eq
      (s.createIssueNotes represented issues) := by
  induction issues with
  | nil => exact alike_pure rfl
  | cons i rest ih =>
    have htail : ∀ created : Bool, (s.createIssueNotes represented rest >>= fun n =>
        (pure (n + cond created 1 0) : Program Nat)).Alike R Eq
        (s.createIssueNotes represented rest >>= fun n => pure (n + cond created 1 0)) := by
      intro created
      refine ih.bind ?_
      rintro n _ rfl
      exact alike_pure rfl
    rw [createIssueNotes]
    split
    · exact Alike.debug_bind (htail false)
    · split
      · exact Alike.debug_bind (htail false)
      · refine (s.alike_createIssueNote i _ _).bind ?_
        rintro created _ rfl
        exact htail created

theorem alike_closeStale (keys : List String) {cs : List Classified}
    (hcs : ∀ c ∈ cs, c.isLiveIssue s.analysis.projectKey = true →
      R c.discussion.id c.discussion.id) :
    (s.closeStale keys cs).Alike R Eq (s.closeStale keys cs) := by
  induction cs with
  | nil => exact alike_pure rfl
  | cons c rest ih =>
    obtain ⟨hc, hrest⟩ := List.forall_mem_cons.mp hcs
    have htail : ∀ up : Nat × Nat → Nat × Nat, (s.closeStale keys rest >>= fun n =>
        (pure (up n) : Program (Nat × Nat))).Alike R Eq
        (s.closeStale keys rest >>= fun n => pure (up n)) := by
      intro up
      refine (ih hrest).bind ?_
      rintro n _ rfl
      exact alike_pure rfl
    rw [closeStale]
    dsimp only
    split
    · exact ih hrest
    · next hstale =>
      have hid : R c.discussion.id c.discussion.id := by
        apply hc
        simp only [Bool.or_eq_true, Bool.not_eq_true', not_or, Bool.not_eq_false] at hstale
        exact hstale.1
      split
      · refine Alike.debug_bind ((alike_step (r := .addNote ..) _ rfl rfl
          (Request.related_of_some rfl hid)).bind fun _ _ _ => ?_)
        exact htail fun n => (n.1, n.2 + 1)
      · refine Alike.debug_bind ((alike_step (r := .resolve ..) _ rfl rfl
          (Request.related_of_some rfl hid)).bind fun _ _ _ => ?_)
        exact htail fun n => (n.1 + 1, n.2)

theorem alike_retireSummary {c : Classified} (hid : R c.discussion.id c.discussion.id) :
    (s.retireSummary c).Alike R Eq (s.retireSummary c) := by
  unfold retireSummary
  dsimp only
  split
  · exact Alike.debug_bind (alike_step (r := .deleteNote ..) _ rfl rfl
      (Request.related_of_some rfl hid))
  · refine alike_lift_bind fun flagged _ => ?_
    split
    · exact alike_pure rfl
    · exact Alike.debug_bind (alike_step (r := .addNote ..) _ rfl rfl
        (Request.related_of_some rfl hid))

theorem alike_retireSummaries {cs : List Classified}
    (hcs : ∀ c ∈ cs, R c.discussion.id c.discussion.id) :
    (s.retireSummaries cs).Alike R Eq (s.retireSummaries cs) := by
  induction cs with
  | nil => exact alike_pure rfl
  | cons c rest ih =>
    obtain ⟨hc, hrest⟩ := List.forall_mem_cons.mp hcs
    exact (s.alike_retireSummary hc).bind fun _ _ _ => ih hrest

/-- The discussion that holds the summary in the end is an old one, or one that was opened. -/
theorem alike_writeSummary {live : List Classified} (hlive : live ⊆ s.summaries) (body : String)
    (hs : ∀ c ∈ s.summaries, R c.discussion.id c.discussion.id) :
    (s.writeSummary live body).Alike R (fun x x' => R x.1 x'.1 ∧ x.2 = x'.2)
      (s.writeSummary live body) := by
  unfold writeSummary
  split
  · next current hcurrent _ =>
    have hid := hs current (hlive (List.mem_of_getLast? hcurrent))
    have hedit : (s.editSummary live.dropLast current body).Alike R (fun d d' => R d d')
        (s.editSummary live.dropLast current body) := by
      unfold editSummary
      refine (s.alike_retireSummaries fun c hc => hs c (hlive (List.dropLast_subset _ hc))).bind
        fun _ _ _ => ?_
      refine Alike.debug_bind ((alike_step (r := .editNote ..) _ rfl rfl
        (Request.related_of_some rfl hid)).bind fun _ _ _ => ?_)
      exact alike_pure hid
    exact hedit.bind fun _ _ hd => alike_pure ⟨hd, rfl⟩
  · have hcreate : (s.createSummary body).Alike R (fun d d' => R d d') (s.createSummary body) := by
      unfold createSummary
      refine (s.alike_retireSummaries hs).bind fun _ _ _ => ?_
      exact Alike.debug_bind ((alike_step_create _ _).bind fun _ _ hd => alike_pure (hd body rfl))
    exact hcreate.bind fun _ _ hd => alike_pure ⟨hd, rfl⟩

theorem alike_closeSummary {d d' : Value} (hd : R d d') :
    (s.closeSummary d).Alike R Eq (s.closeSummary d') := by
  unfold closeSummary
  dsimp only
  split
  · exact alike_step_resolve _ hd
  · exact alike_pure rfl

theorem alike_reconcileSummary (hs : ∀ c ∈ s.summaries, R c.discussion.id c.discussion.id) :
    s.reconcileSummary.Alike R Eq s.reconcileSummary := by
  unfold reconcileSummary
  refine alike_lift_bind fun body _ => ?_
  refine (alike_of_silent s.failStop_live.asks fun _ => id).bind ?_
  rintro live _ ⟨rfl, hlive⟩
  refine (s.alike_writeSummary hlive body hs).bind ?_
  rintro ⟨d, action⟩ ⟨d', _⟩ ⟨hd, rfl⟩
  exact (s.alike_closeSummary hd).bind fun _ _ _ => alike_pure rfl

/-- A run on a snapshot asks alike whatever its new discussions are called. -/
theorem alike_write (hs : ∀ c ∈ s.discussions, ¬c.IsIdle s.analysis.projectKey →
    R c.discussion.id c.discussion.id) : s.write.Alike R Eq s.write := by
  have hsummaries : ∀ c ∈ s.summaries, R c.discussion.id c.discussion.id := by
    intro c hc
    obtain ⟨hmem, hkind⟩ := mem_summaries.mp hc
    exact hs c hmem fun hidle => hidle.1 (beq_iff_eq.mp hkind)
  have hissues : s.reconcileIssues.Alike R Eq s.reconcileIssues := by
    unfold reconcileIssues
    refine (s.alike_createIssueNotes _ _).bind ?_
    rintro created _ rfl
    refine (s.alike_closeStale _ fun c hc hlive => hs c hc fun hidle => ?_).bind ?_
    · exact Bool.noConfusion (hlive.symm.trans hidle.2)
    · rintro ⟨resolved, noted⟩ _ rfl
      exact alike_pure rfl
  have hreconcile : s.reconcile.Alike R Eq s.reconcile := by
    unfold reconcile
    split
    · refine (s.alike_reconcileSummary hsummaries).bind ?_
      rintro action _ rfl
      refine hissues.bind ?_
      rintro counts _ rfl
      exact alike_pure rfl
    · refine hissues.bind ?_
      rintro counts _ rfl
      refine (s.alike_reconcileSummary hsummaries).bind ?_
      rintro action _ rfl
      exact alike_pure rfl
  unfold write
  refine alike_lift_bind fun url _ => hreconcile.bind ?_
  rintro ⟨action, created, resolved, noted⟩ _ rfl
  have hstatus : s.pushStatus.Alike R Eq s.pushStatus :=
    alike_lift_bind fun _ _ => alike_step (r := .pushStatus ..) _ rfl rfl
      (Request.related_of_none rfl)
  exact hstatus.bind fun _ _ _ => Alike.debug_bind (alike_pure rfl)

end Snapshot

namespace Readings

variable {R : Value → Value → Prop}

/-- What a run does once everything is read does not depend on how new discussions are called; of
the old ones it names only its own. -/
theorem alike_writing (g : Readings) (analysis : Analysis) (config : Config)
    (hg : ∀ d ∈ g.discussions, ∀ c,
      d.classify g.user.username (some (analysis.withServer config).projectKey) = .ok c →
      ¬c.IsIdle (analysis.withServer config).projectKey → R d.id d.id) :
    (g.writing analysis config).Alike R Eq (g.writing analysis config) := by
  unfold writing
  refine (alike_of_silent (asks_classifyAll _ _ _) fun _ => id).bind ?_
  rintro cs _ ⟨rfl, hcs⟩
  apply Snapshot.alike_write
  intro c hc hidle
  obtain ⟨d, hd, hclassify⟩ := hcs c hc
  rw [Discussion.discussion_of_classify hclassify]
  exact hg d hd c hclassify hidle

end Readings
end MergeDecoration
