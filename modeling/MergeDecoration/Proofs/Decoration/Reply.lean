import MergeDecoration.Proofs.Decoration.Neighbours
import MergeDecoration.Proofs.Decoration.SummaryUpdate
import MergeDecoration.Proofs.Discussion.Reply
import MergeDecoration.Proofs.Program.Recast

/-!
What a reply changes for a run. Somebody has replied below a discussion: a thread that would have
been resolved gets a note instead, a summary that would have been removed is marked as outdated, and
all else is as it would have been.
-/
namespace MergeDecoration

open Program

namespace Discussion

variable {d : Discussion} {user : Value} {project : String} {r : Request}

/-- What a run asks in the place of a request once somebody has replied to a discussion. A summary
is resolved all the same, and one that is known to be outdated is not marked again. -/
def recast (d : Discussion) (user : Value) (project : String) : Request → List Request
  | .resolve target iid id =>
    if id.same d.id && !d.isSummary user project then [.addNote target iid id staleIssueNote]
    else [.resolve target iid id]
  | .deleteNote target iid id note =>
    if id.same d.id then
      if d.isOutdated user then [] else [.addNote target iid id outdatedSummaryNote]
    else [.deleteNote target iid id note]
  | r => [r]

theorem recast_of_target?_none (h : r.target? = none) : d.recast user project r = [r] := by
  cases r with
  | resolve | deleteNote => cases h
  | _ => rfl

theorem isSpared_of_not_same {v : Value} (h : v.same d.id = false) :
    v.IsSpared (d.recast user project) := by
  intro r hr
  cases r with
  | resolve target iid id =>
    rw [recast, Option.some.inj hr, h, Bool.false_and, if_neg Bool.false_ne_true]
  | deleteNote target iid id note =>
    rw [recast, Option.some.inj hr, h, if_neg Bool.false_ne_true]
  | _ => rfl

end Discussion

namespace Classified

variable {c : Classified} {d : Discussion} {n : Note} {user : Value} {project : String}

/-- The discussion with the reply, if it is the one that was replied to. -/
def replied (d : Discussion) (n : Note) (c : Classified) : Classified :=
  if c.discussion.id.same d.id then c.answered n else c

theorem replied_of_same (h : c.discussion.id.same d.id = true) : c.replied d n = c.answered n :=
  if_pos h

theorem replied_of_not_same (h : c.discussion.id.same d.id = false) : c.replied d n = c := by
  rw [replied, h, if_neg Bool.false_ne_true]

theorem id_replied : (c.replied d n).discussion.id = c.discussion.id := by
  unfold replied
  split <;> rfl

theorem issueKey?_replied : (c.replied d n).issueKey? = c.issueKey? := by
  unfold replied
  split <;> rfl

theorem isSummary_replied : ((c.replied d n).kind == .summary) = (c.kind == .summary) := by
  unfold replied
  split
  · rw [answered]
    cases c.kind <;> rfl
  · rfl

theorem isMixed_replied (h : c.kind = .mixed) : (c.replied d n).kind = .mixed := by
  unfold replied
  split
  · rw [answered, h]
    rfl
  · exact h

theorem firstNoteId_replied (h : c.discussion.notes ≠ []) :
    Snapshot.firstNoteId (c.replied d n) = Snapshot.firstNoteId c := by
  unfold replied
  split
  · obtain ⟨first, rest, hn⟩ := List.exists_cons_of_ne_nil h
    rw [Snapshot.firstNoteId_of_notes hn,
      Snapshot.firstNoteId_of_notes (c := c.answered n) (Discussion.notes_append hn)]
  · rfl

theorem hasNote_replied (hby : n.isBy user = false) (text : String) :
    (c.replied d n).discussion.hasNote user text = c.discussion.hasNote user text := by
  unfold replied
  split
  · exact Discussion.hasLaterNote_append hby _
  · rfl

theorem isLiveIssue_of_identity (h : c.identity = none) : c.isLiveIssue project = false := by
  rw [isLiveIssue, h]
  exact Bool.and_false _

/-- A live thread is still one. -/
theorem isLiveIssue_replied (h : c.discussion.classify user (some project) = .ok c) :
    (c.replied d n).isLiveIssue project = c.isLiveIssue project := by
  unfold replied
  split
  · rcases Discussion.classify_cases h with ⟨heq, -⟩ | ⟨i, closed, heq, -, -⟩ | ⟨-, -, hnone⟩
    · rw [heq]
      rfl
    · rw [heq]
      cases c.discussion.replies.isEmpty <;> rfl
    · rw [isLiveIssue_of_identity (c := c.answered n) hnone, isLiveIssue_of_identity hnone]
  · rfl

/-- A live thread with a reply is a thread with replies. -/
theorem isMixed_of_isLiveIssue (hlive : c.isLiveIssue project = true)
    (hsame : c.discussion.id.same d.id = true) : (c.replied d n).kind = .mixed := by
  rw [isLiveIssue, Bool.and_eq_true, Bool.and_eq_true, Bool.or_eq_true, beq_iff_eq,
    beq_iff_eq] at hlive
  rw [replied_of_same hsame, answered]
  rcases hlive.1.1 with hkind | hkind
  · rw [hkind]
    rfl
  · rw [hkind]
    rfl

end Classified

/-- Outcomes that differ at most in how the discussions of issues that are gone were ended. -/
structure Outcome.Matches (o o' : Outcome) : Prop where
  url : o'.mergeRequestUrl = o.mergeRequestUrl
  created : o'.created = o.created
  ended : o'.resolved + o'.noted = o.resolved + o.noted
  summary : o'.summary = o.summary

namespace Snapshot

variable {s : Snapshot} {d : Discussion} {n : Note} {cs : List Classified} {c : Classified}

/-- A snapshot of what was there before a reply. -/
structure Precedes (s : Snapshot) (d : Discussion) (n : Note) : Prop where
  eq_of_same : ∀ c ∈ s.discussions, c.discussion.id.same d.id = true → c.discussion = d
  classify : ∀ c ∈ s.discussions,
    c.discussion.classify s.username (some s.analysis.projectKey) = .ok c
  author : n.isBy s.username = false
  system : n.system = false

/-- What a run asks in the place of a request after the reply. -/
def recast (s : Snapshot) (d : Discussion) : Request → List Request :=
  d.recast s.username s.analysis.projectKey

/-- The snapshot with the reply. -/
def replied (s : Snapshot) (d : Discussion) (n : Note) : Snapshot :=
  s.showing (s.discussions.map (·.replied d n))

theorem closeStale_replied (s : Snapshot) (d : Discussion) (n : Note) (keys : List String)
    (cs : List Classified) : (s.replied d n).closeStale keys cs = s.closeStale keys cs :=
  closeStale_showing ..

theorem summaries_replied : (s.replied d n).summaries = s.summaries.map (·.replied d n) := by
  unfold summaries
  change (s.discussions.map _).filter _ = _
  rw [List.filter_map]
  exact congrArg _ (List.filter_congr fun c _ => Classified.isSummary_replied)

namespace Precedes

/-- A summary starts with a note. -/
theorem notes_ne_nil (h : s.Precedes d n) (hc : c ∈ s.summaries) : c.discussion.notes ≠ [] := by
  obtain ⟨hmem, hkind⟩ := mem_summaries.mp hc
  exact (Discussion.startsSummary_of_kind (h.classify c hmem) (beq_iff_eq.mp hkind)).notes_ne_nil

theorem isFlagged_replied (h : s.Precedes d n) (c : Classified) :
    (s.replied d n).isFlagged (c.replied d n) = s.isFlagged c :=
  Classified.hasNote_replied h.author _

theorem representedKeys_replied (h : s.Precedes d n) :
    (s.replied d n).representedKeys = s.representedKeys := by
  unfold representedKeys
  change ((s.discussions.map _).filter _).filterMap _ = _
  rw [List.filter_map, List.filterMap_map]
  have hlive : s.discussions.filter
      ((·.isLiveIssue (s.replied d n).analysis.projectKey) ∘ (·.replied d n)) =
      s.discussions.filter (·.isLiveIssue s.analysis.projectKey) :=
    List.filter_congr fun c hc => Classified.isLiveIssue_replied (h.classify c hc)
  rw [hlive]
  exact List.filterMap_congr fun c _ => Classified.issueKey?_replied

/-- A thread that would be resolved gets a note. -/
theorem recast_resolve (h : s.Precedes d n) (hc : c ∈ s.discussions) (hkind : c.kind ≠ .summary)
    (hsame : c.discussion.id.same d.id = true) (target iid : Value) :
    s.recast d (.resolve target iid c.discussion.id) =
      [.addNote target iid c.discussion.id staleIssueNote] := by
  have hsummary : d.isSummary s.username s.analysis.projectKey = false := by
    rw [← h.eq_of_same c hc hsame, Discussion.isSummary_of_classify (h.classify c hc),
      beq_eq_false_iff_ne]
    exact hkind
  rw [recast, Discussion.recast, hsame, hsummary, Bool.not_false, Bool.and_self, if_pos rfl]

/-- Of the thread that was replied to, what is asked is recast. -/
theorem recast_closeStale (h : s.Precedes d n) (keys : List String) (hcs : cs ⊆ s.discussions) :
    (s.closeStale keys cs).Recast (s.recast d) (fun x x' => x'.1 + x'.2 = x.1 + x.2)
      (s.closeStale keys (cs.map (·.replied d n))) := by
  induction cs with
  | nil => exact recast_pure rfl
  | cons c rest ih =>
    obtain ⟨hc, hrest⟩ := List.cons_subset.mp hcs
    have htail : ∀ up up' : Nat × Nat → Nat × Nat,
        (∀ x, (up x).1 + (up x).2 = x.1 + x.2 + 1) → (∀ x, (up' x).1 + (up' x).2 = x.1 + x.2 + 1) →
        (s.closeStale keys rest >>= fun x => (pure (up x) : Program (Nat × Nat))).Recast
          (s.recast d) (fun x x' => x'.1 + x'.2 = x.1 + x.2)
          (s.closeStale keys (rest.map (·.replied d n)) >>= fun x => pure (up' x)) := by
      intro up up' hup hup'
      refine (ih hrest).bind fun x x' hx => recast_pure ?_
      rw [hup, hup', hx]
    have hnoted : ∀ x : Nat × Nat, (x.1, x.2 + 1).1 + (x.1, x.2 + 1).2 = x.1 + x.2 + 1 :=
      fun _ => rfl
    have hresolved : ∀ x : Nat × Nat, (x.1 + 1, x.2).1 + (x.1 + 1, x.2).2 = x.1 + x.2 + 1 :=
      fun x => Nat.succ_add x.1 x.2
    rw [List.map_cons, closeStale, closeStale]
    dsimp only
    rw [Classified.isLiveIssue_replied (h.classify c hc), Classified.issueKey?_replied,
      Classified.id_replied]
    split
    · exact ih hrest
    · next hstale =>
      by_cases hmixed : c.kind = .mixed
      · rw [hmixed, Classified.isMixed_replied hmixed]
        exact Recast.debug_bind ((recast_step (r := .addNote ..) _ rfl rfl rfl).bind fun _ _ _ =>
          htail _ _ hnoted hnoted)
      · rw [if_neg (mt beq_iff_eq.mp hmixed)]
        cases hsame : c.discussion.id.same d.id with
        | true =>
          -- The thread had no replies, and has one now.
          simp only [Bool.or_eq_true, Bool.not_eq_true', not_or, Bool.not_eq_false] at hstale
          rw [Classified.isMixed_of_isLiveIssue hstale.1 hsame]
          exact Recast.debug_bind ((recast_step_replace (r := .resolve ..) (u := .addNote ..) _ _
            (h.recast_resolve hc (kind_of_isLiveIssue hstale.1) hsame _ _) rfl rfl).bind
              fun _ _ _ => htail _ _ hresolved hnoted)
        | false =>
          rw [Classified.replied_of_not_same hsame, if_neg (mt beq_iff_eq.mp hmixed)]
          exact Recast.debug_bind ((recast_step (r := .resolve ..) _
            (Discussion.isSpared_of_not_same hsame _ rfl) rfl rfl).bind fun _ _ _ =>
              htail _ _ hresolved hresolved)

/-- A summary that would be removed is marked as outdated, if it is not marked yet. -/
theorem recast_deleteNote (h : s.Precedes d n) (hc : c ∈ s.discussions)
    (hsame : c.discussion.id.same d.id = true) {found : Bool} (hfound : s.isFlagged c = .ok found)
    (target iid note : Value) :
    s.recast d (.deleteNote target iid c.discussion.id note) =
      if found then [] else [.addNote target iid c.discussion.id outdatedSummaryNote] := by
  rw [isFlagged, h.eq_of_same c hc hsame] at hfound
  rw [recast, Discussion.recast, hsame, if_pos rfl, Discussion.eq_isOutdated_of_hasNote hfound]

/-- A summary is resolved whether or not somebody has replied to it. -/
theorem recast_resolve_summary (h : s.Precedes d n) (hc : c ∈ s.summaries) (target iid : Value) :
    s.recast d (.resolve target iid c.discussion.id) = [.resolve target iid c.discussion.id] := by
  obtain ⟨hmem, hkind⟩ := mem_summaries.mp hc
  cases hsame : c.discussion.id.same d.id with
  | false => exact Discussion.isSpared_of_not_same hsame _ rfl
  | true =>
    have hsummary : d.isSummary s.username s.analysis.projectKey = true := by
      rw [← h.eq_of_same c hmem hsame, Discussion.isSummary_of_classify (h.classify c hmem), hkind]
    rw [recast, Discussion.recast, hsummary, Bool.not_true, Bool.and_false,
      if_neg Bool.false_ne_true]

/-- Of the summary that was replied to, what is asked is recast. -/
theorem recast_retireSummary (h : s.Precedes d n) (hflags : s.HasFlags) (hc : c ∈ s.summaries) :
    (s.retireSummary c).Recast (s.recast d) Eq ((s.replied d n).retireSummary (c.replied d n)) := by
  have hmem : c ∈ s.discussions := (mem_summaries.mp hc).1
  cases hsame : c.discussion.id.same d.id with
  | false =>
    rw [Classified.replied_of_not_same hsame]
    exact (s.alike_retireSummary ⟨rfl, Discussion.isSpared_of_not_same hsame⟩).recast
      fun _ => Discussion.recast_of_target?_none
  | true =>
    obtain ⟨found, hfound⟩ := hflags c hc
    have hreplies : (c.replied d n).discussion.replies.isEmpty = false := by
      rw [Classified.replied_of_same hsame]
      exact Discussion.isEmpty_replies_append (h.notes_ne_nil hc) h.system
    have hlater := (h.isFlagged_replied c).trans hfound
    unfold retireSummary
    dsimp only
    rw [hreplies, if_neg Bool.false_ne_true, hlater, hfound, Classified.id_replied]
    split
    · have hdelete := fun target iid note => h.recast_deleteNote hmem hsame hfound target iid note
      cases found with
      | true => exact .logFirst (.drop (hdelete _ _ _) rfl fun _ => .done rfl)
      | false =>
        exact .logFirst (.logSecond (.replace (u := .addNote ..) (hdelete _ _ _) rfl rfl
          fun _ _ => .done rfl))
    · cases found with
      | true => exact recast_pure rfl
      | false => exact Recast.debug_bind (recast_step (r := .addNote ..) _ rfl rfl rfl)

theorem recast_retireSummaries (h : s.Precedes d n) (hflags : s.HasFlags) (hcs : cs ⊆ s.summaries) :
    (s.retireSummaries cs).Recast (s.recast d) Eq
      ((s.replied d n).retireSummaries (cs.map (·.replied d n))) := by
  induction cs with
  | nil => exact recast_pure rfl
  | cons c rest ih =>
    obtain ⟨hc, hrest⟩ := List.cons_subset.mp hcs
    exact (h.recast_retireSummary hflags hc).bind fun _ _ _ => ih hrest

theorem recast_editSummary (h : s.Precedes d n) (hflags : s.HasFlags) (hcs : cs ⊆ s.summaries)
    (hc : c ∈ s.summaries) (body : String) :
    (s.editSummary cs c body).Recast (s.recast d) (fun v v' => v = v' ∧ v = c.discussion.id)
      ((s.replied d n).editSummary (cs.map (·.replied d n)) (c.replied d n) body) := by
  unfold editSummary
  dsimp only
  rw [Classified.firstNoteId_replied (h.notes_ne_nil hc), Classified.id_replied]
  refine (h.recast_retireSummaries hflags hcs).bind fun _ _ _ => Recast.debug_bind ?_
  exact (recast_step (r := .editNote ..) _ rfl rfl rfl).bind fun _ _ _ => recast_pure ⟨rfl, rfl⟩

/-- The id of a summary that is created is one that platforms give out. -/
theorem recast_createSummary (h : s.Precedes d n) (hflags : s.HasFlags) (body : String) :
    (s.createSummary body).Recast (s.recast d) (fun v v' => v = v' ∧ v.IsSpared (s.recast d))
      ((s.replied d n).createSummary body) := by
  unfold createSummary
  dsimp only
  rw [summaries_replied]
  refine (h.recast_retireSummaries hflags (List.Subset.refl _)).bind fun _ _ _ =>
    Recast.debug_bind ?_
  exact (recast_step_create _ _ rfl).bind fun _ _ he => recast_pure he

/-- The same summary is edited, or one is created. It is resolved whether or not somebody has
replied to it. -/
theorem recast_writeSummary (h : s.Precedes d n) (hflags : s.HasFlags) {live : List Classified}
    (hlive : live ⊆ s.summaries) (body : String) :
    (s.writeSummary live body).Recast (s.recast d)
      (fun x x' => x = x' ∧ ∀ target iid,
        s.recast d (.resolve target iid x.1) = [.resolve target iid x.1])
      ((s.replied d n).writeSummary (live.map (·.replied d n)) body) := by
  have hcreate : (s.createSummary body >>= fun v =>
      (pure (v, .created) : Program (Value × SummaryAction))).Recast (s.recast d)
        (fun x x' => x = x' ∧ ∀ target iid,
          s.recast d (.resolve target iid x.1) = [.resolve target iid x.1])
        ((s.replied d n).createSummary body >>= fun v => pure (v, .created)) := by
    refine (h.recast_createSummary hflags body).bind ?_
    rintro v _ ⟨rfl, hspared⟩
    exact recast_pure ⟨rfl, fun target iid => hspared _ rfl⟩
  unfold writeSummary
  rw [List.getLast?_map, show (s.replied d n).config = s.config from rfl]
  cases hlast : live.getLast? with
  | none => exact hcreate
  | some c =>
    cases (s.config.get "summary_note_edit").holds with
    | false => exact hcreate
    | true =>
      have hc : c ∈ s.summaries := hlive (List.mem_of_getLast? hlast)
      dsimp only [Option.map_some]
      rw [← List.map_dropLast]
      refine (h.recast_editSummary hflags (fun k hk => hlive (List.dropLast_subset _ hk)) hc
        body).bind ?_
      rintro v _ ⟨rfl, rfl⟩
      exact recast_pure ⟨rfl, h.recast_resolve_summary hc⟩

theorem recast_reconcileSummary (h : s.Precedes d n) :
    s.reconcileSummary.Recast (s.recast d) Eq (s.replied d n).reconcileSummary := by
  have hflags : ∀ c,
      (do return !(← (liftM ((s.replied d n).isFlagged (c.replied d n)) : Program Bool)) :
        Program Bool) = (do return !(← (liftM (s.isFlagged c) : Program Bool))) := by
    intro c
    rw [h.isFlagged_replied]
  unfold reconcileSummary
  rw [summaries_replied, filterM_map hflags]
  refine recast_lift_bind fun body _ => ?_
  rw [bind_assoc]
  refine (recast_of_silent s.failStop_live.asks fun _ => id).bind ?_
  rintro live _ ⟨rfl, hlive, hends⟩
  rw [pure_bind]
  refine (h.recast_writeSummary (ends_live hends).1 hlive body).bind ?_
  rintro ⟨v, action⟩ _ ⟨rfl, hresolve⟩
  have hclose : (s.closeSummary v).Recast (s.recast d) Eq ((s.replied d n).closeSummary v) := by
    change (s.closeSummary v).Recast (s.recast d) Eq (s.closeSummary v)
    unfold closeSummary
    dsimp only
    split
    · exact recast_step (r := .resolve ..) _ (hresolve _ _) rfl rfl
    · exact recast_pure rfl
  exact hclose.bind fun _ _ _ => recast_pure rfl

theorem recast_reconcileIssues (h : s.Precedes d n) :
    s.reconcileIssues.Recast (s.recast d)
      (fun x x' => x'.1 = x.1 ∧ x'.2.1 + x'.2.2 = x.2.1 + x.2.2)
      (s.replied d n).reconcileIssues := by
  unfold reconcileIssues
  rw [h.representedKeys_replied]
  dsimp only
  refine Recast.bind (Q := Eq) ?_ ?_
  · rw [replied, createIssueNotes_showing]
    exact (s.alike_createIssueNotes _ _).recast fun _ => Discussion.recast_of_target?_none
  · rintro created _ rfl
    rw [closeStale_replied]
    exact (h.recast_closeStale _ (List.Subset.refl _)).bind fun x x' hx => recast_pure ⟨rfl, hx⟩

theorem recast_reconcile (h : s.Precedes d n) :
    s.reconcile.Recast (s.recast d)
      (fun x x' => x'.1 = x.1 ∧ x'.2.1 = x.2.1 ∧ x'.2.2.1 + x'.2.2.2 = x.2.2.1 + x.2.2.2)
      (s.replied d n).reconcile := by
  unfold reconcile
  rw [show (s.replied d n).config = s.config from rfl]
  split
  · refine h.recast_reconcileSummary.bind ?_
    rintro action _ rfl
    exact h.recast_reconcileIssues.bind fun _ _ hcounts => recast_pure ⟨rfl, hcounts⟩
  · refine h.recast_reconcileIssues.bind fun _ _ hcounts => ?_
    refine h.recast_reconcileSummary.bind ?_
    rintro action _ rfl
    exact recast_pure ⟨rfl, hcounts⟩

/-- What is asked for a snapshot is recast by a reply. -/
theorem recast_write (h : s.Precedes d n) :
    s.write.Recast (s.recast d) Outcome.Matches (s.replied d n).write := by
  have hstatus : s.pushStatus.Recast (s.recast d) Eq (s.replied d n).pushStatus :=
    recast_lift_bind fun _ _ => recast_step (r := .pushStatus ..) _ rfl rfl rfl
  unfold write
  refine recast_lift_bind fun url _ => h.recast_reconcile.bind ?_
  rintro ⟨action, created, resolved, noted⟩ ⟨_, _, resolved', noted'⟩ ⟨rfl, rfl, hended⟩
  exact hstatus.bind fun _ _ _ => Recast.debug_bind (recast_pure ⟨rfl, rfl, hended, rfl⟩)

end Precedes

end Snapshot

/-- What was read with the reply is classified as what was read without it. -/
theorem recast_classifyAll {T : Request → List Request} {d : Discussion} {n : Note} {user : Value}
    {project : Option String} (hby : n.isBy user = false) (hsystem : n.system = false)
    (ds : List Discussion) :
    (classifyAll user project ds).Recast T
      (fun cs cs' => cs' = cs.map (·.replied d n) ∧
        List.Forall₂ (fun e c => e.classify user project = .ok c) ds cs)
      (classifyAll user project (ds.map fun e => if e.id.same d.id then e.append n else e)) := by
  induction ds with
  | nil => exact recast_pure ⟨rfl, .nil⟩
  | cons e ds ih =>
    have hreplied : (if e.id.same d.id then e.append n else e).classify user project =
        (·.replied d n) <$> e.classify user project := by
      split
      · next hsame =>
        rw [Discussion.classify_append hby hsystem]
        cases hc : e.classify user project with
        | error f => rfl
        | ok c =>
          rw [← Discussion.discussion_of_classify hc] at hsame
          exact congrArg Except.ok (Classified.replied_of_same hsame).symm
      · next hsame =>
        cases hc : e.classify user project with
        | error f => rfl
        | ok c =>
          rw [← Discussion.discussion_of_classify hc, Bool.not_eq_true] at hsame
          exact congrArg Except.ok (Classified.replied_of_not_same hsame).symm
    rw [List.map_cons, classifyAll, classifyAll, hreplied]
    refine recast_lift_map_bind fun c hc => Recast.debug_bind (ih.bind ?_)
    rintro cs _ ⟨rfl, hcs⟩
    exact recast_pure ⟨rfl, .cons hc hcs⟩

namespace Readings

variable {g : Readings} {d : Discussion} {n : Note} {analysis : Analysis} {config : Config}

/-- What a run does once everything is read is recast by a reply. -/
theorem recast_writing
    (hids : ∀ e ∈ g.discussions, e.id.same d.id = true → e = d)
    (hby : n.isBy g.user.username = false) (hsystem : n.system = false) :
    (g.writing analysis config).Recast (d.recast g.user.username analysis.projectKey)
      Outcome.Matches
      ((g.showing (g.discussions.map fun e => if e.id.same d.id then e.append n else e)).writing
        analysis config) := by
  unfold writing
  refine (recast_classifyAll hby hsystem g.discussions).bind ?_
  rintro cs _ ⟨rfl, hcs⟩
  have hprecedes : (g.snapshot analysis config cs).Precedes d n := by
    refine ⟨fun c hc hsame => ?_, fun c hc => ?_, hby, hsystem⟩
    · obtain ⟨e, he, hclassify⟩ := exists_of_mem_of_forall₂ hcs hc
      rw [Discussion.discussion_of_classify hclassify] at hsame ⊢
      exact hids e he hsame
    · obtain ⟨e, he, hclassify⟩ := exists_of_mem_of_forall₂ hcs hc
      rwa [Discussion.discussion_of_classify hclassify]
  have hrecast : (g.snapshot analysis config cs).recast d =
      d.recast g.user.username analysis.projectKey :=
    congrArg (d.recast g.user.username) (Analysis.projectKey_withServer ..)
  rw [← hrecast]
  exact hprecedes.recast_write

end Readings

end MergeDecoration
