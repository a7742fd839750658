import MergeDecoration.Proofs.Decoration.Mirror
import MergeDecoration.Proofs.Decoration.Order
import MergeDecoration.Proofs.Program.Success

/-!
The passes of a run that succeeds, whoever answers it. One opens discussions for issues, one ends
those whose issue is gone, one sees to the summary, and the last pushes the status.
-/
namespace MergeDecoration

open Program

attribute [local irreducible] Program.Completes

namespace Snapshot

variable {s : Snapshot} {t : List Exchange}

/-- A platform whose working copy answers by the function. -/
def stage (s : Snapshot) (changeset : Value → Int → Option String) : Platform where
  mergeRequest := fun _ => s.mergeRequest
  changeset := changeset

theorem grants_of_permitsUpkeep {changeset : Value → Int → Option String}
    (h : ∀ e ∈ t, s.PermitsUpkeep e.request ∧ ∃ x, e.answer = .ok x) :
    ∀ e ∈ t, e.Grants changeset := by
  intro e he
  obtain ⟨⟨hpermits, htarget⟩, x, hx⟩ := h e he
  obtain ⟨r, answer⟩ := e
  cases r with
  | addNote | editNote | deleteNote | resolve => exact ⟨rfl, x, hx⟩
  | _ => cases htarget

theorem ends_retireSummaries {cs : List Classified} {u : Unit} (hcs : cs ⊆ s.summaries)
    (h : (s.retireSummaries cs).Ends t (.ok u)) :
    t.map (·.request) = cs.flatMap s.retirement := by
  have hgrants : ∀ e ∈ t, e.Grants fun _ _ => none :=
    grants_of_permitsUpkeep ((s.failStop_retireSummaries hcs).granted h)
  obtain ⟨_, -, hcompletes⟩ := (s.alike_retireSummaries (R := Eq) fun _ _ => rfl).completes
    (p := s.stage fun _ _ => none) h hgrants
  exact (completes_retireSummaries.mp hcompletes).2

/-- The pass that ends discussions. -/
theorem ends_closeStale {keys : List String} {cs : List Classified} {counts : Nat × Nat}
    (h : (s.closeStale keys cs).Ends t (.ok counts)) :
    t.map (·.request) = cs.flatMap (s.staleRequests keys) ∧
      counts = (cs.countP fun c => s.isStale keys c && c.kind != .mixed,
        cs.countP fun c => s.isStale keys c && c.kind == .mixed) := by
  have hgrants : ∀ e ∈ t, e.Grants fun _ _ => none :=
    grants_of_permitsUpkeep ((s.failStop_closeStale keys cs).granted h)
  obtain ⟨_, rfl, hcompletes⟩ := (s.alike_closeStale (R := Eq) keys fun _ _ _ => rfl).completes
    (p := s.stage fun _ _ => none) h hgrants
  exact completes_closeStale.mp hcompletes

/-- What the pass that opens discussions asks is for the open issues. -/
theorem permitsIssue_of_ends {represented : List String} {n : Nat}
    (h : (s.createIssueNotes represented s.analysis.openIssues).Ends t (.ok n)) :
    ∀ e ∈ t, s.PermitsIssue e.request ∧ ∃ x, e.answer = .ok x :=
  (s.failStop_createIssueNotes represented (List.Subset.refl _)).granted h

/-- The pass that opens discussions, if the working copy answers by a function. -/
theorem ends_createIssueNotes {represented : List String} {n : Nat}
    {changeset : Value → Int → Option String}
    (hcopy : ∀ path line x, ⟨.changeset path line, .ok x⟩ ∈ t → x = changeset path line)
    (h : (s.createIssueNotes represented s.analysis.openIssues).Ends t (.ok n)) :
    (∀ i ∈ s.analysis.openIssues, s.isDue changeset represented i = true →
        ∃ body, s.analysis.issueNote i = .ok body) ∧
      t.map (·.request) = s.analysis.openIssues.flatMap (s.issueRequests changeset represented) ∧
      n = s.analysis.openIssues.countP (s.isDue changeset represented) := by
  have hgrants : ∀ e ∈ t, e.Grants changeset := by
    intro e he
    obtain ⟨⟨i, -, hi⟩, x, hx⟩ := permitsIssue_of_ends h e he
    obtain ⟨r, answer⟩ := e
    dsimp only at x hx hi
    subst hx
    rcases hi with ⟨line, -, rfl⟩ | ⟨line, body, -, -, rfl⟩
    · exact congrArg Except.ok (hcopy _ _ x he)
    · exact ⟨rfl, x, rfl⟩
  obtain ⟨_, rfl, hcompletes⟩ := (s.alike_createIssueNotes (R := Eq) represented
    s.analysis.openIssues).completes (p := s.stage changeset) h hgrants
  exact completes_createIssueNotes.mp hcompletes

/-- Which summaries are live is found out without a request. -/
theorem ends_live {live : List Classified}
    (h : (s.summaries.filterM fun c => do
      return !(← (liftM (s.isFlagged c) : Program Bool)) : Program (List Classified)).Ends t
        (.ok live)) : s.HasFlags ∧ t = [] ∧ live = s.live := by
  have hsilent : FailStop (fun _ => False) s.CanFail _ _ := s.failStop_live
  have hnil : t = [] :=
    List.eq_nil_iff_forall_not_mem.mpr fun e he => (hsilent.granted h e he).1
  subst hnil
  obtain ⟨_, ⟨rfl, -⟩, hcompletes⟩ :=
    (alike_of_silent (R := Eq) s.failStop_live.asks fun _ => id).completes
      (p := s.stage fun _ _ => none) h (List.forall_mem_nil _)
  obtain ⟨hflags, -, rfl⟩ := completes_live.mp hcompletes
  exact ⟨hflags, rfl, rfl⟩

/-- The discussion that holds the summary in the end: the one that is edited, or the one that was
opened. -/
def HoldsSummary (s : Snapshot) (t : List Exchange) (d : Value) : Prop :=
  match s.current? with
  | some c => d = c.discussion.id
  | none => ∃ e : Discussion, ⟨.createDiscussion s.mergeRequest.targetProject s.mergeRequest.iid
      (.general s.summaryBody), .ok e⟩ ∈ t ∧ d = e.id

theorem ends_writeSummary {x : Value × SummaryAction}
    (h : (s.writeSummary s.live s.summaryBody).Ends t (.ok x)) :
    t.map (·.request) = s.summaryText ∧ x.2 = s.summaryAction ∧ s.HoldsSummary t x.1 := by
  unfold writeSummary at h
  unfold summaryText summaryAction HoldsSummary current?
  split at h
  · next current hl he =>
    obtain ⟨d, us, vs, rfl, hedit, rfl, hx⟩ := ends_ok_bind h
    obtain ⟨_, us, ts, rfl, hretire, hrest⟩ := ends_ok_bind hedit
    obtain ⟨_, rest, rfl, rfl, hd⟩ := ends_ok_step_bind (r := .editNote ..) rfl hrest
    have hsub : s.live.dropLast ⊆ s.summaries :=
      ((List.dropLast_sublist _).trans List.filter_sublist).subset
    obtain rfl := Except.ok.inj hd
    rw [Except.ok.inj hx, if_pos he, hl]
    refine ⟨?_, rfl, rfl⟩
    rw [List.append_nil, List.map_append, ends_retireSummaries hsub hretire]
    rfl
  · next hnot =>
    have hnone : (if (s.config.get "summary_note_edit").holds = true then s.live.getLast?
        else none) = none := by
      split
      · next he =>
        rw [Option.eq_none_iff_forall_not_mem]
        exact fun c hc => hnot c hc he
      · rfl
    obtain ⟨d, us, vs, rfl, hcreate, rfl, hx⟩ := ends_ok_bind h
    obtain ⟨_, us, ts, rfl, hretire, hrest⟩ := ends_ok_bind hcreate
    obtain ⟨e, rest, rfl, rfl, hd⟩ := ends_ok_step_bind (r := .createDiscussion ..) rfl hrest
    obtain rfl := Except.ok.inj hd
    rw [Except.ok.inj hx, hnone, List.append_nil]
    refine ⟨?_, rfl, e, List.mem_append_right _ (List.mem_singleton_self _), rfl⟩
    rw [List.map_append, ends_retireSummaries (List.Subset.refl _) hretire]
    rfl

theorem ends_closeSummary {d : Value} {u : Unit} (h : (s.closeSummary d).Ends t (.ok u)) :
    t.map (·.request) = s.closing d := by
  unfold closeSummary at h
  unfold closing
  dsimp only at h
  split at h
  · next hpassed =>
    rw [ends_ok_step (r := .resolve ..) rfl h, if_pos hpassed]
    rfl
  · next hpassed =>
    rw [h.1, if_neg hpassed]
    rfl

/-- The pass that sees to the summary. -/
theorem ends_reconcileSummary {a : SummaryAction} (h : s.reconcileSummary.Ends t (.ok a)) :
    (∃ body, s.analysis.summaryNote = .ok body) ∧ s.HasFlags ∧ a = s.summaryAction ∧
      ∃ d, s.HoldsSummary t d ∧ t.map (·.request) = s.summaryBlock d := by
  unfold reconcileSummary at h
  obtain ⟨body, hbody, h⟩ := ends_ok_lift_bind h
  obtain ⟨live, us, vs, rfl, hlive, h⟩ := ends_ok_bind h
  obtain ⟨hflags, rfl, rfl⟩ := ends_live hlive
  obtain ⟨x, us, ts, rfl, hwrite, h⟩ := ends_ok_bind h
  obtain ⟨_, vs, rest, rfl, hclose, rfl, ha⟩ := ends_ok_bind h
  have hsummary : s.summaryBody = body := by
    rw [summaryBody, hbody]
    rfl
  rw [← hsummary] at hwrite
  obtain ⟨htext, haction, hd⟩ := ends_writeSummary hwrite
  refine ⟨⟨body, hbody⟩, hflags, (Except.ok.inj ha).trans haction, x.1, ?_, ?_⟩
  · unfold HoldsSummary at hd ⊢
    split at hd
    · exact hd
    · obtain ⟨e, he, hd⟩ := hd
      exact ⟨e, List.mem_append_right _ (List.mem_append_left _ he), hd⟩
  · rw [List.nil_append, List.append_nil, List.map_append, htext, ends_closeSummary hclose]
    rfl

theorem ends_pushStatus {u : Unit} (h : s.pushStatus.Ends t (.ok u)) :
    (∃ url, s.analysis.dashboard = .ok url) ∧ t.map (·.request) = [s.statusRequest] := by
  unfold pushStatus at h
  obtain ⟨url, hurl, h⟩ := ends_ok_lift_bind h
  refine ⟨⟨url, hurl⟩, ?_⟩
  rw [ends_ok_step (r := .pushStatus ..) rfl h, statusRequest, status, hurl]
  rfl

/-- What the passes of a run on a snapshot ask and are answered, if it ends well. -/
structure Passes (s : Snapshot) (o : Outcome) where
  opening : List Exchange
  closing : List Exchange
  summary : List Exchange
  status : List Exchange
  opens : (s.createIssueNotes s.representedKeys s.analysis.openIssues).Ends opening (.ok o.created)
  closes : (s.closeStale s.openKeys s.discussions).Ends closing (.ok (o.resolved, o.noted))
  sums : s.reconcileSummary.Ends summary (.ok o.summary)
  pushes : s.pushStatus.Ends status (.ok ())

/-- All exchanges in order. -/
def Passes.trace {o : Outcome} (passes : s.Passes o) : List Exchange :=
  (if (s.config.get "summary_note_first").holds then
    passes.summary ++ (passes.opening ++ passes.closing)
  else passes.opening ++ passes.closing ++ passes.summary) ++ passes.status

namespace Passes

variable {o : Outcome} (passes : s.Passes o)

theorem mem_trace {e : Exchange} : e ∈ passes.trace ↔
    e ∈ passes.opening ∨ e ∈ passes.closing ∨ e ∈ passes.summary ∨ e ∈ passes.status := by
  unfold trace
  split <;> simp only [List.mem_append] <;> tauto

section

variable {passes} {e : Exchange}

theorem permitsIssue (he : e ∈ passes.opening) : s.PermitsIssue e.request :=
  (permitsIssue_of_ends passes.opens e he).1

theorem exists_staleRequests (he : e ∈ passes.closing) :
    ∃ c ∈ s.discussions, e.request ∈ s.staleRequests s.openKeys c := by
  have hmem := List.mem_map_of_mem (f := (·.request)) he
  rw [(ends_closeStale passes.closes).1] at hmem
  exact List.mem_flatMap.mp hmem

theorem exists_summaryBlock (he : e ∈ passes.summary) :
    ∃ d, s.HoldsSummary passes.summary d ∧ e.request ∈ s.summaryBlock d := by
  obtain ⟨-, -, -, d, hd, hblock⟩ := ends_reconcileSummary passes.sums
  exact ⟨d, hd, hblock ▸ List.mem_map_of_mem he⟩

theorem eq_statusRequest (he : e ∈ passes.status) : e.request = s.statusRequest := by
  have hmem := List.mem_map_of_mem (f := (·.request)) he
  rw [(ends_pushStatus passes.pushes).2] at hmem
  exact List.mem_singleton.mp hmem

end

/-- The pass that ends discussions, with what comes before and after it. -/
theorem trace_around_closing : ∃ before after,
    passes.trace = before ++ passes.closing ++ after ∧ ∀ e, e ∈ before ++ after ↔
      e ∈ passes.opening ∨ e ∈ passes.summary ∨ e ∈ passes.status := by
  unfold trace
  split
  · refine ⟨passes.summary ++ passes.opening, passes.status, by simp only [List.append_assoc], ?_⟩
    intro e
    simp only [List.mem_append]
    tauto
  · refine ⟨passes.opening, passes.summary ++ passes.status, by simp only [List.append_assoc], ?_⟩
    intro e
    simp only [List.mem_append]

/-- The pass that sees to the summary, with what comes before and after it. -/
theorem trace_around_summary : ∃ before after,
    passes.trace = before ++ passes.summary ++ after ∧ ∀ e, e ∈ before ++ after ↔
      e ∈ passes.opening ∨ e ∈ passes.closing ∨ e ∈ passes.status := by
  unfold trace
  split
  · refine ⟨[], passes.opening ++ passes.closing ++ passes.status,
      by simp only [List.append_assoc, List.nil_append], ?_⟩
    intro e
    simp only [List.nil_append, List.mem_append]
    tauto
  · refine ⟨passes.opening ++ passes.closing, passes.status, rfl, ?_⟩
    intro e
    simp only [List.mem_append]
    tauto

end Passes

/-- A run on a snapshot that ends well consists of its passes. -/
theorem exists_passes {o : Outcome} (h : s.write.Ends t (.ok o)) :
    ∃ passes : s.Passes o, t = passes.trace := by
  unfold write at h
  obtain ⟨url, -, h⟩ := ends_ok_lift_bind h
  obtain ⟨⟨summary, created, resolved, noted⟩, us, vs, rfl, hreconcile, h⟩ := ends_ok_bind h
  obtain ⟨_, ss, rest, rfl, hstatus, rfl, ho⟩ := ends_ok_bind h
  obtain rfl := Except.ok.inj ho
  have hissues : ∀ {ts : List Exchange} {counts : Nat × Nat × Nat},
      s.reconcileIssues.Ends ts (.ok counts) → ∃ xs ys, ts = xs ++ ys ∧
        (s.createIssueNotes s.representedKeys s.analysis.openIssues).Ends xs (.ok counts.1) ∧
        (s.closeStale s.openKeys s.discussions).Ends ys (.ok (counts.2.1, counts.2.2)) := by
    intro ts counts h
    unfold reconcileIssues at h
    obtain ⟨created, xs, zs, rfl, hcreate, h⟩ := ends_ok_bind h
    obtain ⟨⟨resolved, noted⟩, ys, ns, rfl, hclose, rfl, hcounts⟩ := ends_ok_bind h
    rw [Except.ok.inj hcounts, List.append_nil]
    exact ⟨xs, ys, rfl, hcreate, hclose⟩
  unfold reconcile at hreconcile
  split at hreconcile
  · next hfirst =>
    obtain ⟨a, xs, ys, rfl, hsummary, h⟩ := ends_ok_bind hreconcile
    obtain ⟨counts, zs, ns, rfl, hrest, rfl, hx⟩ := ends_ok_bind h
    obtain ⟨rfl, hcounts⟩ := Prod.mk.inj (Except.ok.inj hx)
    obtain rfl := hcounts
    obtain ⟨opening, closing, rfl, hopen, hclose⟩ := hissues hrest
    refine ⟨⟨opening, closing, xs, ss, hopen, hclose, hsummary, hstatus⟩, ?_⟩
    rw [Passes.trace, if_pos hfirst, List.append_nil, List.append_nil]
  · next hfirst =>
    obtain ⟨counts, xs, ys, rfl, hrest, h⟩ := ends_ok_bind hreconcile
    obtain ⟨a, zs, ns, rfl, hsummary, rfl, hx⟩ := ends_ok_bind h
    obtain ⟨rfl, hcounts⟩ := Prod.mk.inj (Except.ok.inj hx)
    obtain rfl := hcounts
    obtain ⟨opening, closing, rfl, hopen, hclose⟩ := hissues hrest
    refine ⟨⟨opening, closing, zs, ss, hopen, hclose, hsummary, hstatus⟩, ?_⟩
    rw [Passes.trace, if_neg hfirst, List.append_nil, List.append_nil]

end Snapshot

/-- Classifying asks nothing. -/
theorem ends_classifyAll {user : Value} {project : Option String} {ds : List Discussion}
    {cs : List Classified} {t : List Exchange} (h : (classifyAll user project ds).Ends t (.ok cs)) :
    t = [] ∧ List.Forall₂ (fun d c => d.classify user project = .ok c) ds cs := by
  induction ds generalizing cs t with
  | nil =>
    obtain ⟨rfl, hcs⟩ := h
    rw [Except.ok.inj hcs]
    exact ⟨rfl, .nil⟩
  | cons d ds ih =>
    unfold classifyAll at h
    obtain ⟨c, hc, h⟩ := ends_ok_lift_bind h
    -- The log leaves no trace.
    have hlater : (classifyAll user project ds >>= fun rest =>
        (pure (c :: rest) : Program (List Classified))).Ends t (.ok cs) := h
    obtain ⟨rest, us, vs, rfl, hrest, rfl, hcs⟩ := ends_ok_bind hlater
    obtain ⟨rfl, hall⟩ := ih hrest
    rw [Except.ok.inj hcs]
    exact ⟨rfl, .cons hc hall⟩

theorem Analysis.openIssues_withServer (a : Analysis) (config : Config) :
    (a.withServer config).openIssues = a.openIssues := by
  rw [withServer]
  split <;> rfl

variable {analysis : Analysis} {project : String} {config : Config} {number : Value}

/-- A snapshot of what was read: the discussions are classified, all else is taken over. -/
structure Snapshot.Reflects (s : Snapshot) (g : Readings) (a : Analysis) (config : Config) :
    Prop where
  analysis : s.analysis = a.withServer config
  mergeRequest : s.mergeRequest = g.mergeRequest
  username : s.username = g.user.username
  commits : s.commits = g.commits
  discussions : List.Forall₂ (fun d c =>
    d.classify g.user.username (some a.projectKey) = .ok c) g.discussions s.discussions
  config : s.config = config

namespace Snapshot.Reflects

variable {s : Snapshot} {g : Readings}

theorem projectKey (h : s.Reflects g analysis config) :
    s.analysis.projectKey = analysis.projectKey := by
  rw [h.analysis, Analysis.projectKey_withServer]

theorem openIssues (h : s.Reflects g analysis config) :
    s.analysis.openIssues = analysis.openIssues := by
  rw [h.analysis, Analysis.openIssues_withServer]

/-- The discussions of a snapshot are those that were read. -/
theorem discussions_eq (h : s.Reflects g analysis config) :
    s.discussions.map (·.discussion) = g.discussions := by
  rw [← List.forall₂_eq_eq_eq, List.forall₂_map_left_iff]
  exact h.discussions.flip.imp fun c d hc => Discussion.discussion_of_classify hc

theorem classify_of_mem (h : s.Reflects g analysis config) {c : Classified}
    (hc : c ∈ s.discussions) :
    c.discussion.classify g.user.username (some analysis.projectKey) = .ok c := by
  obtain ⟨d, -, hclassify⟩ := exists_of_mem_of_forall₂ h.discussions hc
  rwa [Discussion.discussion_of_classify hclassify]

end Snapshot.Reflects

/-- A run that succeeds reads, and then come its passes. -/
theorem exists_passes_of_run {σ : Type} {b : Backend σ} {w : σ} {o : Outcome}
    (h : ((decorate analysis project config number).run b w).1 = .ok o) :
    ∃ (g : Readings) (s : Snapshot), s.Reflects g analysis config ∧ ∃ passes : s.Passes o,
      (decorate analysis project config number).trace b w =
        g.exchanges project ++ passes.trace := by
  have hends := ends_run (decorate analysis project config number) b w
  rw [h] at hends
  rcases ends_decorate hends with ⟨f, hf, -⟩ | ⟨g, rest, htrace, hwriting⟩
  · cases hf
  · obtain ⟨cs, us, vs, rfl, hclassify, hwrite⟩ := ends_ok_bind hwriting
    obtain ⟨rfl, hcs⟩ := ends_classifyAll hclassify
    obtain ⟨passes, rfl⟩ := Snapshot.exists_passes hwrite
    rw [Analysis.projectKey_withServer] at hcs
    exact ⟨g, g.snapshot analysis config cs, ⟨rfl, rfl, rfl, rfl, hcs, rfl⟩, passes, htrace⟩

end MergeDecoration
