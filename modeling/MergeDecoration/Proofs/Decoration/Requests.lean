import MergeDecoration.Decoration
import MergeDecoration.Proofs.Platform.Effect
import MergeDecoration.Proofs.Program.FailStop

/-!
What a run may ask. It stops at the first failure, whichever request it is, and rewrites no note but
the first one of a discussion that it took for a summary.
-/
namespace MergeDecoration

open Program

namespace Issue

/-- The request for the commit of the issue's line. -/
def LooksUp (i : Issue) (r : Request) : Prop :=
  ∃ line, i.line = some line ∧ r = .changeset i.path line

/-- The request for a discussion on the issue's line, with the note of the issue. -/
def Opens (i : Issue) (analysis : Analysis) (m : MergeRequest) (r : Request) : Prop :=
  ∃ line body, i.line = some line ∧ analysis.issueNote i = .ok body ∧
    r = .createDiscussion m.targetProject m.iid (.line {
      body
      baseSha := m.baseSha
      startSha := m.startSha
      headSha := m.headSha
      oldPath := i.path
      newPath := i.path
      newLine := .int line })

theorem eq_of_anchor? {i : Issue} {path : Value} {line : Int} (h : i.anchor? = some (path, line)) :
    i.path = path ∧ i.line = some line := by
  unfold anchor? at h
  split at h
  · next n hline =>
    split at h
    · obtain ⟨rfl, rfl⟩ := Prod.mk.inj (Option.some.inj h)
      exact ⟨rfl, hline⟩
    · cases h
  · cases h

end Issue

namespace Snapshot

/-- What a run on a snapshot may ask: no reads, and rewrites of first notes of summaries only. -/
def Permits (s : Snapshot) : Request → Prop
  | .editNote _ _ d note _ | .deleteNote _ _ d note =>
    ∃ c ∈ s.summaries, d = c.discussion.id ∧ note = firstNoteId c
  | .createDiscussion .. | .addNote .. | .resolve .. | .pushStatus .. | .changeset .. => True
  | .mergeRequest .. | .currentUser | .commits .. | .discussions .. | .close => False

/-- What may be asked for issues. -/
def PermitsIssue (s : Snapshot) (r : Request) : Prop :=
  ∃ i ∈ s.analysis.openIssues, i.LooksUp r ∨ i.Opens s.analysis s.mergeRequest r

/-- What may be asked for discussions that are there already. -/
def PermitsUpkeep (s : Snapshot) (r : Request) : Prop := s.Permits r ∧ r.target?.isSome = true

/-- The notes that a run on a snapshot may rewrite. -/
def Allows (s : Snapshot) (r : Request) : Prop :=
  ∀ note, r.note? = some note → ∃ c ∈ s.summaries, note = firstNoteId c

/-- What can stop a run on a snapshot although no request fails: something cannot be written, or it
cannot be told whether a summary is flagged. -/
inductive CanFail (s : Snapshot) : Fault → Prop
  | url {f : Fault} (h : s.mergeRequestUrl = .error f) : CanFail s f
  | issue {i : Issue} {f : Fault} (hi : i ∈ s.analysis.openIssues)
    (h : s.analysis.issueNote i = .error f) : CanFail s f
  | summary {f : Fault} (h : s.analysis.summaryNote = .error f) : CanFail s f
  | flag {c : Classified} {f : Fault} (hc : c ∈ s.summaries) (h : s.isFlagged c = .error f) :
    CanFail s f
  | dashboard {f : Fault} (h : s.analysis.dashboard = .error f) : CanFail s f

variable (s : Snapshot)

theorem allows_of_permits {r : Request} (h : s.Permits r) : s.Allows r := by
  intro note hnote
  cases r with
  | editNote _ _ d n | deleteNote _ _ d n =>
    obtain ⟨c, hc, -, rfl⟩ := h
    exact ⟨c, hc, (Option.some.inj hnote).symm⟩
  | _ => cases hnote

theorem permits_of_permitsIssue {r : Request} (h : s.PermitsIssue r) : s.Permits r := by
  obtain ⟨i, -, ⟨line, -, rfl⟩ | ⟨line, body, -, -, rfl⟩⟩ := h <;> exact trivial

theorem failStop_createIssueNote {i : Issue} (hi : i ∈ s.analysis.openIssues) {path : Value}
    {line : Int} (hanchor : i.anchor? = some (path, line)) :
    (s.createIssueNote i path line).FailStop s.PermitsIssue s.CanFail fun _ => True := by
  obtain ⟨rfl, hline⟩ := Issue.eq_of_anchor? hanchor
  have hlookup : s.PermitsIssue (.changeset i.path line) := ⟨i, hi, Or.inl ⟨line, hline, rfl⟩⟩
  unfold createIssueNote
  apply failStop_bind (failStop_call (r := .changeset i.path line) hlookup rfl)
  intro revision _
  cases revision with
  | none => exact failStop_debug_bind (failStop_pure trivial)
  | some revision =>
    dsimp only
    split
    · exact failStop_debug_bind (failStop_pure trivial)
    · apply failStop_lift_bind fun _ hf => .issue hi hf
      intro body hbody
      exact failStop_bind_pure (failStop_step (r := .createDiscussion ..)
        ⟨i, hi, Or.inr ⟨line, body, hline, hbody, rfl⟩⟩ rfl)

theorem failStop_createIssueNotes (represented : List String) {issues : List Issue}
    (hissues : issues ⊆ s.analysis.openIssues) :
    (s.createIssueNotes represented issues).FailStop s.PermitsIssue s.CanFail fun _ => True := by
  induction issues with
  | nil => exact failStop_pure trivial
  | cons i rest ih =>
    obtain ⟨hi, hrest⟩ := List.cons_subset.mp hissues
    have htail : ∀ created : Bool, (s.createIssueNotes represented rest >>= fun m =>
        (pure (m + cond created 1 0) : Program Nat)).FailStop s.PermitsIssue s.CanFail
          fun _ => True := fun _ => failStop_bind_pure (ih hrest)
    rw [createIssueNotes]
    split
    · exact failStop_debug_bind (htail false)
    · next hanchor =>
      split
      · exact failStop_debug_bind (htail false)
      · exact failStop_bind (s.failStop_createIssueNote hi hanchor) fun created _ => htail created

theorem failStop_closeStale (liveKeys : List String) (cs : List Classified) :
    (s.closeStale liveKeys cs).FailStop s.PermitsUpkeep s.CanFail fun _ => True := by
  induction cs with
  | nil => exact failStop_pure trivial
  | cons c rest ih =>
    rw [closeStale]
    dsimp only
    split
    · exact ih
    · split
      · apply failStop_debug_bind
        exact failStop_bind (failStop_step (r := .addNote ..) ⟨trivial, rfl⟩ rfl) fun _ _ =>
          failStop_bind_pure ih
      · apply failStop_debug_bind
        exact failStop_bind (failStop_step (r := .resolve ..) ⟨trivial, rfl⟩ rfl) fun _ _ =>
          failStop_bind_pure ih

theorem failStop_isFlagged {allowed : Request → Prop} {c : Classified} (hc : c ∈ s.summaries) :
    (liftM (s.isFlagged c) : Program Bool).FailStop allowed s.CanFail fun _ => True :=
  failStop_lift (fun _ hf => .flag hc hf) fun _ _ => trivial

theorem failStop_retireSummary {c : Classified} (hc : c ∈ s.summaries) :
    (s.retireSummary c).FailStop s.PermitsUpkeep s.CanFail fun _ => True := by
  unfold retireSummary
  dsimp only
  split
  · exact failStop_debug_bind (failStop_step (r := .deleteNote ..) ⟨⟨c, hc, rfl, rfl⟩, rfl⟩ rfl)
  · apply failStop_bind (s.failStop_isFlagged hc)
    intro flagged _
    split
    · exact failStop_pure trivial
    · exact failStop_debug_bind (failStop_step (r := .addNote ..) ⟨trivial, rfl⟩ rfl)

theorem failStop_retireSummaries {cs : List Classified} (hcs : cs ⊆ s.summaries) :
    (s.retireSummaries cs).FailStop s.PermitsUpkeep s.CanFail fun _ => True := by
  induction cs with
  | nil => exact failStop_pure trivial
  | cons c rest ih =>
    obtain ⟨hc, hrest⟩ := List.cons_subset.mp hcs
    exact failStop_bind (s.failStop_retireSummary hc) fun _ _ => ih hrest

theorem failStop_writeSummary {live : List Classified} (hlive : live ⊆ s.summaries)
    (body : String) :
    (s.writeSummary live body).FailStop s.Permits s.CanFail fun _ => True := by
  have hretire : ∀ {cs : List Classified}, cs ⊆ s.summaries →
      (s.retireSummaries cs).FailStop s.Permits s.CanFail fun _ => True := fun hcs =>
    (s.failStop_retireSummaries hcs).mono (fun _ h => h.1) (fun _ h => h) fun _ h => h
  unfold writeSummary
  split
  · next current hcurrent _ =>
    have hmem : current ∈ s.summaries := hlive (List.mem_of_getLast? hcurrent)
    have holder : live.dropLast ⊆ s.summaries := fun c hc => hlive (List.dropLast_subset _ hc)
    apply failStop_bind_pure
    apply failStop_bind (hretire holder)
    intro _ _
    apply failStop_debug_bind
    exact failStop_bind_pure (failStop_step (r := .editNote ..) ⟨current, hmem, rfl, rfl⟩ rfl)
  · apply failStop_bind_pure
    apply failStop_bind (hretire (List.Subset.refl _))
    intro _ _
    apply failStop_debug_bind
    exact failStop_bind_pure (failStop_step (r := .createDiscussion ..) trivial rfl)

theorem failStop_filterM {allowed : Request → Prop} {faults : Fault → Prop}
    {cs : List Classified} {q : Classified → Program Bool}
    (hq : ∀ c ∈ cs, (q c).FailStop allowed faults fun _ => True) :
    (cs.filterM q).FailStop allowed faults fun found => found ⊆ cs := by
  have haux : ∀ found, (cs.filterAuxM q found).FailStop allowed faults
      fun all => all ⊆ found ++ cs := by
    induction cs with
    | nil =>
      intro found
      exact failStop_pure (List.subset_append_left ..)
    | cons c rest ih =>
      intro found
      obtain ⟨hc, hrest⟩ := List.forall_mem_cons.mp hq
      refine failStop_bind hc fun keep _ => ?_
      refine (ih hrest _).mono (fun _ h => h) (fun _ h => h) ?_
      intro all hall k hk
      rcases List.mem_append.mp (hall hk) with hmem | hmem
      · cases keep with
        | true =>
          rcases List.mem_cons.mp hmem with rfl | hmem
          · exact List.mem_append_right _ (List.mem_cons_self ..)
          · exact List.mem_append_left _ hmem
        | false => exact List.mem_append_left _ hmem
      · exact List.mem_append_right _ (List.mem_cons_of_mem c hmem)
  refine failStop_bind (haux []) fun all hall => failStop_pure ?_
  intro k hk
  exact hall (List.mem_reverse.mp hk)

/-- Which summaries are not flagged is found out without a request. -/
theorem failStop_live {allowed : Request → Prop} :
    (s.summaries.filterM fun c => do
      return !(← (liftM (s.isFlagged c) : Program Bool)) : Program (List Classified)).FailStop
        allowed s.CanFail fun live => live ⊆ s.summaries :=
  failStop_filterM fun _ hc => failStop_bind_pure (s.failStop_isFlagged hc)

theorem failStop_reconcileSummary :
    s.reconcileSummary.FailStop s.Permits s.CanFail fun _ => True := by
  unfold reconcileSummary
  apply failStop_lift_bind fun _ hf => .summary hf
  intro body _
  apply failStop_bind s.failStop_live
  intro live hlive
  apply failStop_bind (s.failStop_writeSummary hlive body)
  intro x _
  apply failStop_bind_pure
  unfold closeSummary
  dsimp only
  split
  · exact failStop_step (r := .resolve ..) trivial rfl
  · exact failStop_pure trivial

theorem failStop_reconcileIssues :
    s.reconcileIssues.FailStop s.Permits s.CanFail fun _ => True := by
  have hcreate := s.failStop_createIssueNotes s.representedKeys (List.Subset.refl _)
  have hclose := s.failStop_closeStale (s.analysis.openIssues.map (·.key)) s.discussions
  refine failStop_bind (hcreate.mono (fun _ => s.permits_of_permitsIssue) (fun _ h => h)
    fun _ h => h) fun _ _ => ?_
  exact failStop_bind_pure (hclose.mono (fun _ h => h.1) (fun _ h => h) fun _ h => h)

theorem failStop_reconcile : s.reconcile.FailStop s.Permits s.CanFail fun _ => True := by
  unfold reconcile
  split
  · exact failStop_bind s.failStop_reconcileSummary fun _ _ =>
      failStop_bind_pure s.failStop_reconcileIssues
  · exact failStop_bind s.failStop_reconcileIssues fun _ _ =>
      failStop_bind_pure s.failStop_reconcileSummary

theorem failStop_pushStatus : s.pushStatus.FailStop s.Permits s.CanFail fun _ => True := by
  apply failStop_lift_bind fun _ hf => .dashboard hf
  intro url _
  exact failStop_step (r := .pushStatus ..) trivial rfl

/-- A run on a snapshot stops at the first failure, and rewrites first notes of summaries only. -/
theorem failStop_write : s.write.FailStop s.Permits s.CanFail fun _ => True := by
  apply failStop_lift_bind fun _ hf => .url hf
  intro url _
  apply failStop_bind s.failStop_reconcile
  rintro ⟨summary, created, resolved, noted⟩ _
  apply failStop_bind s.failStop_pushStatus
  intro _ _
  exact failStop_debug_bind (failStop_pure trivial)

theorem asks_write : s.write.Asks s.Allows fun _ => True :=
  s.failStop_write.asks.mono (fun _ => s.allows_of_permits) fun _ h => h

end Snapshot

/-- Classifying asks nothing, and fails only where a discussion cannot be classified. -/
theorem failStop_classifyAll (username : Value) (project : Option String) (ds : List Discussion) :
    (classifyAll username project ds).FailStop (fun _ => False)
      (fun f => ∃ d ∈ ds, d.classify username project = .error f)
      fun cs => ∀ c ∈ cs, ∃ d ∈ ds, d.classify username project = .ok c := by
  induction ds with
  | nil => exact failStop_pure nofun
  | cons d ds ih =>
    apply failStop_lift_bind fun _ hf => ⟨d, List.mem_cons_self .., hf⟩
    intro c hc
    apply failStop_debug_bind
    refine failStop_bind (ih.mono (fun _ h => h) ?_ fun _ h => h) ?_
    · rintro f ⟨e, he, hf⟩
      exact ⟨e, List.mem_cons_of_mem d he, hf⟩
    · intro cs hcs
      apply failStop_pure
      intro k hk
      rcases List.mem_cons.mp hk with rfl | hk
      · exact ⟨d, List.mem_cons_self .., hc⟩
      · obtain ⟨e, he, hclassify⟩ := hcs k hk
        exact ⟨e, List.mem_cons_of_mem d he, hclassify⟩

theorem asks_classifyAll (username : Value) (project : Option String) (ds : List Discussion) :
    (classifyAll username project ds).Asks (fun _ => False) fun cs =>
      ∀ c ∈ cs, ∃ d ∈ ds, d.classify username project = .ok c :=
  (failStop_classifyAll username project ds).asks

/-- What a run does before it writes: it reads everything, and classifies the discussions. -/
def survey (analysis : Analysis) (project : String) (config : Config) (number : Value) :
    Program Snapshot := do
  let iid ← readNumber (if number.isNull then .text analysis.pullRequestId else number)
  let mergeRequest ← step .readMergeRequest (.mergeRequest project (.int iid))
  let user ← step .readUser .currentUser
  let target := MergeRequest.targetProject mergeRequest
  let commits ← step .readCommits (.commits target (MergeRequest.iid mergeRequest))
  checkCommits commits
  let raw ← step .readDiscussions (.discussions target (MergeRequest.iid mergeRequest))
  let analysis := analysis.withServer config
  let username := User.username user
  let discussions ← classifyAll username (some analysis.projectKey) raw
  return { analysis, mergeRequest, username, commits, discussions, config }

section

variable (analysis : Analysis) (project : String) (config : Config) (number : Value)

theorem decorate_eq : decorate analysis project config number =
    survey analysis project config number >>= Snapshot.write := by
  simp only [decorate, survey, bind_assoc, pure_bind]

/-- A survey writes nothing. -/
theorem failStop_survey : (survey analysis project config number).FailStop
    (fun r => r.isWrite = false ∧ r ≠ .close) (fun _ => True) fun _ => True := by
  unfold survey
  refine failStop_lift_bind (x := readNumber _) (fun _ _ => trivial) fun iid _ => ?_
  refine failStop_bind (failStop_step (r := .mergeRequest ..) ⟨rfl, nofun⟩ rfl) fun _ _ => ?_
  refine failStop_bind (failStop_step (r := .currentUser) ⟨rfl, nofun⟩ rfl) fun user _ => ?_
  refine failStop_bind (failStop_step (r := .commits ..) ⟨rfl, nofun⟩ rfl) fun commits _ => ?_
  refine failStop_lift_bind (x := checkCommits _) (fun _ _ => trivial) fun _ _ => ?_
  refine failStop_bind (failStop_step (r := .discussions ..) ⟨rfl, nofun⟩ rfl) fun raw _ => ?_
  exact failStop_bind_pure ((failStop_classifyAll _ _ raw).mono (fun _ h => h.elim)
    (fun _ _ => trivial) fun _ h => h)

/-- A run stops at the first failure, and all it asks is asked of the platform or of the working
copy. -/
theorem failStop_decorate : (decorate analysis project config number).FailStop (· ≠ .close)
    (fun _ => True) fun _ => True := by
  have hsurvey := failStop_survey analysis project config number
  rw [decorate_eq]
  refine failStop_bind (hsurvey.mono (fun _ h => h.2) (fun _ h => h) fun _ h => h) fun s _ => ?_
  refine s.failStop_write.mono ?_ (fun _ _ => trivial) fun _ h => h
  rintro r hr rfl
  exact hr

theorem asks_decorate :
    (decorate analysis project config number).Asks (fun _ => True) fun _ => True :=
  (failStop_decorate analysis project config number).asks.mono (fun _ _ => trivial) fun _ h => h

end

end MergeDecoration
