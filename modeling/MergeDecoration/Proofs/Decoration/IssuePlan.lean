import MergeDecoration.Decoration
import MergeDecoration.Proofs.Platform.Numbering

/-!
What a run asks for issues: a discussion for each issue that is due, then the end of each
discussion whose issue is gone.
-/
namespace MergeDecoration

open Program

namespace Snapshot

variable {p : Platform} {rs : List Request}

/-- Whether the working copy ascribes a line to a commit of the merge request. -/
def isOwnLine (s : Snapshot) (changeset : Value → Int → Option String) (path : Value)
    (line : Int) : Bool :=
  (changeset path line).any fun revision => s.commits.any (·.same (.text revision))

/-- Whether an issue gets a new discussion. -/
def isDue (s : Snapshot) (changeset : Value → Int → Option String) (represented : List String)
    (i : Issue) : Bool :=
  match i.anchor? with
  | none => false
  | some (path, line) => !represented.contains i.key && s.isOwnLine changeset path line

def issueBody (s : Snapshot) (i : Issue) : String := (s.analysis.issueNote i).toOption.getD ""

def opening (s : Snapshot) (i : Issue) (path : Value) (line : Int) : Request :=
  .createDiscussion s.mergeRequest.targetProject s.mergeRequest.iid (.line {
    body := s.issueBody i
    baseSha := s.mergeRequest.baseSha
    startSha := s.mergeRequest.startSha
    headSha := s.mergeRequest.headSha
    oldPath := path
    newPath := path
    newLine := .int line })

/-- What is asked for an issue: the commit of its line, and a discussion if that is an own one. -/
def issueRequests (s : Snapshot) (changeset : Value → Int → Option String)
    (represented : List String) (i : Issue) : List Request :=
  match i.anchor? with
  | none => []
  | some (path, line) =>
    if represented.contains i.key then []
    else .changeset path line ::
      if s.isOwnLine changeset path line then [s.opening i path line] else []

theorem completes_createIssueNote {s : Snapshot} {i : Issue} {path : Value} {line : Int}
    {b : Bool} :
    (s.createIssueNote i path line).Completes p rs b ↔
      (s.isOwnLine p.changeset path line = true → ∃ body, s.analysis.issueNote i = .ok body) ∧
      rs = .changeset path line ::
        (if s.isOwnLine p.changeset path line then [s.opening i path line] else []) ∧
      b = s.isOwnLine p.changeset path line := by
  unfold createIssueNote
  rw [completes_call_bind]
  have hanswer : (p.answer (.changeset path line)).1 = p.changeset path line := rfl
  rw [hanswer, isOwnLine]
  cases hc : p.changeset path line with
  | none =>
    simp only [completes_debug_bind, completes_pure, Option.any_none, Bool.false_eq_true,
      if_false, false_imp_iff, true_and]
    constructor
    · rintro ⟨_, rfl, rfl, rfl⟩
      exact ⟨rfl, rfl⟩
    · rintro ⟨rfl, rfl⟩
      exact ⟨[], rfl, rfl, rfl⟩
  | some revision =>
    simp only [Option.any_some]
    by_cases ho : s.commits.any (·.same (.text revision)) = true
    · simp only [ho, Bool.not_true, Bool.false_eq_true, if_false, if_true, completes_lift_bind,
        true_imp_iff]
      constructor
      · rintro ⟨_, rfl, body, hb, _, rfl, rfl, rfl⟩
        refine ⟨⟨body, hb⟩, ?_, rfl⟩
        rw [opening, issueBody, hb]
        rfl
      · rintro ⟨⟨body, hb⟩, rfl, rfl⟩
        refine ⟨_, rfl, body, hb, [], ?_, rfl, rfl⟩
        rw [opening, issueBody, hb]
        rfl
    · rw [Bool.not_eq_true] at ho
      simp only [ho, Bool.not_false, Bool.false_eq_true, if_false, if_true, completes_debug_bind,
        completes_pure, false_imp_iff, true_and]
      constructor
      · rintro ⟨_, rfl, rfl, rfl⟩
        exact ⟨rfl, rfl⟩
      · rintro ⟨rfl, rfl⟩
        exact ⟨[], rfl, rfl, rfl⟩

/-- The issue block's first half asks for each issue in turn. -/
theorem completes_createIssueNotes {s : Snapshot} {represented : List String} {issues : List Issue}
    {n : Nat} :
    (s.createIssueNotes represented issues).Completes p rs n ↔
      (∀ i ∈ issues, s.isDue p.changeset represented i = true →
        ∃ body, s.analysis.issueNote i = .ok body) ∧
      rs = issues.flatMap (s.issueRequests p.changeset represented) ∧
      n = issues.countP (s.isDue p.changeset represented) := by
  induction issues generalizing p rs n with
  | nil =>
    rw [createIssueNotes, completes_pure]
    simp
  | cons i rest ih =>
    have htail : ∀ (created : Bool) (q : Platform) (ts : List Request),
        q.changeset = p.changeset →
        ((s.createIssueNotes represented rest >>= fun m =>
            (pure (m + cond created 1 0) : Program Nat)).Completes q ts n ↔
          (∀ j ∈ rest, s.isDue p.changeset represented j = true →
            ∃ body, s.analysis.issueNote j = .ok body) ∧
          ts = rest.flatMap (s.issueRequests p.changeset represented) ∧
          n = rest.countP (s.isDue p.changeset represented) + cond created 1 0) := by
      intro created q ts hq
      rw [completes_bind]
      constructor
      · rintro ⟨m, us, vs, rfl, hm, rfl, rfl⟩
        obtain ⟨hbodies, rfl, rfl⟩ := ih.mp hm
        rw [hq] at hbodies ⊢
        exact ⟨hbodies, List.append_nil _, rfl⟩
      · rintro ⟨hbodies, rfl, rfl⟩
        refine ⟨_, _, [], (List.append_nil _).symm, ih.mpr ⟨?_, ?_, rfl⟩, rfl, ?_⟩
        · rwa [hq]
        · rw [hq]
        · rw [hq]
    rw [createIssueNotes, List.forall_mem_cons, List.flatMap_cons, List.countP_cons, isDue,
      issueRequests]
    cases ha : i.anchor? with
    | none =>
      simp only [completes_debug_bind, completes_pure_bind]
      rw [htail false p rs rfl]
      simp
    | some anchor =>
      obtain ⟨path, line⟩ := anchor
      by_cases hr : represented.contains i.key = true
      · simp only [hr, if_true, completes_debug_bind, completes_pure_bind]
        rw [htail false p rs rfl]
        simp
      · rw [Bool.not_eq_true] at hr
        simp only [hr, Bool.false_eq_true, if_false]
        rw [completes_bind]
        constructor
        · rintro ⟨created, us, ts, rfl, hfirst, hrest⟩
          obtain ⟨hbody, rfl, rfl⟩ := completes_createIssueNote.mp hfirst
          obtain ⟨hbodies, rfl, rfl⟩ := (htail _ _ ts (Platform.changeset_after ..)).mp hrest
          refine ⟨⟨?_, hbodies⟩, rfl, ?_⟩
          · simpa using hbody
          · simp [Bool.cond_eq_ite]
        · rintro ⟨⟨hbody, hbodies⟩, rfl, rfl⟩
          refine ⟨_, _, _, rfl, completes_createIssueNote.mpr ⟨?_, rfl, rfl⟩,
            (htail _ _ _ (Platform.changeset_after ..)).mpr ⟨hbodies, rfl, ?_⟩⟩
          · simpa using hbody
          · simp [Bool.cond_eq_ite]

/-- Whether a discussion is a live one of the project whose issue is gone. -/
def isStale (s : Snapshot) (liveKeys : List String) (c : Classified) : Bool :=
  c.isLiveIssue s.analysis.projectKey && !liveKeys.contains (c.issueKey?.getD "")

/-- What is asked for a discussion whose issue is gone. -/
def staleRequests (s : Snapshot) (liveKeys : List String) (c : Classified) : List Request :=
  if s.isStale liveKeys c then
    if c.kind == .mixed then
      [.addNote s.mergeRequest.targetProject s.mergeRequest.iid c.discussion.id staleIssueNote]
    else [.resolve s.mergeRequest.targetProject s.mergeRequest.iid c.discussion.id]
  else []

theorem completes_closeStale {s : Snapshot} {liveKeys : List String} {cs : List Classified}
    {counts : Nat × Nat} :
    (s.closeStale liveKeys cs).Completes p rs counts ↔
      rs = cs.flatMap (s.staleRequests liveKeys) ∧
      counts = (cs.countP fun c => s.isStale liveKeys c && c.kind != .mixed,
        cs.countP fun c => s.isStale liveKeys c && c.kind == .mixed) := by
  induction cs generalizing p rs counts with
  | nil =>
    rw [closeStale, completes_pure]
    simp
  | cons c rest ih =>
    -- One request for the discussion, and the rest is counted up.
    have hrest : ∀ (label : Step) (r : Request) (up : Nat × Nat → Nat × Nat),
        (step label r >>= fun _ => s.closeStale liveKeys rest >>= fun n => pure (up n)).Completes
            p rs counts ↔
          rs = r :: rest.flatMap (s.staleRequests liveKeys) ∧
          counts = up (rest.countP fun c => s.isStale liveKeys c && c.kind != .mixed,
            rest.countP fun c => s.isStale liveKeys c && c.kind == .mixed) := by
      intro label r up
      refine completes_step_bind.trans ?_
      constructor
      · rintro ⟨_, rfl, h⟩
        obtain ⟨n, us, vs, rfl, hn, rfl, rfl⟩ := completes_bind.mp h
        obtain ⟨rfl, rfl⟩ := ih.mp hn
        exact ⟨by rw [List.append_nil], rfl⟩
      · rintro ⟨rfl, rfl⟩
        exact ⟨_, rfl, completes_bind.mpr ⟨_, _, [], (List.append_nil _).symm,
          ih.mpr ⟨rfl, rfl⟩, rfl, rfl⟩⟩
    rw [closeStale, List.flatMap_cons, List.countP_cons, List.countP_cons, staleRequests]
    by_cases hs : s.isStale liveKeys c = true
    · have hskip : (!c.isLiveIssue s.analysis.projectKey ||
          liveKeys.contains (c.issueKey?.getD "")) = false := by
        rw [isStale, Bool.and_eq_true, Bool.not_eq_true'] at hs
        rw [hs.1, hs.2]
        rfl
      simp only [hskip, hs, Bool.false_eq_true, if_false, if_true, Bool.true_and]
      by_cases hm : (c.kind == .mixed) = true
      · have hne : (c.kind != .mixed) = false := by rw [bne, hm, Bool.not_true]
        simp only [hm, hne, if_true, completes_debug_bind]
        exact hrest _ _ fun n => (n.1, n.2 + 1)
      · rw [Bool.not_eq_true] at hm
        have hne : (c.kind != .mixed) = true := by rw [bne, hm, Bool.not_false]
        simp only [hm, hne, Bool.false_eq_true, if_true, if_false, completes_debug_bind]
        exact hrest _ _ fun n => (n.1 + 1, n.2)
    · have hskip : (!c.isLiveIssue s.analysis.projectKey ||
          liveKeys.contains (c.issueKey?.getD "")) = true := by
        rw [isStale, Bool.not_eq_true, Bool.and_eq_false_iff, Bool.not_eq_false'] at hs
        rcases hs with hs | hs
        · rw [hs]
          rfl
        · rw [hs, Bool.or_true]
      rw [Bool.not_eq_true] at hs
      simp only [hskip, hs, Bool.false_eq_true, if_false, if_true, Bool.false_and, Nat.add_zero,
        List.nil_append]
      exact ih

def openKeys (s : Snapshot) : List String := s.analysis.openIssues.map (·.key)

/-- What is asked for the issues. -/
def issuePlan (s : Snapshot) (changeset : Value → Int → Option String) : List Request :=
  s.analysis.openIssues.flatMap (s.issueRequests changeset s.representedKeys) ++
    s.discussions.flatMap (s.staleRequests s.openKeys)

/-- Whether the notes of all new discussions can be written. -/
def HasNotes (s : Snapshot) (changeset : Value → Int → Option String) : Prop :=
  ∀ i ∈ s.analysis.openIssues, s.isDue changeset s.representedKeys i = true →
    ∃ body, s.analysis.issueNote i = .ok body

/-- The numbers of discussions created, resolved and noted. -/
def issueCounts (s : Snapshot) (changeset : Value → Int → Option String) : Nat × Nat × Nat :=
  (s.analysis.openIssues.countP (s.isDue changeset s.representedKeys),
    s.discussions.countP fun c => s.isStale s.openKeys c && c.kind != .mixed,
    s.discussions.countP fun c => s.isStale s.openKeys c && c.kind == .mixed)

theorem completes_reconcileIssues {s : Snapshot} {counts : Nat × Nat × Nat} :
    s.reconcileIssues.Completes p rs counts ↔
      s.HasNotes p.changeset ∧ rs = s.issuePlan p.changeset ∧
      counts = s.issueCounts p.changeset := by
  unfold reconcileIssues
  rw [completes_bind]
  constructor
  · rintro ⟨created, us, vs, rfl, hcreate, h⟩
    obtain ⟨hnotes, rfl, rfl⟩ := completes_createIssueNotes.mp hcreate
    obtain ⟨⟨resolved, noted⟩, us, ts, rfl, hclose, rfl, rfl⟩ := completes_bind.mp h
    obtain ⟨rfl, hcounts⟩ := completes_closeStale.mp hclose
    obtain ⟨rfl, rfl⟩ := Prod.mk.inj hcounts
    exact ⟨hnotes, by rw [List.append_nil]; rfl, rfl⟩
  · rintro ⟨hnotes, rfl, rfl⟩
    exact ⟨_, _, _, rfl, completes_createIssueNotes.mpr ⟨hnotes, rfl, rfl⟩,
      completes_bind.mpr ⟨(_, _), _, [], (List.append_nil _).symm,
        completes_closeStale.mpr ⟨rfl, rfl⟩, rfl, rfl⟩⟩

end Snapshot
end MergeDecoration
