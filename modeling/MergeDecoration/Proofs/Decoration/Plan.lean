import MergeDecoration.Proofs.Decoration.IssuePlan
import MergeDecoration.Proofs.Decoration.Requests
import MergeDecoration.Proofs.Decoration.SummaryPlan

/-!
The plan of a run. When nothing fails, what a run asks is determined by its snapshot: it reads, then
come the blocks of the summary and of the issues, then the status.
-/
namespace MergeDecoration

open Program

namespace Snapshot

variable {p : Platform} {rs : List Request}

/-- The commit status that is pushed. -/
def status (s : Snapshot) : PipelineStatus where
  name := "SonarQube"
  description := "SonarQube Status"
  succeeded := s.analysis.passed
  targetUrl := s.analysis.dashboard.toOption.getD ""
  coverage := (s.analysis.newCoverage.map Value.float).getD .null
  pipeline := s.config.get "pipeline_id"

theorem completes_pushStatus {s : Snapshot} {u : Unit} :
    s.pushStatus.Completes p rs u ↔ (∃ url, s.analysis.dashboard = .ok url) ∧
      rs = [.pushStatus s.mergeRequest.sourceProject s.analysis.commitSha s.status] := by
  unfold pushStatus
  rw [completes_lift_bind]
  constructor
  · rintro ⟨url, hurl, h⟩
    obtain ⟨rfl, -⟩ := completes_step.mp h
    refine ⟨⟨url, hurl⟩, ?_⟩
    rw [status, hurl]
    rfl
  · rintro ⟨⟨url, hurl⟩, rfl⟩
    refine ⟨url, hurl, completes_step.mpr ⟨?_, rfl⟩⟩
    rw [status, hurl]
    rfl

/-- Everything that a run on a snapshot writes can be written. -/
structure Ready (s : Snapshot) (changeset : Value → Int → Option String) : Prop where
  url : ∃ url, s.mergeRequestUrl = .ok url
  notes : s.HasNotes changeset
  summary : ∃ body, s.analysis.summaryNote = .ok body
  flags : s.HasFlags
  dashboard : ∃ url, s.analysis.dashboard = .ok url

/-- What is asked for the summary and the issues, in the order that the configuration gives. -/
def reconciliation (s : Snapshot) (changeset : Value → Int → Option String) (opened : Nat) :
    List Request :=
  if (s.config.get "summary_note_first").holds then
    s.summaryRequests opened ++ s.issuePlan changeset
  else s.issuePlan changeset ++
    s.summaryRequests (opened + (s.issuePlan changeset).countP (·.isOpening))

/-- What a run on a snapshot asks: the status comes last. -/
def plan (s : Snapshot) (changeset : Value → Int → Option String) (opened : Nat) : List Request :=
  s.reconciliation changeset opened ++
    [.pushStatus s.mergeRequest.sourceProject s.analysis.commitSha s.status]

/-- What a run on a snapshot reports. -/
def outcome (s : Snapshot) (changeset : Value → Int → Option String) : Outcome where
  mergeRequestUrl := s.mergeRequestUrl.toOption.getD .null
  created := (s.issueCounts changeset).1
  resolved := (s.issueCounts changeset).2.1
  noted := (s.issueCounts changeset).2.2
  summary := s.summaryAction

theorem completes_reconcile {s : Snapshot} {x : SummaryAction × Nat × Nat × Nat} :
    s.reconcile.Completes p rs x ↔
      (s.HasNotes p.changeset ∧ (∃ body, s.analysis.summaryNote = .ok body) ∧ s.HasFlags) ∧
      rs = s.reconciliation p.changeset p.opened ∧
      x = (s.summaryAction, s.issueCounts p.changeset) := by
  unfold reconcile reconciliation
  split
  · rw [completes_bind]
    constructor
    · rintro ⟨summary, us, vs, rfl, hsummary, h⟩
      obtain ⟨hbody, hflags, rfl, rfl⟩ := completes_reconcileSummary.mp hsummary
      obtain ⟨counts, us, ts, rfl, hissues, rfl, rfl⟩ := completes_bind.mp h
      obtain ⟨hnotes, rfl, rfl⟩ := completes_reconcileIssues.mp hissues
      rw [Platform.changeset_after, List.append_nil]
      rw [Platform.changeset_after] at hnotes
      exact ⟨⟨hnotes, hbody, hflags⟩, rfl, rfl⟩
    · rintro ⟨⟨hnotes, hbody, hflags⟩, rfl, rfl⟩
      refine ⟨_, _, _, rfl, completes_reconcileSummary.mpr ⟨hbody, hflags, rfl, rfl⟩,
        completes_bind.mpr ⟨_, _, [], (List.append_nil _).symm,
          completes_reconcileIssues.mpr ⟨?_, ?_, rfl⟩, rfl, ?_⟩⟩
      all_goals rw [Platform.changeset_after]
      exact hnotes
  · rw [completes_bind]
    constructor
    · rintro ⟨counts, us, vs, rfl, hissues, h⟩
      obtain ⟨hnotes, rfl, rfl⟩ := completes_reconcileIssues.mp hissues
      obtain ⟨summary, us, ts, rfl, hsummary, rfl, rfl⟩ := completes_bind.mp h
      obtain ⟨hbody, hflags, rfl, rfl⟩ := completes_reconcileSummary.mp hsummary
      rw [Platform.opened_after, List.append_nil]
      exact ⟨⟨hnotes, hbody, hflags⟩, rfl, rfl⟩
    · rintro ⟨⟨hnotes, hbody, hflags⟩, rfl, rfl⟩
      refine ⟨_, _, _, rfl, completes_reconcileIssues.mpr ⟨hnotes, rfl, rfl⟩,
        completes_bind.mpr ⟨_, _, [], (List.append_nil _).symm,
          completes_reconcileSummary.mpr ⟨hbody, hflags, ?_, rfl⟩, rfl, rfl⟩⟩
      rw [Platform.opened_after]

/-- When nothing fails, a run on a snapshot asks what is planned and nothing else. -/
theorem completes_write {s : Snapshot} {o : Outcome} :
    s.write.Completes p rs o ↔
      s.Ready p.changeset ∧ rs = s.plan p.changeset p.opened ∧ o = s.outcome p.changeset := by
  unfold write
  rw [completes_lift_bind]
  constructor
  · rintro ⟨url, hurl, h⟩
    obtain ⟨x, us, vs, rfl, hx, h⟩ := completes_bind.mp h
    obtain ⟨⟨hnotes, hbody, hflags⟩, rfl, rfl⟩ := completes_reconcile.mp hx
    obtain ⟨_, us, ts, rfl, hstatus, rfl, rfl⟩ := completes_bind.mp h
    obtain ⟨hdashboard, rfl⟩ := completes_pushStatus.mp hstatus
    refine ⟨⟨⟨url, hurl⟩, hnotes, hbody, hflags, hdashboard⟩, ?_, ?_⟩
    · rw [List.append_nil]
      rfl
    · rw [outcome, hurl]
      rfl
  · rintro ⟨⟨⟨url, hurl⟩, hnotes, hbody, hflags, hdashboard⟩, rfl, rfl⟩
    refine ⟨url, hurl, completes_bind.mpr ⟨_, _, _, rfl,
      completes_reconcile.mpr ⟨⟨hnotes, hbody, hflags⟩, rfl, rfl⟩, completes_bind.mpr
        ⟨(), _, [], (List.append_nil _).symm, completes_pushStatus.mpr ⟨hdashboard, rfl⟩,
          rfl, ?_⟩⟩⟩
    rw [outcome, hurl]
    rfl

/-- What a run reads of the platform before it writes. -/
def reads (s : Snapshot) (project : String) (iid : Int) : List Request :=
  [.mergeRequest project (.int iid), .currentUser,
    .commits s.mergeRequest.targetProject s.mergeRequest.iid,
    .discussions s.mergeRequest.targetProject s.mergeRequest.iid]

theorem after_reads (s : Snapshot) (p : Platform) (project : String) (iid : Int) :
    p.after (s.reads project iid) = p := rfl

/-- What a run on a platform knows once everything is read. -/
structure Shows (s : Snapshot) (p : Platform) (analysis : Analysis) (config : Config)
    (iid : Int) : Prop where
  analysis : s.analysis = analysis.withServer config
  mergeRequest : s.mergeRequest = p.mergeRequest (.int iid)
  username : s.username = p.username
  commits : s.commits = p.commits
  discussions : List.Forall₂ (fun d c =>
    d.classify p.username (some s.analysis.projectKey) = .ok c) p.discussions s.discussions
  config : s.config = config

end Snapshot

theorem completes_classifyAll {p : Platform} {rs : List Request} {username : Value}
    {project : Option String} {ds : List Discussion} {cs : List Classified} :
    (classifyAll username project ds).Completes p rs cs ↔
      rs = [] ∧ List.Forall₂ (fun d c => d.classify username project = .ok c) ds cs := by
  induction ds generalizing rs cs with
  | nil =>
    rw [classifyAll, completes_pure, List.forall₂_nil_left_iff]
  | cons d ds ih =>
    simp only [classifyAll, completes_lift_bind, completes_debug_bind]
    rw [List.forall₂_cons_left_iff]
    constructor
    · rintro ⟨c, hc, h⟩
      obtain ⟨cs, us, vs, rfl, hrest, rfl, rfl⟩ := completes_bind.mp h
      obtain ⟨rfl, hcs⟩ := ih.mp hrest
      exact ⟨rfl, c, cs, hc, hcs, rfl⟩
    · rintro ⟨rfl, c, cs, hc, hcs, rfl⟩
      exact ⟨c, hc, completes_bind.mpr ⟨cs, [], [], rfl, ih.mpr ⟨rfl, hcs⟩, rfl, rfl⟩⟩

/-- The number of the merge request that a run is for. -/
def numberOf (analysis : Analysis) (number : Value) : Except Fault Int :=
  readNumber (if number.isNull then .text analysis.pullRequestId else number)

section

variable {p : Platform} {rs : List Request} {analysis : Analysis} {project : String}
  {config : Config} {number : Value}

/-- When nothing fails, a survey ends with what the platform shows. -/
theorem completes_survey {s : Snapshot} :
    (survey analysis project config number).Completes p rs s ↔
      checkCommits p.commits = .ok () ∧ ∃ iid, numberOf analysis number = .ok iid ∧
        s.Shows p analysis config iid ∧ rs = s.reads project iid := by
  unfold survey
  rw [completes_lift_bind]
  constructor
  · rintro ⟨iid, hiid, h⟩
    obtain ⟨_, rfl, huser⟩ := completes_step_bind.mp h
    obtain ⟨_, rfl, hread⟩ := completes_step_bind.mp huser
    obtain ⟨_, rfl, hcheck⟩ := completes_step_bind.mp hread
    obtain ⟨_, hcommits, hnext⟩ := completes_lift_bind.mp hcheck
    obtain ⟨_, rfl, hraw⟩ := completes_step_bind.mp hnext
    obtain ⟨cs, us, vs, rfl, hclassify, rfl, rfl⟩ := completes_bind.mp hraw
    obtain ⟨rfl, hcs⟩ := completes_classifyAll.mp hclassify
    exact ⟨hcommits, iid, hiid, ⟨rfl, rfl, rfl, rfl, hcs, rfl⟩, rfl⟩
  · rintro ⟨hcommits, iid, hiid, hs, rfl⟩
    obtain ⟨a, m, u, commits, cs, config⟩ := s
    obtain ⟨ha, rfl, rfl, rfl, hcs, hconfig⟩ := hs
    dsimp only at hconfig
    subst hconfig
    dsimp only at ha
    subst ha
    exact ⟨iid, hiid, completes_step_bind.mpr ⟨_, rfl, completes_step_bind.mpr ⟨_, rfl,
      completes_step_bind.mpr ⟨_, rfl, completes_lift_bind.mpr ⟨(), hcommits,
        completes_step_bind.mpr ⟨_, rfl, completes_bind.mpr ⟨cs, [], [], rfl,
          completes_classifyAll.mpr ⟨rfl, hcs⟩, rfl, rfl⟩⟩⟩⟩⟩⟩⟩

/-- When nothing fails, a run reads, and then asks what is planned for the snapshot. -/
theorem completes_decorate {o : Outcome} :
    (decorate analysis project config number).Completes p rs o ↔
      checkCommits p.commits = .ok () ∧ ∃ iid s, numberOf analysis number = .ok iid ∧
        Snapshot.Shows s p analysis config iid ∧ s.Ready p.changeset ∧
        rs = s.reads project iid ++ s.plan p.changeset p.opened ∧ o = s.outcome p.changeset := by
  rw [decorate_eq, completes_bind]
  constructor
  · rintro ⟨s, us, vs, rfl, hsurvey, hwrite⟩
    obtain ⟨hcommits, iid, hiid, hshows, rfl⟩ := completes_survey.mp hsurvey
    rw [s.after_reads] at hwrite
    obtain ⟨hready, rfl, rfl⟩ := Snapshot.completes_write.mp hwrite
    exact ⟨hcommits, iid, s, hiid, hshows, hready, rfl, rfl⟩
  · rintro ⟨hcommits, iid, s, hiid, hshows, hready, rfl, rfl⟩
    refine ⟨s, _, _, rfl, completes_survey.mpr ⟨hcommits, iid, hiid, hshows, rfl⟩, ?_⟩
    rw [s.after_reads]
    exact Snapshot.completes_write.mpr ⟨hready, rfl, rfl⟩

end

end MergeDecoration
