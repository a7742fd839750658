import MergeDecoration.Proofs.Decoration.Convergence
import MergeDecoration.Proofs.Note.Identity

/-!
Runs one after another. A run that was broken off is made up for by the next one, and after a whole
run the next one has nothing to do but the summary.
-/
namespace MergeDecoration

open Program

attribute [local irreducible] Program.Completes

/-- An analysis whose notes are read back as what they were written for. -/
structure Analysis.IsReadable (a : Analysis) : Prop where
  server : a.HasPlainServer
  project : a.projectKey ≠ ""
  keys : ∀ i ∈ a.openIssues, i.key ≠ ""
  texts : ∀ i ∈ a.openIssues, ¬ViewLink.Opens i.message.shown.toList ∧
    ¬ViewLink.Opens i.rule.shown.toList ∧ ¬ViewLink.Opens i.path.shown.toList ∧
    ¬ViewLink.Opens i.key.toList

/-- The summary is read back as that of its project and as nothing else. -/
theorem Analysis.IsReadable.summaryNote {a : Analysis} (ha : a.IsReadable) :
    ∃ body, a.summaryNote = .ok body ∧ Identity.issue? body = .ok none ∧
      ∀ q, Identity.isSummary body q = .ok (decide (q = none ∨ q = some a.projectKey)) := by
  refine Identity.of_summaryNote ha.server ha.project fun i hi => ?_
  obtain ⟨hmessage, -, hpath, hkey⟩ := ha.texts i hi
  exact ⟨hmessage, hpath, hkey⟩

theorem Analysis.projectKey_withServer (a : Analysis) (config : Config) :
    (a.withServer config).projectKey = a.projectKey := by
  rw [withServer]
  split <;> rfl

/-- A platform with unique ids, where system notes carry no links. -/
structure Platform.IsRegular (p : Platform) : Prop where
  numbered : p.IsNumbered
  username : p.username.same p.username = true
  system : ∀ d ∈ p.discussions, ∀ n ∈ d.notes, n.system = true → n.IsPlain

theorem Platform.answer_of_not_isWrite {p : Platform} {r : Request} (h : r.isWrite = false) :
    (p.answer r).2 = p := by
  cases r with
  | mergeRequest | currentUser | commits | discussions | close | changeset => rfl
  | _ => cases h

theorem Platform.after_of_not_isWrite {p : Platform} {rs : List Request}
    (h : ∀ r ∈ rs, r.isWrite = false) : p.after rs = p := by
  induction rs with
  | nil => rfl
  | cons r rs ih =>
    rw [after_cons, answer_of_not_isWrite (h r (List.mem_cons_self ..))]
    exact ih fun u hu => h u (List.mem_cons_of_mem r hu)

namespace Snapshot

variable {s : Snapshot} {p : Platform} {rs : List Request} {analysis : Analysis} {config : Config}
  {iid : Int}

theorem not_isWrite_reads (s : Snapshot) (project : String) (iid : Int) :
    ∀ r ∈ s.reads project iid, r.isWrite = false := by
  intro r hr
  simp only [reads, List.mem_cons, List.not_mem_nil, or_false] at hr
  rcases hr with rfl | rfl | rfl | rfl <;> rfl

theorem Shows.projectKey (h : s.Shows p analysis config iid) :
    s.analysis.projectKey = analysis.projectKey := by
  rw [h.analysis, Analysis.projectKey_withServer]

theorem Shows.openIssues (h : s.Shows p analysis config iid) :
    s.analysis.openIssues = analysis.openIssues := by
  rw [h.analysis, Analysis.withServer]
  split <;> rfl

/-- The summary of a readable analysis is read back as one. -/
theorem isSummary_summaryBody (ha : s.analysis.IsReadable) :
    Identity.isSummary s.summaryBody (some s.analysis.projectKey) = .ok true := by
  obtain ⟨body, hbody, -, hsummary⟩ := ha.summaryNote
  have heq : s.summaryBody = body := by
    rw [summaryBody, hbody]
    rfl
  rw [heq, hsummary]
  simp

/-- What a run knows of a regular platform and a readable analysis is sound. -/
theorem Shows.sound (h : s.Shows p analysis config iid) (hp : p.IsRegular)
    (ha : (analysis.withServer config).IsReadable) (hready : s.Ready p.changeset) : s.Sound p := by
  rw [← h.analysis] at ha
  refine ⟨⟨hp.numbered, h.username, h.discussions⟩, hp.username, hp.system, hready, ?_, ?_⟩
  · intro i hi body hbody
    obtain ⟨hmessage, hrule, -, -⟩ := ha.texts i hi
    obtain ⟨hissue, hsummary⟩ :=
      Identity.of_issueNote ha.server ha.project (ha.keys i hi) hmessage hrule hbody
    exact ⟨hissue, hsummary _⟩
  · exact isSummary_summaryBody ha

/-- What the next run knows. -/
theorem Shows.again (h : s.Shows p analysis config iid)
    (hsees : (s.again (p.after rs)).Sees (p.after rs)) :
    (s.again (p.after rs)).Shows (p.after rs) analysis config iid := by
  refine ⟨h.analysis, ?_, hsees.username, ?_, hsees.discussions, h.config⟩
  · rw [Platform.mergeRequest_after]
    exact h.mergeRequest
  · rw [Platform.commits_after]
    exact h.commits

end Snapshot

section

variable {w : Watched} {analysis : Analysis} {project : String} {config : Config} {number : Value}

/-- What a run that succeeds has seen, and what it has asked. -/
theorem exists_of_decorate_ok
    (h : ((decorate analysis project config number).run (Watched.backend .never) w).1.isOk = true) :
    checkCommits w.platform.commits = .ok () ∧ ∃ o iid s, numberOf analysis number = .ok iid ∧
      Snapshot.Shows s w.platform analysis config iid ∧ s.Ready w.platform.changeset ∧
      (decorate analysis project config number).Completes w.platform
        (s.reads project iid ++ s.plan w.platform.changeset w.platform.opened) o := by
  cases ho : ((decorate analysis project config number).run (Watched.backend .never) w).1 with
  | error e =>
    rw [ho] at h
    cases h
  | ok o =>
    obtain ⟨rs, hcompletes⟩ := completes_of_run ho
    obtain ⟨hcommits, iid, s, hiid, hshows, hready, hrs, -⟩ := completes_decorate.mp hcompletes
    rw [hrs] at hcompletes
    exact ⟨hcommits, o, iid, s, hiid, hshows, hready, hcompletes⟩

/-- After any part of a run, the next run succeeds. -/
theorem run_again {p : Platform} {rs : List Request} {iid : Int} {s : Snapshot}
    {done : List Issue} {threads sums : List Discussion} (project : String)
    (h : s.Halfway p rs done threads sums)
    (hcommits : checkCommits p.commits = .ok ()) (hiid : numberOf analysis number = .ok iid)
    (hshows : s.Shows p analysis config iid) (hw : w.platform = p.after rs) :
    ∃ records, (decorate analysis project config number).run (Watched.backend .never) w =
      (.ok ((s.again (p.after rs)).outcome p.changeset), {
        platform := (p.after rs).after (s.nextPlan (p.after rs))
        requests := w.requests ++ (s.reads project iid ++ s.nextPlan (p.after rs))
        records }) := by
  have hcompletes : (decorate analysis project config number).Completes w.platform
      (s.reads project iid ++ s.nextPlan (p.after rs))
      ((s.again (p.after rs)).outcome p.changeset) := by
    rw [hw]
    refine completes_decorate.mpr ⟨?_, iid, s.again (p.after rs), hiid, hshows.again h.sees,
      h.ready, rfl, ?_⟩
    · rw [Platform.commits_after]
      exact hcommits
    · rw [Platform.changeset_after]
  obtain ⟨records, hrun⟩ := run_of_completes hcompletes
  rw [hw, Platform.after_append, s.after_reads] at hrun
  exact ⟨records, hrun⟩

/-- A run that was broken off by any failure is made up for: the next run succeeds and leads the
platform to where one whole run would have led it, and it pushes the same status last. -/
theorem decorate_after_abort (outage : Outage) (hp : w.platform.IsRegular)
    (ha : (analysis.withServer config).IsReadable)
    (hkeys : ((analysis.withServer config).openIssues.map (·.key)).Nodup)
    (hok : ((decorate analysis project config number).run
      (Watched.backend .never) w).1.isOk = true) :
    let once := (decorate analysis project config number).run (Watched.backend .never) w
    let broken := (decorate analysis project config number).run (Watched.backend outage) w
    let again := (decorate analysis project config number).run (Watched.backend .never) broken.2
    again.1.isOk = true ∧ w.platform.Alike again.2.platform once.2.platform ∧
      again.2.requests.getLast? = once.2.requests.getLast? := by
  obtain ⟨hcommits, o, iid, s, hiid, hshows, hready, hcompletes⟩ := exists_of_decorate_ok hok
  have hsound := hshows.sound hp ha hready
  obtain ⟨records, honce⟩ := run_of_completes hcompletes
  obtain ⟨asked, rest, hasked, hbroken⟩ :=
    platform_run_of_asks outage (asks_decorate analysis project config number) hcompletes
  -- Broken off while reading, or in the midst of the plan.
  obtain ⟨rs, hrs, hplatform⟩ : ∃ rs, rs <+: s.plan w.platform.changeset w.platform.opened ∧
      w.platform.after asked = w.platform.after rs := by
    have hreads := s.not_isWrite_reads project iid
    rcases prefix_append_cases ⟨rest, hasked.symm⟩ with hread | ⟨rs, hrs, rfl⟩
    · refine ⟨[], List.nil_prefix, ?_⟩
      exact Platform.after_of_not_isWrite fun r hr => hreads r (hread.subset hr)
    · refine ⟨rs, hrs, ?_⟩
      rw [Platform.after_append, Platform.after_of_not_isWrite hreads]
  rw [hplatform] at hbroken
  obtain ⟨done, threads, sums, h⟩ := hsound.halfway hrs
  obtain ⟨records', hagain⟩ := run_again project h hcommits hiid hshows hbroken
  intro once broken again
  have halike := h.alike (hshows.analysis ▸ hkeys)
  refine ⟨?_, ?_, ?_⟩
  · rw [show again = _ from hagain]
    rfl
  · rw [show again = _ from hagain, show once = _ from honce]
    dsimp only
    rw [Platform.after_append, Platform.after_of_not_isWrite (s.not_isWrite_reads project iid)]
    exact halike
  · rw [show again = _ from hagain, show once = _ from honce]
    dsimp only
    rw [Snapshot.nextPlan, Snapshot.plan, Snapshot.plan, ← List.append_assoc, ← List.append_assoc,
      ← List.append_assoc, ← List.append_assoc, List.getLast?_concat, List.getLast?_concat]
    rfl

end

/-- A report with two open issues. -/
def sampleReport : Analysis where
  projectKey := "p k"
  pullRequestId := "7"
  commitSha := "abc"
  gate := .ok
  serverUrl := .text "http://x"
  issues := [
    { key := "k&1", line := some 3, path := .text "a.py", message := .text "m" },
    { key := "k 2", line := some 5, path := .text "b.py", message := .text "n" }]

/-- A merge request with a thread of a person and one of an issue that is gone. -/
def sampleWatched : Watched where
  platform := {
    mergeRequest := fun iid => ⟨iid, .int 1, .int 2, .text "b", .text "s", .text "h", .text "u"⟩
    commits := [.text "c"]
    changeset := fun _ _ => some "c"
    discussions := [
      ⟨.int 5, [
        { id := .text "n1", author := ⟨.text "alice", .null⟩, body := .text "why?" },
        { id := .text "n2", author := ⟨.text "sonar-bot", .null⟩, body := .text "moved",
          system := true }]⟩,
      ⟨.int 6, [{
        id := .text "n3"
        author := ⟨.text "sonar-bot", .null⟩
        body := .text "[View in SonarQube](http://x/project/issues?id=p+k&issues=old&open=old)"
        resolvable := true }]⟩] }

theorem isReadable_sampleReport : (sampleReport.withServer []).IsReadable :=
  ⟨⟨_, rfl, List.all_eq_true.mp (by decide)⟩, by decide, by decide, by decide⟩

theorem isRegular_sampleWatched : sampleWatched.platform.IsRegular := by
  refine ⟨⟨Platform.numbered_ints [5, 6] (by decide) _, ?_⟩, Value.same_text .., ?_⟩
  · simp only [sampleWatched, List.forall_mem_cons]
    exact ⟨Platform.numbered_texts ["n1", "n2"] (by decide) _,
      Platform.numbered_texts ["n3"] (by decide) _, nofun⟩
  · intro d hd n hn hsystem
    have hbody : n.body = .text "moved" := by
      simp only [sampleWatched, List.mem_cons, List.not_mem_nil, or_false] at hd
      rcases hd with rfl | rfl
      · simp only [List.mem_cons, List.not_mem_nil, or_false] at hn
        rcases hn with rfl | rfl
        · cases hsystem
        · rfl
      · rw [List.mem_singleton.mp hn] at hsystem
        cases hsystem
    exact ⟨_, hbody, ViewLink.targets_eq_nil (by decide)⟩

/-- A run on the merge request that is broken off between the two new threads. -/
theorem decorate_after_abort_between_threads :
    let outage : Outage := fun asked _ => if asked.length = 7 then some "down" else none
    let once := (decorate sampleReport "g/p" []).run (Watched.backend .never) sampleWatched
    let broken := (decorate sampleReport "g/p" []).run (Watched.backend outage) sampleWatched
    let again := (decorate sampleReport "g/p" []).run (Watched.backend .never) broken.2
    broken.1.isOk = false ∧ again.1.isOk = true ∧
      sampleWatched.platform.Alike again.2.platform once.2.platform ∧
      again.2.requests.getLast? = once.2.requests.getLast? :=
  ⟨by decide +kernel, decorate_after_abort _ isRegular_sampleWatched isReadable_sampleReport
    (by decide) (by decide +kernel)⟩

end MergeDecoration
