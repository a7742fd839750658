import MergeDecoration.Analysis.Reader
import MergeDecoration.Proofs.Decoration.Course

/-!
How many open threads of an issue a run leaves. Threads are opened only for issues that have none; but
an issue that is reported more than once, on lines of the merge request, gets one thread each time.
-/
namespace MergeDecoration

open Program
open Platform (noteId discussionId)

namespace Discussion

variable {d e : Discussion} {user : Value} {project key : String}

/-- Whether the discussion is an open thread of the issue to a run of the user on the project. -/
def isLive (d : Discussion) (user : Value) (project key : String) : Bool :=
  match d.classify user (some project) with
  | .ok c => c.isLiveIssue project && c.issueKey? == some key
  | .error _ => false

/-- Whether the discussion is a summary without replies, and an open thread of the issue once its
first note is deleted. -/
def hides (d : Discussion) (user : Value) (project key : String) : Bool :=
  match d.classify user (some project) with
  | .ok c => c.kind == .summary && d.replies.isEmpty &&
      isLive { d with notes := d.notes.tail } user project key
  | .error _ => false

theorem isLive_of_classify {c : Classified} (h : d.classify user (some project) = .ok c) :
    d.isLive user project key = (c.isLiveIssue project && c.issueKey? == some key) := by
  rw [isLive, h]

/-- An open thread starts with a note of the issue. -/
theorem startsIssue_of_isLive (h : d.isLive user project key = true) :
    ∃ i : IssueIdentity, i.issue = key ∧ d.StartsIssue user (some project) i := by
  unfold isLive at h
  split at h
  · next c hc =>
    rw [Bool.and_eq_true, beq_iff_eq] at h
    obtain ⟨i, rfl, -, hstart, -⟩ := startsIssue_of_isLiveIssue hc h.1
    exact ⟨i, Option.some.inj h.2, hstart⟩
  · cases h

theorem isLive_of_startsSummary (h : d.StartsSummary user (some project)) :
    d.isLive user project key = false := by
  rw [isLive_of_classify (classify_of_startsSummary h)]
  rfl

theorem isLive_of_closed {kind : DiscussionKind} {i : Option IssueIdentity}
    (h : d.classify user (some project) = .ok ⟨d, kind, i, true⟩) :
    d.isLive user project key = false := by
  rw [isLive_of_classify h, Classified.isLiveIssue, Bool.not_true, Bool.and_false, Bool.false_and,
    Bool.false_and]

end Discussion

/-- The number of open threads of an issue. -/
def Platform.liveCount (p : Platform) (project key : String) : Nat :=
  p.discussions.countP (·.isLive p.username project key)

/-- Whether the line of an issue was last touched by a commit of the merge request. -/
def Platform.ownsLine (p : Platform) (i : Issue) : Bool :=
  match i.anchor? with
  | none => false
  | some (path, line) => (p.changeset path line).any fun revision =>
      p.commits.any (·.same (.text revision))

namespace Snapshot

variable {s : Snapshot} {p : Platform} {rs : List Request} {c : Classified} {e : Discussion}
  {key : String}

/-- A summary with the new text is a summary still. -/
theorem HoldsNewText.startsSummary (he : s.HoldsNewText c e) {count : Nat}
    (hids : Value.Numbered noteId count c.discussion.noteIds)
    (hstart : c.discussion.StartsSummary s.username (some s.analysis.projectKey))
    (hsummary : Identity.isSummary s.summaryBody (some s.analysis.projectKey) = .ok true) :
    e.StartsSummary s.username (some s.analysis.projectKey) := by
  obtain ⟨first, rest, body, hn, hby, -⟩ := hstart
  have hedited := Discussion.startsSummary_editNote hn hids hby hsummary
  rw [HoldsNewText, firstNoteId_of_notes hn] at he
  rcases he with rfl | ⟨-, rfl⟩
  · exact hedited
  · exact Discussion.startsSummary_congr Discussion.face_resolve hedited

/-- A discussion that a run touches is no open thread of an issue afterwards, unless a summary was
deleted that hid one. -/
theorem Touched.hides_of_isLive (h : s.Touched c (some e)) (hsees : s.Sees p)
    (hsame : s.username.same s.username = true)
    (hsummary : Identity.isSummary s.summaryBody (some s.analysis.projectKey) = .ok true)
    (hc : c ∈ s.discussions) (hlive : e.isLive s.username s.analysis.projectKey key = true) :
    c.discussion.hides s.username s.analysis.projectKey key = true := by
  have hclassify := hsees.classify_of_mem hc
  have hids := hsees.numbered.notes _ (hsees.mem_discussions hc)
  have hdead : ¬e.isLive s.username s.analysis.projectKey key = false := by
    rw [hlive]
    exact Bool.noConfusion
  generalize hx : some e = x at h
  cases h with
  | edited hkind _ he =>
    obtain rfl := Option.some.inj hx
    have hstart := Discussion.startsSummary_of_kind hclassify hkind
    exact absurd (Discussion.isLive_of_startsSummary (he.startsSummary hids hstart hsummary)) hdead
  | deleted hkind hreplies =>
    obtain ⟨first, rest, -, hn, -⟩ := Discussion.startsSummary_of_kind hclassify hkind
    rw [firstNoteId_of_notes hn, Discussion.deleteNote_first hn hids] at hx
    split_ifs at hx
    rw [Option.some.inj hx] at hlive
    rw [Discussion.hides, hclassify]
    dsimp only
    rw [hkind, hreplies, hn, List.tail_cons, hlive]
    rfl
  | flagged hkind =>
    obtain rfl := Option.some.inj hx
    have hstart := Discussion.startsSummary_of_kind hclassify hkind
    refine absurd (Discussion.isLive_of_startsSummary ?_) hdead
    exact Discussion.startsSummary_congr (Discussion.face_addNote _ _ hstart.notes_ne_nil _) hstart
  | @noted n h =>
    obtain rfl := Option.some.inj hx
    obtain ⟨i, -, -, hstart, hopen⟩ := Discussion.startsIssue_of_isLiveIssue hclassify h
    have hclosed := Discussion.classify_addNote_stale (noteId n) hsame hstart hopen
    exact absurd (Discussion.isLive_of_closed hclosed) hdead
  | resolved h =>
    obtain rfl := Option.some.inj hx
    obtain ⟨i, -, -, hstart, -⟩ := Discussion.startsIssue_of_isLiveIssue hclassify h
    exact absurd (Discussion.isLive_of_closed (Discussion.classify_resolve_issue hstart)) hdead

/-- Of the old discussions no more are open threads of an issue than before, and those that were
hidden. -/
theorem Course.countP_carried_le (h : s.Course p rs) (hsame : p.username.same p.username = true)
    (hsummary : Identity.isSummary s.summaryBody (some s.analysis.projectKey) = .ok true)
    (key : String) :
    (p.discussions.filterMap (p.carried rs)).countP
        (·.isLive p.username s.analysis.projectKey key) ≤
      p.liveCount s.analysis.projectKey key +
        p.discussions.countP (·.hides p.username s.analysis.projectKey key) := by
  rw [List.countP_filterMap]
  refine le_trans (List.countP_mono_left ?_) (countP_or_le _ _ _)
  intro d hd hafter
  rw [← h.sees.discussions_eq] at hd
  obtain ⟨c, hc, rfl⟩ := List.mem_map.mp hd
  rw [Bool.or_eq_true]
  rcases h.touched hc with hcarried | htouched
  · rw [hcarried] at hafter
    exact Or.inl hafter
  · cases hcarried : p.carried rs c.discussion with
    | none =>
      rw [hcarried] at hafter
      cases hafter
    | some e =>
      rw [hcarried] at hafter htouched
      rw [← h.sees.username] at hsame hafter ⊢
      exact Or.inr (htouched.hides_of_isLive h.sees hsame hsummary hc hafter)

theorem isLive_of_isThread {i : Issue} {d : Discussion} (ha : s.analysis.IsReadable)
    (hi : i ∈ s.analysis.openIssues) (hd : s.IsThread p i d)
    (hlive : d.isLive p.username s.analysis.projectKey key = true) : i.key = key := by
  obtain ⟨j, rfl, hstart⟩ := Discussion.startsIssue_of_isLive hlive
  obtain ⟨first, rest, body, hn, -, -, hbody, -, hissue⟩ := hstart
  obtain ⟨k, m, -, -, rfl⟩ := hd
  obtain ⟨rfl, -⟩ := List.cons.inj hn
  rw [Discussion.linkText_text rfl] at hbody
  obtain rfl := Except.ok.inj hbody
  cases hnote : s.analysis.issueNote i with
  | ok body =>
    obtain ⟨hmessage, hrule, -, -⟩ := ha.texts i hi
    have hown := (Identity.of_issueNote ha.server ha.project (ha.keys i hi) hmessage hrule hnote).1
    rw [issueBody, hnote] at hissue
    have heq := hown.symm.trans hissue
    rw [← Option.some.inj (Except.ok.inj heq)]
  | error f =>
    -- Nothing is written for such an issue; the empty text names none.
    have hempty : s.issueBody i = "" := by
      rw [issueBody, hnote]
      rfl
    rw [hempty, Identity.issue?, String.toList_empty, ViewLink.targets_nil] at hissue
    cases hissue

/-- Whether an issue is due: it is on a line of the merge request, and has no open thread. -/
theorem Shows.isDue_eq {analysis : Analysis} {config : Config} {iid : Int}
    (h : s.Shows p analysis config iid) (i : Issue) :
    s.isDue p.changeset s.representedKeys i =
      (p.ownsLine i && !s.representedKeys.contains i.key) := by
  rw [isDue, Platform.ownsLine]
  cases i.anchor? with
  | none => rfl
  | some anchor =>
    dsimp only
    rw [isOwnLine, h.commits, Bool.and_comm]

/-- The issues that have open threads are represented, and no others. -/
theorem Sees.mem_representedKeys (h : s.Sees p) :
    key ∈ s.representedKeys ↔ p.liveCount s.analysis.projectKey key ≠ 0 := by
  rw [Platform.liveCount, ← Nat.pos_iff_ne_zero, List.countP_pos_iff, representedKeys,
    List.mem_filterMap]
  constructor
  · rintro ⟨c, hc, hkey⟩
    obtain ⟨hmem, hlive⟩ := List.mem_filter.mp hc
    refine ⟨c.discussion, h.mem_discussions hmem, ?_⟩
    rw [← h.username, Discussion.isLive_of_classify (h.classify_of_mem hmem), hlive, hkey,
      beq_self_eq_true, Bool.and_self]
  · rintro ⟨d, hd, hlive⟩
    rw [← h.discussions_eq] at hd
    obtain ⟨c, hc, rfl⟩ := List.mem_map.mp hd
    rw [← h.username, Discussion.isLive_of_classify (h.classify_of_mem hc), Bool.and_eq_true,
      beq_iff_eq] at hlive
    exact ⟨c, List.mem_filter.mpr ⟨hc, hlive.1⟩, hlive.2⟩

/-- New threads of an issue are opened only if there is none, and then at most one each time that it
is reported on a line of the merge request. -/
theorem Course.countP_newcomers_le {analysis : Analysis} {config : Config} {iid : Int}
    (h : s.Course p rs) (hshows : s.Shows p analysis config iid) (ha : s.analysis.IsReadable)
    (hsummary : Identity.isSummary s.summaryBody (some s.analysis.projectKey) = .ok true)
    (hsame : p.username.same p.username = true) (key : String) :
    (p.newcomers rs).countP (·.isLive p.username s.analysis.projectKey key) ≤
      if p.liveCount s.analysis.projectKey key = 0 then
        s.analysis.openIssues.countP fun i => i.key == key && p.ownsLine i
      else 0 := by
  obtain ⟨done, threads, sums, hdone, hthreads, hsums, hperm⟩ := h.opens
  have hdead : sums.countP (·.isLive p.username s.analysis.projectKey key) = 0 := by
    rw [List.countP_eq_zero]
    intro d hd
    rcases hsums with rfl | ⟨-, -, e, resolved, he, -, rfl⟩
    · cases hd
    · rw [List.mem_singleton.mp hd, Discussion.isLive_of_classify (he.classify_summary hsame hsummary)]
      exact Bool.false_ne_true
  have hdue : done.countP (fun i => i.key == key) ≤
      s.analysis.openIssues.countP fun i => i.key == key &&
        (p.ownsLine i && !s.representedKeys.contains i.key) := by
    refine le_trans hdone.sublist.countP_le ?_
    rw [due, List.countP_filter]
    simp only [hshows.isDue_eq, le_refl]
  have hthread : threads.countP (·.isLive p.username s.analysis.projectKey key) ≤
      done.countP fun i => i.key == key := by
    have hopen : ∀ i ∈ done, i ∈ s.analysis.openIssues :=
      fun i hi => (List.mem_filter.mp (hdone.subset hi)).1
    refine countP_le_of_forall₂ (List.forall₂_and_left _ _ |>.mpr ⟨hopen, hthreads⟩) ?_
    rintro i d ⟨hi, hd⟩ hlive
    exact beq_iff_eq.mpr (isLive_of_isThread ha hi hd hlive)
  rw [hperm.countP_eq, List.countP_append, hdead, Nat.add_zero]
  refine le_trans hthread (le_trans hdue ?_)
  split
  · apply List.countP_mono_left
    intro i _ hi
    rw [Bool.and_eq_true, Bool.and_eq_true] at hi
    rw [hi.1, hi.2.1, Bool.and_self]
  · next hne =>
    rw [Nat.le_zero, List.countP_eq_zero]
    intro i _ hi
    rw [Bool.and_eq_true, Bool.and_eq_true, beq_iff_eq] at hi
    have hmem := h.sees.mem_representedKeys.mpr hne
    rw [hi.1, List.contains_iff_mem.mpr hmem] at hi
    exact Bool.noConfusion hi.2.2

/-- In the end each issue that is due has a thread. -/
theorem le_countP_newcomers_plan {analysis : Analysis} {config : Config} {iid : Int}
    (hsees : s.Sees p) (hshows : s.Shows p analysis config iid) (hready : s.Ready p.changeset)
    (ha : s.analysis.IsReadable) (hsame : p.username.same p.username = true)
    (hnone : p.liveCount s.analysis.projectKey key = 0) :
    (s.analysis.openIssues.countP fun i => i.key == key && p.ownsLine i) ≤
      (p.newcomers (s.plan p.changeset p.opened)).countP
        (·.isLive p.username s.analysis.projectKey key) := by
  obtain ⟨threads, sums, hthreads, -, hperm⟩ := newcomers_plan_all hsees.isApart
  have hdue : (s.analysis.openIssues.countP fun i => i.key == key && p.ownsLine i) ≤
      (s.due p.changeset).countP fun i => i.key == key := by
    rw [due, List.countP_filter]
    apply List.countP_mono_left
    intro i _ hi
    rw [Bool.and_eq_true, beq_iff_eq] at hi
    have hfree : s.representedKeys.contains i.key = false := by
      rw [← Bool.not_eq_true, List.contains_iff_mem, hsees.mem_representedKeys, hi.1, hnone]
      exact fun h => h rfl
    rw [hshows.isDue_eq, hfree, hi.1, hi.2, beq_self_eq_true]
    rfl
  have hthread : (s.due p.changeset).countP (fun i => i.key == key) ≤
      threads.countP (·.isLive p.username s.analysis.projectKey key) := by
    refine countP_le_of_forall₂ (R := fun d i => i ∈ s.due p.changeset ∧ s.IsThread p i d) ?_ ?_
    · exact ((List.forall₂_and_left _ _).mpr ⟨fun _ => id, hthreads⟩).flip
    · rintro d i ⟨hi, hd⟩ hkey
      obtain ⟨hopen, hisDue⟩ := List.mem_filter.mp hi
      obtain ⟨body, hbody⟩ := hready.notes i hopen hisDue
      obtain ⟨hmessage, hrule, -, -⟩ := ha.texts i hopen
      obtain ⟨hissue, hsummary⟩ :=
        Identity.of_issueNote ha.server ha.project (ha.keys i hopen) hmessage hrule hbody
      have heq : s.issueBody i = body := by
        rw [issueBody, hbody]
        rfl
      rw [IsThread, heq] at hd
      rw [Discussion.isLive_of_classify (hd.classify_issue hsame (hsummary _) hissue)]
      simpa [Classified.isLiveIssue, Classified.issueKey?] using hkey
  rw [hperm.countP_eq, List.countP_append]
  exact le_trans hdue (le_trans hthread (Nat.le_add_right ..))

end Snapshot

section

variable {w : Watched} {analysis : Analysis} {project : String} {config : Config} {number : Value}

/-- Wherever a run ends, an issue has no more open threads than before, if it had some; if it had
none, it has at most as many as the times that it is reported on lines of the merge request, and just
so many if the run succeeds. To this come the threads that were hidden by summaries without
replies. -/
theorem liveCount_decorate (outage : Outage) (hp : w.platform.IsNumbered)
    (hsame : w.platform.username.same w.platform.username = true)
    (ha : (analysis.withServer config).IsReadable) (key : String) :
    let run := (decorate analysis project config number).run (Watched.backend outage) w
    let before := w.platform.liveCount analysis.projectKey key
    let after := run.2.platform.liveCount analysis.projectKey key
    let reported := analysis.openIssues.countP fun i => i.key == key && w.platform.ownsLine i
    let hidden := w.platform.discussions.countP
      (·.hides w.platform.username analysis.projectKey key)
    after ≤ (if before = 0 then reported else before) + hidden ∧
      (run.1.isOk = true → before = 0 → reported ≤ after) := by
  intro run before after reported hidden
  rcases course_decorate analysis project config number outage hp with ⟨hfail, hplatform⟩ |
    ⟨s, iid, rs, hshows, hcourse, hplatform, hok⟩
  · have hafter : after = before := congrArg (Platform.liveCount · analysis.projectKey key) hplatform
    refine ⟨?_, fun h => ?_⟩
    · rw [hafter]
      split_ifs <;> omega
    · rw [hfail] at h
      cases h
  · have hprojectKey := hshows.projectKey
    have hissues := hshows.openIssues
    rw [← hshows.analysis] at ha
    have hsummary := Snapshot.isSummary_summaryBody ha
    have hafter : after = (w.platform.discussions.filterMap (w.platform.carried rs)).countP
          (·.isLive w.platform.username s.analysis.projectKey key) +
        (w.platform.newcomers rs).countP
          (·.isLive w.platform.username s.analysis.projectKey key) := by
      rw [← List.countP_append, ← Platform.discussions_after, hprojectKey]
      dsimp only [after, Platform.liveCount, run]
      rw [hplatform, Platform.username_after]
    have hcarried := hcourse.countP_carried_le hsame hsummary key
    have hnewcomers := hcourse.countP_newcomers_le hshows ha hsummary hsame key
    rw [hissues] at hnewcomers
    rw [hprojectKey] at hafter hcarried hnewcomers
    refine ⟨?_, fun hsuccess hnone => ?_⟩
    · rw [hafter]
      dsimp only [before, reported, hidden]
      split_ifs at hnewcomers ⊢ <;> omega
    · obtain ⟨hready, rfl⟩ := hok hsuccess
      have hleast := Snapshot.le_countP_newcomers_plan hcourse.sees hshows hready ha hsame
        (show w.platform.liveCount s.analysis.projectKey key = 0 from hprojectKey ▸ hnone)
      rw [hissues, hprojectKey] at hleast
      rw [hafter]
      exact le_trans hleast (Nat.le_add_left ..)

/-- A run that is broken off between two new threads leaves the one of the first issue. -/
theorem liveCount_decorate_between_threads :
    let outage : Outage := fun asked _ => if asked.length = 7 then some "down" else none
    let run := (decorate sampleReport "g/p" []).run (Watched.backend outage) sampleWatched
    run.1.isOk = false ∧ run.2.platform.liveCount "p k" "k&1" = 1 ∧
      run.2.platform.liveCount "p k" "k&1" ≤ 1 := by
  intro outage run
  refine ⟨by decide +kernel, by decide +kernel, ?_⟩
  refine le_trans (liveCount_decorate outage isRegular_sampleWatched.numbered
    isRegular_sampleWatched.username isReadable_sampleReport "k&1").1 ?_
  decide +kernel

/-- A report that names an issue twice, on lines of the merge request, makes two threads of it. -/
theorem liveCount_decorate_doubled :
    let entry (line : Int) : Value := .map
      [(.text "key", .text "k"), (.text "line", .int line), (.text "path", .text "a.py")]
    let data : Value := .map [(.text "project_key", .text "p"), (.text "pull_request_id", .text "7"),
      (.text "server_url", .text "http://x"), (.text "issues", .list [entry 3, entry 5])]
    let report : Analysis := {
      projectKey := "p"
      pullRequestId := "7"
      commitSha := ""
      gate := .error
      serverUrl := .text "http://x"
      issues := [
        { key := "k", line := some 3, path := .text "a.py" },
        { key := "k", line := some 5, path := .text "a.py" }] }
    let w : Watched := { platform := { sampleWatched.platform with discussions := [] } }
    let run := (decorate report "g/p" []).run (Watched.backend .never) w
    Analysis.ofValue data = .ok report ∧ (report.withServer []).IsReadable ∧
      w.platform.IsRegular ∧ (∀ key, w.platform.liveCount "p" key = 0) ∧
      run.1.isOk = true ∧ 1 < run.2.platform.liveCount "p" "k" := by
  intro entry data report w run
  have hreadable : (report.withServer []).IsReadable :=
    ⟨⟨_, rfl, List.all_eq_true.mp (by decide)⟩, by decide, by decide, by decide⟩
  have hregular : w.platform.IsRegular :=
    ⟨⟨Platform.numbered_ints [] List.nodup_nil _, fun d hd => absurd hd List.not_mem_nil⟩,
      Value.same_text .., fun d hd => absurd hd List.not_mem_nil⟩
  have hthreads : (run.2.platform.discussions.take 2).countP
      (·.isLive run.2.platform.username "p" "k") = 2 := by decide +kernel
  have hall : 2 ≤ run.2.platform.liveCount "p" "k" :=
    hthreads ▸ (List.take_sublist 2 _).countP_le
  exact ⟨by cbv, hreadable, hregular, fun _ => rfl, by decide +kernel, hall⟩

end
end MergeDecoration
