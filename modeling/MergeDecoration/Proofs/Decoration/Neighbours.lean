import MergeDecoration.Proofs.Decoration.Course
import MergeDecoration.Proofs.Decoration.Mirror
import MergeDecoration.Proofs.Decoration.Ownership
import MergeDecoration.Proofs.Decoration.Reading

/-!
Two projects on one merge request. Wherever a run on one of them ends, it has touched and opened only
what runs on the other leave alone, so those go on as if it had not been.
-/
namespace MergeDecoration

open Program
open Platform (noteId)

namespace Snapshot

variable {s : Snapshot} {p : Platform} {rs : List Request} {c : Classified} {x : Option Discussion}
  {other : String}

theorem isOf_issueBody {i : Issue} (ha : s.analysis.IsReadable) (hi : i ∈ s.analysis.openIssues) :
    Identity.IsOf (s.issueBody i) s.analysis.projectKey := by
  rw [issueBody]
  cases hnote : s.analysis.issueNote i with
  | error e => exact Identity.isOf_empty _
  | ok body =>
    obtain ⟨hmessage, hrule, -, -⟩ := ha.texts i hi
    obtain ⟨hissue, hsummary⟩ :=
      Identity.of_issueNote ha.server ha.project (ha.keys i hi) hmessage hrule hnote
    refine ⟨fun other _ => hsummary _, _, hissue, ?_⟩
    rintro i hi
    rw [← Option.some.inj hi]

theorem isOf_summaryBody (ha : s.analysis.IsReadable) :
    Identity.IsOf s.summaryBody s.analysis.projectKey := by
  obtain ⟨body, hbody, hissue, hsummary⟩ := ha.summaryNote
  have heq : s.summaryBody = body := by
    rw [summaryBody, hbody]
    rfl
  rw [heq]
  refine ⟨fun other hne => ?_, none, hissue, fun i hi => ?_⟩
  · rw [hsummary]
    simp [hne]
  · cases hi

/-- A discussion that a run touches is left alone by the runs on other projects, before and after. -/
theorem Touched.isIdle (h : s.Touched c x) (hsees : s.Sees p) (hp : p.IsRegular)
    (hlinks : ∀ d ∈ p.discussions, d.HasOneLink p.username) (ha : s.analysis.IsReadable)
    (hc : c ∈ s.discussions) (hne : other ≠ s.analysis.projectKey) :
    c.discussion.isIdle s.username other = true ∧
      ∀ e, x = some e → e.isIdle s.username other = true := by
  have hclassify := hsees.classify_of_mem hc
  have hmem := hsees.mem_discussions hc
  have hids := hp.numbered.notes _ hmem
  have hsame : s.username.same s.username = true := by
    rw [hsees.username]
    exact hp.username
  have hone : c.discussion.HasOneLink s.username := by
    rw [hsees.username]
    exact hlinks _ hmem
  have hissue : c.isLiveIssue s.analysis.projectKey = true →
      c.discussion.IsOf s.username s.analysis.projectKey :=
    Discussion.isOf_of_isLiveIssue hone hclassify
  have hsummary : c.kind = .summary → s.isFlagged c = .ok false →
      c.discussion.IsOf s.username s.analysis.projectKey := by
    intro hkind hflag
    rw [isFlagged] at hflag
    exact Discussion.isOf_of_kind hone hclassify hkind (Discussion.legible_of_hasNote hflag)
  -- A discussion that is the project's before and after is left alone by others.
  have hkept : ∀ e : Discussion, c.discussion.IsOf s.username s.analysis.projectKey →
      e.IsOf s.username s.analysis.projectKey → c.discussion.isIdle s.username other = true ∧
        ∀ e', some e = some e' → e'.isIdle s.username other = true := by
    intro e hbefore hafter
    refine ⟨hbefore.isIdle hne, fun e' he' => ?_⟩
    rw [← Option.some.inj he']
    exact hafter.isIdle hne
  cases h with
  | @edited e hkind hflag he =>
    have hbefore := hsummary hkind hflag
    obtain ⟨first, rest, -, hn, -⟩ := hbefore.starts
    have hafter := hbefore.editNote hn hids (isOf_summaryBody ha)
    rw [HoldsNewText, firstNoteId_of_notes hn] at he
    refine hkept e hbefore ?_
    rcases he with rfl | ⟨-, rfl⟩
    · exact hafter
    · exact hafter.resolve
  | deleted hkind hreplies =>
    -- Later notes that are no replies are system notes, and those are plain texts.
    have hsystem := hp.system _ hmem
    constructor
    · refine (Discussion.isOf_of_kind hone hclassify hkind
        (Discussion.hasLaterNote_of_texts ?_ _)).isIdle hne
      intro n htail
      obtain ⟨text, htext, -⟩ := hsystem n (List.mem_of_mem_tail htail)
        (Discussion.system_of_mem_tail hreplies htail)
      exact ⟨text, htext⟩
    · intro e he
      obtain ⟨first, rest, -, hn, -⟩ := Discussion.startsSummary_of_kind hclassify hkind
      rw [firstNoteId_of_notes hn] at he
      obtain ⟨k, hk, hidle⟩ := Discussion.classify_system s.username (some other)
        (Discussion.system_of_deleteNote hn hids hreplies hsystem he) other
      rw [Discussion.isIdle_of_classify hk, Classified.isIdle_iff]
      exact hidle
  | flagged hkind hflag =>
    exact hkept _ (hsummary hkind hflag) ((hsummary hkind hflag).addNote hsame _ _)
  | noted hlive => exact hkept _ (hissue hlive) ((hissue hlive).addNote hsame _ _)
  | resolved hlive => exact hkept _ (hissue hlive) (hissue hlive).resolve

/-- What a run opens is left alone by the runs on other projects. -/
theorem Course.isIdle_newcomer {d : Discussion} (h : s.Course p rs)
    (hsame : p.username.same p.username = true) (ha : s.analysis.IsReadable)
    (hne : other ≠ s.analysis.projectKey) (hd : d ∈ p.newcomers rs) :
    d.isIdle p.username other = true := by
  obtain ⟨done, threads, sums, hdone, hthreads, hsums, hperm⟩ := h.opens
  rcases List.mem_append.mp (hperm.subset hd) with hd | hd
  · obtain ⟨i, hi, hthread⟩ := exists_of_mem_of_forall₂ hthreads hd
    have hopen := (List.mem_filter.mp (hdone.subset hi)).1
    exact (hthread.isOf hsame (isOf_issueBody ha hopen)).isIdle hne
  · rcases hsums with rfl | ⟨-, -, e, resolved, he, -, rfl⟩
    · cases hd
    · rw [List.mem_singleton.mp hd]
      exact (he.isOf hsame (isOf_summaryBody ha)).isIdle hne

/-- Of what the runs on another project do not leave alone, nothing changes. -/
theorem Course.filter_after (h : s.Course p rs) (hp : p.IsRegular)
    (hlinks : ∀ d ∈ p.discussions, d.HasOneLink p.username) (ha : s.analysis.IsReadable)
    (hne : other ≠ s.analysis.projectKey) :
    (p.after rs).discussions.filter (!·.isIdle p.username other) =
      p.discussions.filter (!·.isIdle p.username other) := by
  have hnew : (p.newcomers rs).filter (!·.isIdle p.username other) = [] := by
    rw [List.filter_eq_nil_iff]
    intro d hd
    rw [h.isIdle_newcomer hp.username ha hne hd]
    exact Bool.false_ne_true
  rw [Platform.discussions_after, List.filter_append, hnew, List.append_nil]
  apply filter_filterMap
  intro d hd
  rw [← h.sees.discussions_eq] at hd
  obtain ⟨c, hc, rfl⟩ := List.mem_map.mp hd
  rcases h.touched hc with hsame | htouched
  · exact Or.inl hsame
  · obtain ⟨hbefore, hafter⟩ := htouched.isIdle h.sees hp hlinks ha hc hne
    rw [h.sees.username] at hbefore hafter
    refine Or.inr ⟨by rw [hbefore]; rfl, fun e he => ?_⟩
    rw [hafter e he]
    rfl

end Snapshot

namespace Platform

variable {p q : Platform}

/-- Platforms that differ in their discussions at most, and in how many were opened. -/
structure Agrees (p q : Platform) : Prop where
  username : q.username = p.username
  mergeRequest : q.mergeRequest = p.mergeRequest
  commits : q.commits = p.commits
  changeset : q.changeset = p.changeset

theorem agrees_after (p : Platform) (rs : List Request) : p.Agrees (p.after rs) :=
  ⟨username_after p rs, mergeRequest_after p rs, commits_after p rs, changeset_after p rs⟩

namespace Agrees

theorem answer (h : p.Agrees q) (r u : Request) : (p.answer r).2.Agrees (q.answer u).2 := by
  constructor
  · rw [username_answer, username_answer, h.username]
  · rw [mergeRequest_answer, mergeRequest_answer, h.mergeRequest]
  · rw [commits_answer, commits_answer, h.commits]
  · rw [changeset_answer, changeset_answer, h.changeset]

/-- All but the discussions is answered alike. -/
theorem reply {r : Request} (h : p.Agrees q) (hopening : r.isOpening = false)
    (hlisting : r.isListing = false) : (p.answer r).1 = (q.answer r).1 := by
  cases r with
  | mergeRequest project iid => exact (congrFun h.mergeRequest iid).symm
  | currentUser => exact congrArg (fun name => (⟨name, .int 1⟩ : User)) h.username.symm
  | commits => exact h.commits.symm
  | discussions => cases hlisting
  | createDiscussion => cases hopening
  | changeset path line => exact (congrFun (congrFun h.changeset path) line).symm
  | _ => rfl

end Agrees
end Platform

/-- The backend whose failures depend on how many requests there were before, and on nothing else. -/
def Watched.failing (fails : Nat → Option String) : Backend Watched :=
  Watched.backend fun asked _ => fails asked.length

/-- Two platforms that agree, watched for equally many requests. -/
structure Watched.Beside (w v : Watched) : Prop where
  platform : w.platform.Agrees v.platform
  count : w.requests.length = v.requests.length

namespace Watched

variable {w v : Watched} (fails : Nat → Option String)

/-- Both requests fail with the same text, or both are answered by their platforms. -/
theorem Beside.answer (h : w.Beside v) (r u : Request) :
    ((∃ m, ((failing fails).answer r w).1 = .error (.transport m) ∧
        ((failing fails).answer u v).1 = .error (.transport m)) ∨
      ((failing fails).answer r w).1 = .ok (w.platform.answer r).1 ∧
        ((failing fails).answer u v).1 = .ok (v.platform.answer u).1) ∧
    ((failing fails).answer r w).2.Beside ((failing fails).answer u v).2 := by
  have hcount : (w.requests ++ [r]).length = (v.requests ++ [u]).length := by
    rw [List.length_append, List.length_append, h.count]
    rfl
  cases hfail : fails w.requests.length with
  | some m =>
    have hfail' := hfail
    rw [h.count] at hfail'
    simp only [failing, backend, hfail, hfail']
    exact ⟨Or.inl ⟨m, rfl, rfl⟩, h.platform, hcount⟩
  | none =>
    have hfail' := hfail
    rw [h.count] at hfail'
    simp only [failing, backend, hfail, hfail']
    exact ⟨Or.inr ⟨trivial, trivial⟩, h.platform.answer r u, hcount⟩

theorem platform_of_not_isWrite {r : Request} (h : r.isWrite = false) :
    ((failing fails).answer r w).2.platform = w.platform := by
  simp only [failing, backend]
  cases fails w.requests.length with
  | some m => rfl
  | none => exact Platform.answer_of_not_isWrite h

theorem readsAlike_failing (p q : Platform) :
    (failing fails).ReadsAlike (failing fails)
      (fun w v => w.platform = p ∧ v.platform = q ∧ w.Beside v)
      fun ds ds' => ds = p.discussions ∧ ds' = q.discussions := by
  constructor
  · rintro r w v hw hlisting ⟨rfl, rfl, h⟩
    obtain ⟨hanswer, hnext⟩ := h.answer fails r r
    refine ⟨?_, platform_of_not_isWrite fails hw, platform_of_not_isWrite fails hw, hnext⟩
    have hopening : r.isOpening = false := by
      cases r with
      | createDiscussion => cases hw
      | _ => rfl
    rcases hanswer with ⟨m, hm, hm'⟩ | ⟨hok, hok'⟩
    · rw [hm, hm']
    · rw [hok, hok', h.platform.reply hopening hlisting]
  · rintro project iid w v ⟨rfl, rfl, h⟩
    obtain ⟨hanswer, hnext⟩ := h.answer fails (.discussions project iid)
      (.discussions project iid)
    refine ⟨?_, platform_of_not_isWrite fails rfl, platform_of_not_isWrite fails rfl, hnext⟩
    rcases hanswer with ⟨m, hm, hm'⟩ | ⟨hok, hok'⟩
    · exact Or.inl ⟨_, hm, hm'⟩
    · exact Or.inr ⟨_, _, hok, hok', rfl, rfl⟩

theorem mirrors_failing (R : Value → Value → Prop) :
    (failing fails).Mirrors (failing fails) R (fun _ => True) Beside := by
  constructor
  · exact fun l w v h => ⟨h.platform, h.count⟩
  · intro r w v hopening hlisting h _
    obtain ⟨hanswer, hnext⟩ := h.answer fails r r
    refine ⟨?_, hnext⟩
    rcases hanswer with ⟨m, hm, hm'⟩ | ⟨hok, hok'⟩
    · rw [hm, hm']
    · rw [hok, hok', h.platform.reply hopening hlisting]
  · intro project iid v v' w w' _ h _
    obtain ⟨hanswer, hnext⟩ := h.answer fails (.resolve project iid v)
      (.resolve project iid v')
    refine ⟨?_, hnext⟩
    rcases hanswer with ⟨m, hm, hm'⟩ | ⟨hok, hok'⟩
    · exact hm.trans hm'.symm
    · exact hok.trans hok'.symm
  · intro project iid note w v h _
    obtain ⟨hanswer, hnext⟩ := h.answer fails (.createDiscussion project iid note)
      (.createDiscussion project iid note)
    refine ⟨?_, hnext⟩
    rcases hanswer with ⟨m, hm, hm'⟩ | ⟨hok, hok'⟩
    · exact Or.inl ⟨_, hm, hm'⟩
    · exact Or.inr ⟨_, _, hok, hok'⟩

theorem username_of_answer {user : User}
    (h : ((failing fails).answer .currentUser w).1 = .ok user) :
    user.username = w.platform.username := by
  simp only [failing, backend] at h
  split at h
  · cases h
  · rw [← Except.ok.inj h]
    rfl

theorem isDeaf_failing : (failing fails).IsDeaf
    fun w v => w.platform = v.platform ∧ w.requests = v.requests := by
  constructor
  · rintro r ⟨p, requests, records⟩ ⟨_, _, records'⟩ ⟨rfl, rfl⟩
    simp only [failing, backend]
    cases fails requests.length with
    | some m => exact ⟨rfl, rfl, rfl⟩
    | none => exact ⟨rfl, rfl, rfl⟩
  · exact fun l w v h => h

/-- Programs that are alike without their log have conversations that are alike beside each other. -/
theorem Beside.trace_alike {α : Type} {R : Value → Value → Prop} {prog prog' : Program α}
    (h : w.Beside v) (halike : prog.quiet.Alike R Eq prog'.quiet)
    (hR : ∀ x x', Opened (prog.trace (failing fails) w) (prog'.trace (failing fails) v) x x' →
      R x x') :
    List.Forall₂ (Exchange.Alike R) (prog.trace (failing fails) w) (prog'.trace (failing fails) v) ∧
      (prog.run (failing fails) w).1 = (prog'.run (failing fails) v).1 := by
  obtain ⟨htrace, hrun, -⟩ := trace_quiet (isDeaf_failing fails) prog (w := w) ⟨rfl, rfl⟩
  obtain ⟨htrace', hrun', -⟩ := trace_quiet (isDeaf_failing fails) prog' (w := v) ⟨rfl, rfl⟩
  rw [htrace, htrace'] at hR ⊢
  rw [hrun, hrun']
  exact halike.trace (mirrors_failing fails R) h (fun _ _ => trivial) hR

end Watched

/-- Whatever else there is, runs that are shown the same of what they do not leave alone go on
alike. -/
theorem Readings.alike_of_seen (g : Readings) {analysis : Analysis} {config : Config}
    {ds : List Discussion} {R : Value → Value → Prop}
    (hseen : ds.filter (!·.isIdle g.user.username (analysis.withServer config).projectKey) =
      g.discussions.filter (!·.isIdle g.user.username (analysis.withServer config).projectKey))
    (hR : ∀ d ∈ g.discussions, R d.id d.id) :
    (g.writing analysis config).quiet.Alike R Eq ((g.showing ds).writing analysis config).quiet := by
  have hquiet : ((g.showing (ds.filter
      (!·.isIdle g.user.username (analysis.withServer config).projectKey))).writing
        analysis config).quiet = ((g.showing ds).writing analysis config).quiet :=
    quiet_writing_filter (g.showing ds) analysis config
  rw [← quiet_writing_filter g, ← hquiet, hseen]
  refine (alike_writing _ analysis config fun d hd _ _ _ => ?_).quiet
  exact hR d (List.mem_filter.mp hd).1

section

variable {analysis other : Analysis} {project project' : String} {config config' : Config}
  {number number' : Value} {p q : Platform}

/-- Runs on platforms that agree, and that show the same of what the runs do not leave alone, ask
alike and end alike. -/
theorem decorate_agrees (fails : Nat → Option String) (h : p.Agrees q)
    (hseen : q.discussions.filter (!·.isIdle p.username (analysis.withServer config).projectKey) =
      p.discussions.filter (!·.isIdle p.username (analysis.withServer config).projectKey)) :
    let run := decorate analysis project config number
    let b := Watched.failing fails
    let t := run.trace b { platform := p }
    let t' := run.trace b { platform := q }
    (run.run b { platform := p }).1 = (run.run b { platform := q }).1 ∧
    List.Forall₂ (Request.Alike fun v v' =>
        (v = v' ∧ ∃ d ∈ p.discussions, d.id = v) ∨ Opened t t' v v')
      (run.asked b { platform := p }) (run.asked b { platform := q }) := by
  intro run b t t'
  generalize hR : (fun v v' => (v = v' ∧ ∃ d ∈ p.discussions, d.id = v) ∨ Opened t t' v v') = R
  rw [← map_request_trace, ← map_request_trace]
  have hstart : ({ platform := p } : Watched).platform = p ∧
      ({ platform := q } : Watched).platform = q ∧
      ({ platform := p } : Watched).Beside { platform := q } := ⟨rfl, rfl, h, rfl⟩
  rcases decorate_readsAlike (Watched.readsAlike_failing fails p q) hstart analysis project config
      number with
    ⟨f, reads, v, v', -, ⟨hrun, htrace⟩, ⟨hrun', htrace'⟩, hnone⟩ |
    ⟨g, _, v, v', ⟨-, -, hbeside⟩, ⟨hp, rfl⟩, ⟨u, u', ⟨hu, -⟩, huser⟩, ⟨hrun, htrace⟩,
      ⟨hrun', htrace'⟩⟩
  · change run.run b _ = _ at hrun hrun'
    change run.trace b _ = _ at htrace htrace'
    rw [hrun, hrun', htrace, htrace', trace, trace, List.append_nil]
    refine ⟨rfl, List.forall₂_same.mpr fun r hr => .same (Request.related_of_none ?_)⟩
    obtain ⟨e, he, rfl⟩ := List.mem_map.mp hr
    exact Request.target?_of_not_isWrite (hnone e he)
  · change run.run b _ = _ at hrun hrun'
    change run.trace b _ = _ at htrace htrace'
    have hname : g.user.username = p.username := by
      rw [Watched.username_of_answer fails huser, hu]
    have hlist : ∀ d ∈ g.discussions, R d.id d.id := by
      intro d hd
      rw [← hR]
      exact Or.inl ⟨rfl, d, hp ▸ hd, rfl⟩
    have hnew : ∀ x x', Opened ((g.writing analysis config).trace b v)
        (((g.showing q.discussions).writing analysis config).trace b v') x x' → R x x' := by
      intro x x' hx
      have hopened : Opened t t' x x' := by
        dsimp only [t, t']
        rw [htrace, htrace']
        exact hx.after_readings g _ project
      rw [← hR]
      exact Or.inr hopened
    rw [← hname, ← hp] at hseen
    obtain ⟨halike, hresult⟩ := hbeside.trace_alike fails (g.alike_of_seen hseen hlist) hnew
    rw [hrun, hrun', htrace, htrace', List.map_append, List.map_append]
    refine ⟨hresult, List.rel_append ?_ ?_⟩
    · refine List.forall₂_same.mpr fun r hr => .same (Request.related_of_none ?_)
      obtain ⟨e, he, rfl⟩ := List.mem_map.mp hr
      exact Readings.target?_of_mem_exchanges he
    · rw [List.forall₂_map_left_iff, List.forall₂_map_right_iff]
      exact halike.imp fun _ _ he => he.request

/-- Wherever a run on a project ends, one on another project goes on as it would have without it: it
asks the same, but for the ids of what it opens itself, and ends with the same result or failure. -/
theorem decorate_beside (outage : Outage) (fails : Nat → Option String) (hp : p.IsRegular)
    (hlinks : ∀ d ∈ p.discussions, d.HasOneLink p.username)
    (ha : (analysis.withServer config).IsReadable) (hne : other.projectKey ≠ analysis.projectKey) :
    let after := ((decorate analysis project config number).run (Watched.backend outage)
      { platform := p }).2.platform
    let run := decorate other project' config' number'
    let b := Watched.failing fails
    let t := run.trace b { platform := p }
    let t' := run.trace b { platform := after }
    (run.run b { platform := p }).1 = (run.run b { platform := after }).1 ∧
    List.Forall₂ (Request.Alike fun v v' =>
        (v = v' ∧ ∃ d ∈ p.discussions, d.id = v) ∨ Opened t t' v v')
      (run.asked b { platform := p }) (run.asked b { platform := after }) := by
  intro after
  have hnumbered : ({ platform := p } : Watched).platform.IsNumbered := hp.numbered
  rcases course_decorate analysis project config number outage hnumbered with ⟨-, hafter⟩ |
    ⟨s, iid, rs, hshows, hcourse, hafter, -⟩
  · change after = p at hafter
    rw [hafter]
    exact decorate_agrees fails ⟨rfl, rfl, rfl, rfl⟩ rfl
  · change after = p.after rs at hafter
    change s.Course p rs at hcourse
    rw [hafter]
    refine decorate_agrees fails (p.agrees_after rs) ?_
    rw [Analysis.projectKey_withServer]
    rw [← hshows.analysis] at ha
    refine hcourse.filter_after hp hlinks ha ?_
    rw [hshows.projectKey]
    exact hne

/-- A run that is broken off when it has opened a thread, and one on another project that opens and
resolves a summary. -/
theorem decorate_beside_broken_off :
    let p := sampleWatched.platform
    let outage : Outage := fun asked _ => if asked.length = 7 then some "down" else none
    let after := ((decorate sampleReport "g/p" []).run (Watched.backend outage)
      { platform := p }).2.platform
    let run := decorate { sampleReport with projectKey := "q" } "g/p" []
    let b := Watched.failing fun _ => none
    let t := run.trace b { platform := p }
    let t' := run.trace b { platform := after }
    (p.discussions.length, after.discussions.length) = (2, 3) ∧
    (run.run b { platform := p }).1.isOk = true ∧
    (run.run b { platform := p }).1 = (run.run b { platform := after }).1 ∧
    List.Forall₂ (Request.Alike fun v v' =>
        (v = v' ∧ ∃ d ∈ p.discussions, d.id = v) ∨ Opened t t' v v')
      (run.asked b { platform := p }) (run.asked b { platform := after }) := by
  intro p outage after run b t t'
  have hlinks : ∀ d ∈ p.discussions, d.HasOneLink p.username := by
    have hlist : p.discussions = sampleWatched.platform.discussions := rfl
    intro d hd first rest body hn hby hbody
    rw [hlist] at hd
    simp only [sampleWatched, List.mem_cons, List.not_mem_nil, or_false] at hd
    rcases hd with rfl | rfl
    · obtain ⟨rfl, -⟩ := List.cons.inj hn
      exact absurd hby (by decide +kernel)
    · obtain ⟨rfl, -⟩ := List.cons.inj hn
      rw [Discussion.linkText_text rfl] at hbody
      rw [← Except.ok.inj hbody]
      decide +kernel
  exact ⟨by decide +kernel, by decide +kernel, decorate_beside outage _ isRegular_sampleWatched
    hlinks isReadable_sampleReport (by decide)⟩

end
end MergeDecoration
