import MergeDecoration.Proofs.Decoration.Creation

/-!
Which discussions a run that succeeds ends: the open threads of the project whose issue is gone. A
thread in which only system notes follow is resolved, and one with replies gets a note.
-/
namespace MergeDecoration

open Program

attribute [local irreducible] Program.Completes

/-- Whether the user wrote a text that satisfies `q`, up to white space around it. -/
def Note.tells (n : Note) (user : Value) (q : String → Bool) : Bool :=
  n.isBy user && match n.body with
    | .text s => q (Text.trim s)
    | _ => false

namespace Discussion

variable {d : Discussion} {user : Value} {project : String} {i : IssueIdentity}

/-- What was looked for among the later notes of the user was found if one of them tells it. -/
theorem eq_any_of_hasLaterNote {q : String → Bool} {found : Bool}
    (h : d.hasLaterNote user q = .ok found) : found = d.notes.tail.any (·.tells user q) := by
  unfold hasLaterNote at h
  generalize d.notes.tail = later at h ⊢
  induction later with
  | nil => exact (Except.ok.inj h).symm
  | cons n ns ih =>
    rw [List.anyM_cons] at h
    obtain ⟨first, hfirst, hrest⟩ := bind_eq_ok.mp h
    have htells : n.tells user q = first := by
      split at hfirst
      · next hby =>
        obtain ⟨text, htext, hq⟩ := bind_eq_ok.mp hfirst
        rw [Note.tells, hby, ← Except.ok.inj hq]
        cases hbody : n.body with
        | text s =>
          rw [hbody] at htext
          rw [← Except.ok.inj htext, Bool.true_and]
        | _ =>
          rw [hbody] at htext
          cases htext
      · next hby =>
        rw [Note.tells, (Bool.not_eq_true _).mp hby, ← Except.ok.inj hfirst, Bool.false_and]
    rw [List.any_cons, htells]
    cases first with
    | true => exact (Except.ok.inj hrest).symm
    | false => exact ih hrest

/-- There are no replies if all later notes are system notes. -/
theorem isEmpty_replies (d : Discussion) : d.replies.isEmpty = d.notes.tail.all (·.system) := by
  rw [replies, Bool.eq_iff_iff, List.isEmpty_iff, List.filter_eq_nil_iff, List.all_eq_true]
  simp

/-- The issue whose thread the discussion is: its first note is a resolvable one of the user, no
summary, and has a link to the issue. -/
def thread? (d : Discussion) (user : Value) (project : String) : Option IssueIdentity :=
  match d.notes with
  | [] => none
  | first :: _ =>
    match first.isBy user && first.resolvable, first.linkText with
    | true, .ok body =>
      match Identity.isSummary body (some project), Identity.issue? body with
      | .ok false, .ok found => found
      | _, _ => none
    | _, _ => none

theorem thread?_eq_some_iff :
    d.thread? user project = some i ↔ d.StartsIssue user (some project) i := by
  unfold thread?
  constructor
  · intro h
    split at h
    · cases h
    · next first rest hn =>
      split at h
      · next body hown hbody =>
        split at h
        · next found hsummary hissue =>
          rw [Bool.and_eq_true] at hown
          exact ⟨first, rest, body, hn, hown.1, hown.2, hbody, hsummary, h ▸ hissue⟩
        · cases h
      · cases h
  · rintro ⟨first, rest, body, hn, hby, hresolvable, hbody, hsummary, hissue⟩
    simp only [hn, hby, hresolvable, hbody, hsummary, hissue, Bool.and_self]

/-- Whether the discussion is the thread of an issue of the project with none of the keys, and
neither resolved nor acknowledged by the user to be done with. -/
def isStale (d : Discussion) (user : Value) (project : String) (keys : List String) : Bool :=
  (d.thread? user project).any (fun i => i.project == some project && !keys.contains i.issue) &&
    !d.resolved && !d.notes.tail.any (·.tells user isAcknowledgement)

/-- The request that ends a stale discussion: it is resolved if only system notes follow the first
one. -/
def ending (d : Discussion) (m : MergeRequest) : Request :=
  if d.notes.tail.all (·.system) then .resolve m.targetProject m.iid d.id
  else .addNote m.targetProject m.iid d.id staleIssueNote

theorem issue_notMem_of_isStale {keys : List String} (h : d.isStale user project keys = true)
    (hi : d.thread? user project = some i) : i.issue ∉ keys := by
  rw [isStale, hi, Option.any_some, Bool.and_eq_true, Bool.and_eq_true, Bool.and_eq_true,
    Bool.not_eq_true'] at h
  intro hmem
  rw [List.contains_iff_mem.mpr hmem] at h
  exact Bool.noConfusion h.1.1.2

/-- What is classified as having no issue is no thread. -/
theorem thread?_of_identity {c : Classified} (h : d.classify user (some project) = .ok c)
    (hnone : c.identity = none) : d.thread? user project = none := by
  rw [Option.eq_none_iff_forall_ne_some]
  intro i hi
  have hstart := thread?_eq_some_iff.mp hi
  cases hclosed : d.isClosed user with
  | ok closed =>
    rw [classify_of_startsIssue hstart hclosed] at h
    rw [← Except.ok.inj h] at hnone
    cases hnone
  | error e =>
    obtain ⟨first, rest, body, hn, hby, hresolvable, hbody, hsummary, hissue⟩ := hstart
    simp only [classify, hn, hby, hresolvable, hbody, hsummary, hissue, hclosed, Bind.bind,
      Except.bind, Except.mapError, Bool.not_true, Bool.false_eq_true, if_false] at h
    cases h

theorem isClosed_eq {closed : Bool} (h : d.isClosed user = .ok closed) :
    closed = (d.resolved || d.notes.tail.any (·.tells user isAcknowledgement)) := by
  unfold isClosed at h
  split at h
  · next hresolved => rw [hresolved, ← Except.ok.inj h, Bool.true_or]
  · next hopen =>
    rw [(Bool.not_eq_true _).mp hopen, Bool.false_or]
    exact eq_any_of_hasLaterNote h

end Discussion

namespace Snapshot

variable {s : Snapshot} {g : Readings} {analysis : Analysis} {config : Config} {c : Classified}
  {keys : List String}

/-- Whether a run takes a discussion to be stale is told by its notes. -/
theorem Reflects.isStale_eq (h : s.Reflects g analysis config) (hc : c ∈ s.discussions) :
    s.isStale keys c = c.discussion.isStale g.user.username analysis.projectKey keys := by
  have hclassify := h.classify_of_mem hc
  rw [isStale, h.projectKey]
  rcases Discussion.classify_cases hclassify with ⟨heq, -⟩ | ⟨i, closed, heq, hstart, hclosed⟩ |
    ⟨-, -, hnone⟩
  · have hnone : c.identity = none := by rw [heq]
    rw [Discussion.isStale, Discussion.thread?_of_identity hclassify hnone, Classified.isLiveIssue,
      hnone]
    simp
  · have hkind : ((c.kind == .singleIdentified || c.kind == .mixed) = true) := by
      rw [heq]
      cases c.discussion.replies.isEmpty <;> rfl
    have hidentity : c.identity = some i := by rw [heq]
    have hopen : c.closed = closed := by rw [heq]
    rw [Discussion.isStale, Discussion.thread?_eq_some_iff.mpr hstart, Classified.isLiveIssue,
      Classified.issueKey?, hkind, hidentity, hopen, Discussion.isClosed_eq hclosed, Bool.not_or,
      Option.any_some, Option.map_some, Option.map_some, Option.getD_some, Option.some_beq_some,
      Bool.true_and]
    ac_rfl
  · rw [Discussion.isStale, Discussion.thread?_of_identity hclassify hnone, Classified.isLiveIssue,
      hnone]
    simp

/-- A stale discussion is mixed if something other than system notes follows the first one. -/
theorem isMixed_of_isStale {user : Value} {project : Option String}
    (h : c.discussion.classify user project = .ok c) (hstale : s.isStale keys c = true) :
    (c.kind == .mixed) = !c.discussion.notes.tail.all (·.system) := by
  rw [isStale, Bool.and_eq_true] at hstale
  obtain ⟨i, heq, -⟩ := Discussion.startsIssue_of_isLiveIssue h hstale.1
  rw [heq, ← Discussion.isEmpty_replies]
  cases c.discussion.replies.isEmpty <;> rfl

theorem Reflects.staleRequests_eq (h : s.Reflects g analysis config) (hc : c ∈ s.discussions) :
    s.staleRequests keys c =
      if c.discussion.isStale g.user.username analysis.projectKey keys then
        [c.discussion.ending g.mergeRequest]
      else [] := by
  unfold staleRequests Discussion.ending
  rw [← h.isStale_eq hc, h.mergeRequest]
  split
  · next hstale =>
    rw [isMixed_of_isStale (h.classify_of_mem hc) hstale]
    cases c.discussion.notes.tail.all (·.system) <;> rfl
  · rfl

end Snapshot

namespace Snapshot.Reflects

variable {s : Snapshot} {g : Readings} {analysis : Analysis} {config : Config}

theorem openKeys_eq (h : s.Reflects g analysis config) :
    s.openKeys = analysis.openIssues.map (·.key) := by
  rw [openKeys, h.openIssues]

/-- What is written to stale discussions, in the order in which they were read. -/
theorem closings_eq (h : s.Reflects g analysis config) : s.closings =
    (g.discussions.filter
      (·.isStale g.user.username analysis.projectKey (analysis.openIssues.map (·.key)))).map
        (·.ending g.mergeRequest) := by
  rw [closings, ← h.openKeys_eq, ← h.discussions_eq, ← flatMap_ite, List.flatMap_map]
  exact List.flatMap_congr fun c hc => h.staleRequests_eq hc

/-- The discussions of a kind among the stale ones, counted by their notes. -/
theorem countP_isStale (h : s.Reflects g analysis config) {q : Classified → Bool}
    {r : Discussion → Bool}
    (hq : ∀ c ∈ s.discussions, s.isStale s.openKeys c = true → q c = r c.discussion) :
    s.discussions.countP (fun c => s.isStale s.openKeys c && q c) =
      g.discussions.countP fun d => d.isStale g.user.username analysis.projectKey
        (analysis.openIssues.map (·.key)) && r d := by
  rw [← h.openKeys_eq, ← h.discussions_eq, List.countP_map]
  refine List.countP_congr fun c hc => ?_
  rw [Function.comp_apply, ← h.isStale_eq hc]
  cases hstale : s.isStale s.openKeys c with
  | true => rw [hq c hc hstale]
  | false => rfl

end Snapshot.Reflects

/-- Of discussions with ids of their own, no two have the same. -/
theorem Discussion.eq_of_same {ds : List Discussion} {d e : Discussion}
    (h : ds.Pairwise fun d e => d.id.Apart e.id) (hd : d ∈ ds) (he : e ∈ ds)
    (hsame : d.id.same e.id = true) : d = e := by
  by_contra hne
  have : Std.Symm fun d e : Discussion => d.id.Apart e.id := ⟨fun _ _ h => h.symm⟩
  exact Bool.noConfusion (hsame.symm.trans (h.forall hd he hne).1)

/-- Discussions that were read have ids of their own. -/
def Readings.HasOwnIds (g : Readings) : Prop :=
  (∀ d ∈ g.discussions, d.id.same d.id = true) ∧
    g.discussions.Pairwise fun d e => d.id.Apart e.id

theorem Snapshot.Reflects.hasOwnIds {s : Snapshot} {g : Readings} {analysis : Analysis}
    {config : Config} (h : s.Reflects g analysis config) (hids : g.HasOwnIds) : s.HasOwnIds := by
  obtain ⟨hsame, hapart⟩ := hids
  rw [← h.discussions_eq] at hsame hapart
  exact ⟨fun c hc => hsame _ (List.mem_map_of_mem hc),
    (List.pairwise_map (R := fun d e : Discussion => d.id.Apart e.id)).mp hapart⟩

namespace Snapshot

variable {s : Snapshot} {t : List Exchange}

theorem target_of_permitsIssue {r : Request} (h : s.PermitsIssue r) : r.target? = none := by
  obtain ⟨i, -, ⟨line, -, rfl⟩ | ⟨line, body, -, -, rfl⟩⟩ := h <;> rfl

/-- A discussion is opened on a line for an open issue. -/
theorem Passes.opens_of_opensLine {o : Outcome} (passes : s.Passes o) {e : Exchange}
    (he : e ∈ passes.trace) (hline : e.request.opensLine = true) :
    ∃ i ∈ s.analysis.openIssues, i.Opens s.analysis s.mergeRequest e.request := by
  rcases passes.mem_trace.mp he with he | he | he | he
  · obtain ⟨i, hi, hlookup | hopens⟩ := Passes.permitsIssue he
    · obtain ⟨line, -, heq⟩ := hlookup
      rw [heq] at hline
      cases hline
    · exact ⟨i, hi, hopens⟩
  · obtain ⟨c, -, hr⟩ := Passes.exists_staleRequests he
    rw [Request.opensLine_of_not_isOpening (isOpening_of_target (target_staleRequests hr))] at hline
    cases hline
  · obtain ⟨d, -, hr⟩ := Passes.exists_summaryBlock he
    rw [not_opensLine_summaryBlock _ hr] at hline
    cases hline
  · rw [Passes.eq_statusRequest he] at hline
    cases hline

/-- What the pass for the summary writes to is a summary, or the discussion that it opened. -/
theorem target_summaryBlock {d id : Value} {r : Request} (hd : s.HoldsSummary t d)
    (hr : r ∈ s.summaryBlock d) (hid : r.target? = some id) :
    (∃ c ∈ s.summaries, id = c.discussion.id) ∨
      ∃ e : Discussion, ⟨.createDiscussion s.mergeRequest.targetProject s.mergeRequest.iid
        (.general s.summaryBody), .ok e⟩ ∈ t ∧ id = e.id := by
  have hretired : ∀ part : List Classified, part ⊆ s.summaries → r ∈ part.flatMap s.retirement →
      ∃ c ∈ s.summaries, id = c.discussion.id := by
    intro part hpart hr
    obtain ⟨c, hc, hr⟩ := List.mem_flatMap.mp hr
    rw [target_retirement hr] at hid
    exact ⟨c, hpart hc, (Option.some.inj hid).symm⟩
  unfold HoldsSummary at hd
  rcases List.mem_append.mp hr with hr | hr
  · unfold summaryText at hr
    split at hr
    · next k hk =>
      rcases List.mem_append.mp hr with hr | hr
      · exact Or.inl (hretired _ ((List.dropLast_sublist _).trans List.filter_sublist).subset hr)
      · rw [List.mem_singleton.mp hr] at hid
        exact Or.inl ⟨k, List.mem_of_mem_filter (mem_live_of_current? hk),
          (Option.some.inj hid).symm⟩
    · rcases List.mem_append.mp hr with hr | hr
      · exact Or.inl (hretired _ (List.Subset.refl _) hr)
      · rw [List.mem_singleton.mp hr] at hid
        cases hid
  · rw [target_closing hr] at hid
    obtain rfl := Option.some.inj hid
    split at hd
    · next k hk => exact Or.inl ⟨k, List.mem_of_mem_filter (mem_live_of_current? hk), hd⟩
    · exact Or.inr hd

end Snapshot

section

variable {σ : Type} {b : Backend σ} {w : σ} {analysis : Analysis} {project : String}
  {config : Config} {number : Value} {o : Outcome}

/-- In a run that succeeds, one pass ends the stale discussions, each by the one write that its
notes call for, in the order in which they were read, and as many of each kind are reported; if ids
are unique, it writes to no other discussion. The rest of the run writes to summaries only. A discussion
is opened on a line for an open issue, and no discussion of that issue is ended. -/
theorem decorate_closes
    (ho : ((decorate analysis project config number).run b w).1 = .ok o) :
    ∃ (g : Readings) (before stale after : List Exchange),
      let run := decorate analysis project config number
      let user := g.user.username
      let isStale (d : Discussion) : Bool :=
        d.isStale user analysis.projectKey (analysis.openIssues.map (·.key))
      run.trace b w = g.exchanges project ++ (before ++ stale ++ after) ∧
      stale.map (·.request) = (g.discussions.filter isStale).map (·.ending g.mergeRequest) ∧
      o.resolved = g.discussions.countP (fun d => isStale d && d.notes.tail.all (·.system)) ∧
      o.noted = g.discussions.countP (fun d => isStale d && !d.notes.tail.all (·.system)) ∧
      (g.HasOwnIds → ∀ d ∈ g.discussions, (stale.map (·.request)).filter (·.concerns d.id) =
        if isStale d then [d.ending g.mergeRequest] else []) ∧
      (∀ e ∈ before ++ after, ∀ id, e.request.target? = some id →
        (∃ d ∈ g.discussions, d.StartsSummary user (some analysis.projectKey) ∧ id = d.id) ∨
        ∃ (project iid : Value) (body : String) (d : Discussion),
          ⟨.createDiscussion project iid (.general body), .ok d⟩ ∈ before ++ after ∧ id = d.id) ∧
      ∀ r ∈ run.asked b w, r.opensLine = true → ∃ i ∈ analysis.openIssues,
        i.Opens (analysis.withServer config) g.mergeRequest r ∧
        ∀ d ∈ g.discussions, isStale d = true →
          ∀ j, d.thread? user analysis.projectKey = some j → j.issue ≠ i.key := by
  obtain ⟨g, s, hs, passes, htrace⟩ := exists_passes_of_run ho
  obtain ⟨before, after, hparts, hrest⟩ := passes.trace_around_closing
  obtain ⟨hclosing, hcounts⟩ := Snapshot.ends_closeStale passes.closes
  obtain ⟨hresolved, hnoted⟩ := Prod.mk.inj hcounts
  refine ⟨g, before, passes.closing, after, ?_⟩
  intro run user isStale
  refine ⟨hparts ▸ htrace, hclosing.trans hs.closings_eq, ?_, ?_, ?_, ?_, ?_⟩
  · refine hresolved.trans (hs.countP_isStale fun c hc hstale => ?_)
    rw [bne, Snapshot.isMixed_of_isStale (hs.classify_of_mem hc) hstale, Bool.not_not]
  · exact hnoted.trans (hs.countP_isStale fun c hc hstale =>
      Snapshot.isMixed_of_isStale (hs.classify_of_mem hc) hstale)
  · intro hids d hd
    rw [← hs.discussions_eq] at hd
    obtain ⟨c, hc, rfl⟩ := List.mem_map.mp hd
    rw [hclosing, (Snapshot.filter_flatMap_concerns (hs.hasOwnIds hids) (List.Sublist.refl _) hc
      fun _ _ => Snapshot.target_staleRequests).1 hc, hs.staleRequests_eq hc, hs.openKeys_eq]
  · intro e he id hid
    rcases (hrest e).mp he with he | he | he
    · rw [Snapshot.target_of_permitsIssue (Snapshot.Passes.permitsIssue he)] at hid
      cases hid
    · obtain ⟨d, hd, hr⟩ := Snapshot.Passes.exists_summaryBlock he
      rcases Snapshot.target_summaryBlock hd hr hid with ⟨c, hc, rfl⟩ | ⟨x, hx, rfl⟩
      · obtain ⟨hc, hkind⟩ := Snapshot.mem_summaries.mp hc
        refine Or.inl ⟨c.discussion, hs.discussions_eq ▸ List.mem_map_of_mem hc, ?_, rfl⟩
        exact Discussion.startsSummary_of_kind (hs.classify_of_mem hc) (beq_iff_eq.mp hkind)
      · exact Or.inr ⟨_, _, _, x, (hrest _).mpr (Or.inr (Or.inl hx)), rfl⟩
    · rw [Snapshot.Passes.eq_statusRequest he] at hid
      cases hid
  · intro r hr hline
    rw [← map_request_trace, show run.trace b w = _ from htrace, List.map_append,
      List.mem_append] at hr
    rcases hr with hr | hr
    · have hreads : ((g.exchanges project).map (·.request)).filter (·.opensLine) = [] := rfl
      exact absurd hline (List.filter_eq_nil_iff.mp hreads r hr)
    · obtain ⟨e, he, rfl⟩ := List.mem_map.mp hr
      obtain ⟨i, hi, hopens⟩ := passes.opens_of_opensLine he hline
      rw [hs.openIssues] at hi
      rw [hs.analysis, hs.mergeRequest] at hopens
      refine ⟨i, hi, hopens, fun d _ hstale j hj heq => ?_⟩
      exact Discussion.issue_notMem_of_isStale hstale hj (heq ▸ List.mem_map_of_mem hi)

/-- Of four threads of an issue that is gone, one is resolved and one, which has a reply, gets a
note; one is resolved already, and in the last one the user wrote that it is. -/
theorem decorate_closes_two_of_four :
    let note (id user text : String) : Note :=
      { id := .text id, author := ⟨.text user, .null⟩, body := .text text, resolvable := true }
    let start (id : String) : Note := note id "sonar-bot"
      "[View in SonarQube](http://x/project/issues?id=p+k&issues=old&open=old)"
    let w : Watched := { platform := { sampleWatched.platform with discussions := [
      ⟨.int 1, [start "a", { note "b" "alice" "changed this line" with system := true }]⟩,
      ⟨.int 2, [start "c", note "d" "alice" "why?"]⟩,
      ⟨.int 3, [{ start "e" with resolved := true }]⟩,
      ⟨.int 4, [start "f", note "g" "sonar-bot" " Resolved "]⟩] } }
    let b := Watched.backend .never
    let run := decorate sampleReport "g/p" []
    ∃ o, (run.run b w).1 = .ok o ∧ o.resolved = 1 ∧ o.noted = 1 ∧
      ∃ (g : Readings) (before stale after : List Exchange),
        run.trace b w = g.exchanges "g/p" ++ (before ++ stale ++ after) ∧
        stale.map (·.request) = (g.discussions.filter
          (·.isStale g.user.username "p k" ["k&1", "k 2"])).map (·.ending g.mergeRequest) := by
  intro note start w b run
  have hcounts : (run.run b w).1.toOption.map (fun o => (o.resolved, o.noted)) = some (1, 1) := by
    decide +kernel
  obtain ⟨o, ho, hboth⟩ := Option.map_eq_some_iff.mp hcounts
  have hrun : (run.run b w).1 = .ok o := eq_ok_of_toOption ho
  obtain ⟨g, before, stale, after, htrace, hstale, -⟩ := decorate_closes hrun
  exact ⟨o, hrun, (Prod.mk.inj hboth).1, (Prod.mk.inj hboth).2, g, before, stale, after, htrace,
    hstale⟩

end
end MergeDecoration
