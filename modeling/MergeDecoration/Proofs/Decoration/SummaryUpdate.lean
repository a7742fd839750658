import MergeDecoration.Proofs.Decoration.Closing
import MergeDecoration.Proofs.Decoration.Explanations
import MergeDecoration.Proofs.Decoration.Gate

/-!
What a run that succeeds does about summaries. The last live one is edited if the configuration says
so, and otherwise a new one is created; others are retired, and those that are known to be outdated
are left alone.
-/
namespace MergeDecoration

open Program

attribute [local irreducible] Program.Completes

theorem Note.tells_eq_states (n : Note) (user : Value) (text : String) :
    n.tells user (· == text) = n.states user text := by
  cases hbody : n.body <;> simp only [tells, states, hbody]

namespace Discussion

variable {d : Discussion} {user : Value} {project : String}

/-- Whether the discussion is a summary to a run of the user on the project. -/
def isSummary (d : Discussion) (user : Value) (project : String) : Bool :=
  match d.classify user (some project) with
  | .ok c => c.kind == .summary
  | .error _ => false

theorem isSummary_of_classify {c : Classified} (h : d.classify user (some project) = .ok c) :
    d.isSummary user project = (c.kind == .summary) := by
  rw [isSummary, h]

/-- Whether the user wrote below the first note that the summary is outdated. -/
def isOutdated (d : Discussion) (user : Value) : Bool :=
  d.notes.tail.any (·.states user outdatedSummaryNote)

theorem eq_isOutdated_of_hasNote {found : Bool}
    (h : d.hasNote user outdatedSummaryNote = .ok found) : found = d.isOutdated user := by
  rw [eq_any_of_hasLaterNote h, isOutdated]
  simp only [Note.tells_eq_states]

/-- What is asked to retire a summary: its first note is deleted if only system notes follow, and
otherwise the user writes below it that it is outdated, unless that stands there. -/
def retirement (d : Discussion) (m : MergeRequest) (user : Value) : List Request :=
  if d.notes.tail.all (·.system) then
    d.notes.head?.toList.map fun first => .deleteNote m.targetProject m.iid d.id first.id
  else if d.isOutdated user then []
  else [.addNote m.targetProject m.iid d.id outdatedSummaryNote]

theorem target_retirement {m : MergeRequest} {r : Request} (h : r ∈ d.retirement m user) :
    r.target? = some d.id := by
  unfold retirement at h
  split_ifs at h
  · obtain ⟨first, -, rfl⟩ := List.mem_map.mp h
    rfl
  · cases h
  · rw [List.mem_singleton.mp h]
    rfl

/-- A summary that people were told to be outdated is left alone: what told them is no system note,
so there are replies. -/
theorem retirement_of_isOutdated {m : MergeRequest}
    (hsystem : ∀ n ∈ d.notes, n.system = true → n.states user outdatedSummaryNote = false)
    (h : d.isOutdated user = true) : d.retirement m user = [] := by
  obtain ⟨n, hn, hstates⟩ := List.any_eq_true.mp h
  have hreply : ¬d.notes.tail.all (·.system) = true := by
    intro hall
    have hnot := hsystem n (List.mem_of_mem_tail hn) (List.all_eq_true.mp hall n hn)
    exact Bool.noConfusion (hstates.symm.trans hnot)
  rw [retirement, if_neg hreply, if_pos h]

end Discussion

namespace Readings

variable {g : Readings} {project : String}

/-- The summaries of the project, in the order in which they were read. -/
def summaries (g : Readings) (project : String) : List Discussion :=
  g.discussions.filter (·.isSummary g.user.username project)

/-- Those that were not told to be outdated. -/
def liveSummaries (g : Readings) (project : String) : List Discussion :=
  (g.summaries project).filter (!·.isOutdated g.user.username)

def retirements (g : Readings) (ds : List Discussion) : List Request :=
  ds.flatMap (·.retirement g.mergeRequest g.user.username)

/-- What is asked last for the discussion that holds the summary: it is resolved if the gate
passed. -/
def closing (g : Readings) (passed : Bool) (id : Value) : List Request :=
  if passed then [.resolve g.mergeRequest.targetProject g.mergeRequest.iid id] else []

/-- How the pass for the summary goes: if summaries are edited in place and there is a live one, the
last one is edited and the others are retired; otherwise all summaries are retired and one is
created. -/
inductive SummaryPass (g : Readings) (a : Analysis) (edits : Bool) (body : String)
    (pass : List Exchange) : SummaryAction → Prop
  | edited (older : List Discussion) (last : Discussion) (first : Note) (rest : List Note)
      (hedits : edits = true) (hlive : g.liveSummaries a.projectKey = older ++ [last])
      (hnotes : last.notes = first :: rest)
      (hpass : pass.map (·.request) = g.retirements older ++
        .editNote g.mergeRequest.targetProject g.mergeRequest.iid last.id first.id body ::
          g.closing a.passed last.id) : SummaryPass g a edits body pass .edited
  | created (d : Discussion) (hnone : edits = true → g.liveSummaries a.projectKey = [])
      (hopened : ⟨.createDiscussion g.mergeRequest.targetProject g.mergeRequest.iid
        (.general body), .ok d⟩ ∈ pass)
      (hpass : pass.map (·.request) = g.retirements (g.summaries a.projectKey) ++
        .createDiscussion g.mergeRequest.targetProject g.mergeRequest.iid (.general body) ::
          g.closing a.passed d.id) : SummaryPass g a edits body pass .created

theorem target_closing {passed : Bool} {id : Value} {r : Request} (h : r ∈ g.closing passed id) :
    r.target? = some id := by
  unfold closing at h
  split_ifs at h
  · rw [List.mem_singleton.mp h]
    rfl
  · cases h

theorem mem_summaries {d : Discussion} (h : d ∈ g.summaries project) : d ∈ g.discussions :=
  List.mem_of_mem_filter h

/-- The pass leaves alone what was told to be outdated. -/
theorem SummaryPass.not_concerns {a : Analysis} {edits : Bool} {body : String}
    {pass : List Exchange} {action : SummaryAction} (h : g.SummaryPass a edits body pass action)
    (hids : g.HasOwnIds)
    (hsystem : ∀ d ∈ g.summaries a.projectKey, ∀ n ∈ d.notes, n.system = true →
      n.states g.user.username outdatedSummaryNote = false)
    {d : Discussion} (hd : d ∈ g.summaries a.projectKey)
    (houtdated : d.isOutdated g.user.username = true)
    (hfresh : ∀ project iid body e, ⟨.createDiscussion project iid body, .ok e⟩ ∈ pass →
      d.id.same e.id = false) : ∀ r ∈ pass.map (·.request), r.concerns d.id = false := by
  have hretired : ∀ ds ⊆ g.summaries a.projectKey, ∀ r ∈ g.retirements ds,
      r.concerns d.id = false := by
    intro ds hds r hr
    obtain ⟨e, he, hr⟩ := List.mem_flatMap.mp hr
    rw [Request.concerns, Discussion.target_retirement hr, Option.any_some]
    by_contra hsame
    obtain rfl := Discussion.eq_of_same hids.2 (mem_summaries hd) (mem_summaries (hds he))
      (Bool.not_eq_false _ ▸ hsame)
    rw [Discussion.retirement_of_isOutdated (hsystem d hd) houtdated] at hr
    cases hr
  have hclosing : ∀ id, d.id.same id = false → ∀ r ∈ g.closing a.passed id,
      r.concerns d.id = false := by
    intro id hid r hr
    rw [Request.concerns, target_closing hr, Option.any_some, hid]
  intro r hr
  cases h with
  | edited older last first rest hedits hlive hnotes hpass =>
    have hsub : older ++ [last] ⊆ g.summaries a.projectKey := hlive ▸ List.filter_subset_self _
    have hlast : last ∈ g.liveSummaries a.projectKey :=
      hlive ▸ List.mem_append_right _ (List.mem_singleton_self last)
    have hother : d.id.same last.id = false := by
      by_contra hsame
      obtain rfl := Discussion.eq_of_same hids.2 (mem_summaries hd)
        (mem_summaries (List.mem_of_mem_filter hlast)) (Bool.not_eq_false _ ▸ hsame)
      have hnot := (List.mem_filter.mp hlast).2
      rw [houtdated] at hnot
      cases hnot
    rw [hpass] at hr
    rcases List.mem_append.mp hr with hr | hr
    · exact hretired older (fun e he => hsub (List.mem_append_left _ he)) r hr
    · rcases List.mem_cons.mp hr with rfl | hr
      · exact hother
      · exact hclosing last.id hother r hr
  | created e hnone hopened hpass =>
    rw [hpass] at hr
    rcases List.mem_append.mp hr with hr | hr
    · exact hretired _ (List.Subset.refl _) r hr
    · rcases List.mem_cons.mp hr with rfl | hr
      · rfl
      · exact hclosing e.id (hfresh _ _ _ e hopened) r hr

end Readings

namespace Snapshot.Reflects

variable {s : Snapshot} {g : Readings} {analysis : Analysis} {config : Config} {c : Classified}

theorem map_summaries (h : s.Reflects g analysis config) :
    s.summaries.map (·.discussion) = g.summaries analysis.projectKey := by
  rw [summaries, Readings.summaries, ← h.discussions_eq, List.filter_map]
  congr 1
  exact List.filter_congr fun c hc => (Discussion.isSummary_of_classify (h.classify_of_mem hc)).symm

theorem flagged_eq (h : s.Reflects g analysis config) (hflags : s.HasFlags) (hc : c ∈ s.summaries) :
    s.flagged c = c.discussion.isOutdated g.user.username := by
  obtain ⟨found, hfound⟩ := hflags c hc
  rw [Snapshot.flagged_eq hfound]
  rw [isFlagged, h.username] at hfound
  exact Discussion.eq_isOutdated_of_hasNote hfound

theorem map_live (h : s.Reflects g analysis config) (hflags : s.HasFlags) :
    s.live.map (·.discussion) = g.liveSummaries analysis.projectKey := by
  rw [live, Readings.liveSummaries, ← h.map_summaries, List.filter_map]
  congr 1
  refine List.filter_congr fun c hc => ?_
  rw [Function.comp_apply, h.flagged_eq hflags hc]

/-- A summary starts with a note. -/
theorem exists_first (h : s.Reflects g analysis config) (hc : c ∈ s.summaries) :
    ∃ first rest, c.discussion.notes = first :: rest ∧ firstNoteId c = first.id := by
  obtain ⟨hmem, hkind⟩ := mem_summaries.mp hc
  obtain ⟨first, rest, -, hn, -⟩ :=
    Discussion.startsSummary_of_kind (h.classify_of_mem hmem) (beq_iff_eq.mp hkind)
  exact ⟨first, rest, hn, firstNoteId_of_notes hn⟩

theorem retirement_eq (h : s.Reflects g analysis config) (hflags : s.HasFlags)
    (hc : c ∈ s.summaries) :
    s.retirement c = c.discussion.retirement g.mergeRequest g.user.username := by
  obtain ⟨first, rest, hn, hfirst⟩ := h.exists_first hc
  rw [Snapshot.retirement, Discussion.retirement, Discussion.isEmpty_replies,
    h.flagged_eq hflags hc, h.mergeRequest, hfirst, hn]
  rfl

theorem flatMap_retirement (h : s.Reflects g analysis config) (hflags : s.HasFlags)
    {part : List Classified} (hpart : part ⊆ s.summaries) :
    part.flatMap s.retirement = g.retirements (part.map (·.discussion)) := by
  rw [Readings.retirements, List.flatMap_map]
  exact List.flatMap_congr fun c hc => h.retirement_eq hflags (hpart hc)

theorem closing_eq (h : s.Reflects g analysis config) (id : Value) :
    s.closing id = g.closing analysis.passed id := by
  rw [Snapshot.closing, Readings.closing, h.analysis, Analysis.passed_withServer, h.mergeRequest]

theorem summaryBody_eq (h : s.Reflects g analysis config) {body : String}
    (hbody : s.analysis.summaryNote = .ok body) :
    (analysis.withServer config).summaryNote = .ok body ∧ s.summaryBody = body := by
  rw [summaryBody, hbody, ← h.analysis]
  exact ⟨hbody, rfl⟩

/-- The pass for the summary, told by what was read. -/
theorem summaryPass (h : s.Reflects g analysis config) {t : List Exchange} {a : SummaryAction}
    (ht : s.reconcileSummary.Ends t (.ok a)) : ∃ body,
      (analysis.withServer config).summaryNote = .ok body ∧
      g.SummaryPass analysis (config.get "summary_note_edit").holds body t a := by
  obtain ⟨⟨body, hbody⟩, hflags, rfl, id, hid, hasked⟩ := ends_reconcileSummary ht
  obtain ⟨hnote, htext⟩ := h.summaryBody_eq hbody
  refine ⟨body, hnote, ?_⟩
  unfold summaryBlock summaryText at hasked
  unfold HoldsSummary at hid
  unfold summaryAction
  rw [htext, h.mergeRequest] at hid
  cases hcurrent : s.current? with
  | some k =>
    rw [hcurrent] at hasked hid
    dsimp only at hasked
    obtain rfl : id = k.discussion.id := hid
    have hmem := mem_live_of_current? hcurrent
    have hsub : s.live.dropLast ⊆ s.summaries :=
      ((List.dropLast_sublist _).trans List.filter_sublist).subset
    obtain ⟨first, rest, hnotes, hfirst⟩ := h.exists_first (List.mem_of_mem_filter hmem)
    refine .edited (s.live.dropLast.map (·.discussion)) k.discussion first rest ?_ ?_ hnotes ?_
    · rw [current?, h.config] at hcurrent
      split at hcurrent
      · assumption
      · cases hcurrent
    · rw [← h.map_live hflags]
      conv_lhs => rw [live_eq_of_current? hcurrent, List.map_append]
      rfl
    · rw [hasked, h.flatMap_retirement hflags hsub, Snapshot.editing, h.mergeRequest, htext,
        hfirst, h.closing_eq, List.append_assoc]
      rfl
  | none =>
    rw [hcurrent] at hasked hid
    obtain ⟨d, hopened, rfl⟩ := hid
    refine .created d ?_ hopened ?_
    · intro hedits
      rw [current?, h.config, if_pos hedits, List.getLast?_eq_none_iff] at hcurrent
      rw [← h.map_live hflags, hcurrent]
      rfl
    · rw [hasked, h.flatMap_retirement hflags (List.Subset.refl _), h.map_summaries,
        h.mergeRequest, htext, h.closing_eq, List.append_assoc]
      rfl

end Snapshot.Reflects

namespace Snapshot

variable {s : Snapshot} {o : Outcome} {g : Readings} {analysis : Analysis} {config : Config}

/-- The other passes open no discussion off a line and write to no summary. -/
theorem Passes.around_summary (passes : s.Passes o) (h : s.Reflects g analysis config)
    {e : Exchange} (he : e ∈ passes.opening ∨ e ∈ passes.closing ∨ e ∈ passes.status) :
    (e.request.isOpening = true → e.request.opensLine = true) ∧
      ∀ id, e.request.target? = some id →
        ∃ d ∈ g.discussions, d ∉ g.summaries analysis.projectKey ∧ id = d.id := by
  rcases he with he | he | he
  · obtain ⟨i, -, ⟨line, -, heq⟩ | ⟨line, body, -, -, heq⟩⟩ := Passes.permitsIssue he
    · rw [heq]
      exact ⟨nofun, nofun⟩
    · rw [heq]
      exact ⟨fun _ => rfl, nofun⟩
  · obtain ⟨c, hc, hr⟩ := Passes.exists_staleRequests he
    refine ⟨fun hopening => ?_, fun id hid => ?_⟩
    · rw [isOpening_of_target (target_staleRequests hr)] at hopening
      cases hopening
    · rw [target_staleRequests hr] at hid
      refine ⟨c.discussion, h.discussions_eq ▸ List.mem_map_of_mem hc, fun hsummary => ?_,
        (Option.some.inj hid).symm⟩
      have hkind := (List.mem_filter.mp hsummary).2
      rw [Discussion.isSummary_of_classify (h.classify_of_mem hc), beq_iff_eq] at hkind
      rw [staleRequests_of_summary hkind] at hr
      cases hr
  · rw [Passes.eq_statusRequest he]
    exact ⟨nofun, nofun⟩

end Snapshot

section

variable {σ : Type} {b : Backend σ} {w : σ} {analysis : Analysis} {project : String}
  {config : Config} {number : Value} {o : Outcome}

/-- In a run that succeeds, one pass sees to the summary. The rest of the run creates none and
writes to none. If ids are unique and the user's system notes tell of nothing outdated, nothing is
written to a summary that is known to be outdated. -/
theorem decorate_updates_summary
    (ho : ((decorate analysis project config number).run b w).1 = .ok o) :
    ∃ (g : Readings) (before pass after : List Exchange) (body : String),
      let run := decorate analysis project config number
      let summaries := g.summaries analysis.projectKey
      run.trace b w = g.exchanges project ++ (before ++ pass ++ after) ∧
      (analysis.withServer config).summaryNote = .ok body ∧
      g.SummaryPass analysis (config.get "summary_note_edit").holds body pass o.summary ∧
      (∀ e ∈ before ++ after, (e.request.isOpening = true → e.request.opensLine = true) ∧
        ∀ id, e.request.target? = some id → ∃ d ∈ g.discussions, d ∉ summaries ∧ id = d.id) ∧
      (g.HasOwnIds →
        (∀ d ∈ summaries, ∀ n ∈ d.notes, n.system = true →
          n.states g.user.username outdatedSummaryNote = false) →
        ∀ d ∈ summaries, d.isOutdated g.user.username = true →
          (∀ project iid body e, ⟨.createDiscussion project iid body, .ok e⟩ ∈ run.trace b w →
            d.id.same e.id = false) →
          ∀ r ∈ run.asked b w, r.concerns d.id = false) := by
  obtain ⟨g, s, hs, passes, htrace⟩ := exists_passes_of_run ho
  obtain ⟨before, after, hparts, hrest⟩ := passes.trace_around_summary
  obtain ⟨body, hbody, hpass⟩ := hs.summaryPass passes.sums
  have haround : ∀ e ∈ before ++ after, _ := fun e he =>
    passes.around_summary hs ((hrest e).mp he)
  rw [hparts] at htrace
  refine ⟨g, before, passes.summary, after, body, ?_⟩
  intro run summaries
  refine ⟨htrace, hbody, hpass, haround, ?_⟩
  intro hids hsystem d hd houtdated hfresh r hr
  rw [← map_request_trace, show run.trace b w = _ from htrace] at hr
  obtain ⟨e, he, rfl⟩ := List.mem_map.mp hr
  rcases List.mem_append.mp he with hreads | he
  · have hnone : ∀ e ∈ g.exchanges project, e.request.target? = none := by
      simp only [Readings.exchanges, List.forall_mem_cons, Request.target?, List.not_mem_nil,
        false_imp_iff, implies_true, and_self]
    rw [Request.concerns, hnone e hreads, Option.any_none]
  by_cases hmem : e ∈ passes.summary
  · refine hpass.not_concerns hids hsystem hd houtdated (fun project iid body x hx => ?_) _
      (List.mem_map_of_mem hmem)
    refine hfresh project iid body x ?_
    rw [show run.trace b w = _ from htrace]
    exact List.mem_append_right _ (List.mem_append_left _ (List.mem_append_right _ hx))
  · have hother : e ∈ before ++ after := by
      rw [List.mem_append, List.mem_append] at he
      rw [List.mem_append]
      tauto
    rw [Request.concerns]
    cases htarget : e.request.target? with
    | none => rfl
    | some id =>
      obtain ⟨x, hx, hnot, rfl⟩ := (haround e hother).2 id htarget
      rw [Option.any_some]
      by_contra hsame
      obtain rfl := Discussion.eq_of_same hids.2 (Readings.mem_summaries hd) hx
        (Bool.not_eq_false _ ▸ hsame)
      exact hnot hd

/-- Of four summaries the first is removed, the second one, which is known to be outdated, is left
alone, the third one gets a note, and the last one is edited and resolved again. -/
theorem decorate_updates_summary_last_of_four :
    let note (id user text : String) : Note :=
      { id := .text id, author := ⟨.text user, .null⟩, body := .text text, resolvable := true }
    let start (id : String) : Note :=
      note id "sonar-bot" "[View in SonarQube](http://x/dashboard?id=p+k)"
    let w : Watched := { platform := { sampleWatched.platform with discussions := [
      ⟨.int 1, [start "a"]⟩,
      ⟨.int 2, [start "b", note "c" "alice" "why?", note "d" "sonar-bot" outdatedSummaryNote]⟩,
      ⟨.int 3, [start "e", note "f" "alice" "why?"]⟩,
      ⟨.int 4, [{ start "g" with resolved := true }]⟩] } }
    let b := Watched.backend .never
    let run := decorate sampleReport "g/p" [(.text "summary_note_edit", .bool true)]
    ∃ o, (run.run b w).1 = .ok o ∧ o.summary = .edited ∧
      ((run.asked b w).filterMap (·.target?)).map (·.shown) = ["1", "3", "4", "4"] ∧
      ∃ (g : Readings) (before pass after : List Exchange) (body : String),
        run.trace b w = g.exchanges "g/p" ++ (before ++ pass ++ after) ∧
        g.SummaryPass sampleReport true body pass .edited := by
  intro note start w b run
  -- The result and the requests are read off one run, since the long note is slow to compare.
  obtain ⟨hsummary, htargets⟩ : (run.run b w).1.toOption.map (·.summary) = some .edited ∧
      ((run.run b w).2.requests.filterMap (·.target?)).map (·.shown) = ["1", "3", "4", "4"] := by
    decide +kernel
  rw [show (run.run b w).2.requests = run.asked b w from requests_run run .never w] at htargets
  obtain ⟨o, ho, hedited⟩ := Option.map_eq_some_iff.mp hsummary
  have hrun : (run.run b w).1 = .ok o := eq_ok_of_toOption ho
  have hedits : (Config.get [(.text "summary_note_edit", .bool true)] "summary_note_edit").holds =
      true := by decide +kernel
  obtain ⟨g, before, pass, after, body, htrace, -, hpass, -⟩ := decorate_updates_summary hrun
  rw [hedited, hedits] at hpass
  exact ⟨o, hrun, hedited, htargets, g, before, pass, after, body, htrace, hpass⟩

end

end MergeDecoration
