import MergeDecoration.Proofs.Decoration.Duplicates
import MergeDecoration.Proofs.Decoration.Passes
import MergeDecoration.Proofs.Decoration.Settled
import MergeDecoration.Proofs.Note.EmbeddedLinks
import MergeDecoration.Proofs.Note.OpenIssues

/-!
Which discussions a run that succeeds opens on lines. It asks for the commit of a line if an issue
there is open and has no open thread, and opens a discussion if the commit is one of the merge
request's.
-/
namespace MergeDecoration

open Program

attribute [local irreducible] Program.Completes

/-- Whether the commit that last touched a line is asked for. -/
def Request.isLookup : Request → Bool
  | .changeset .. => true
  | _ => false

namespace Readings

/-- Whether an issue is on a line and has no open thread. -/
def lacksThread (g : Readings) (project : String) (i : Issue) : Bool :=
  i.line.isSome && i.path.holds && !g.discussions.any (·.isLive g.user.username project i.key)

/-- Whether the line of an issue was last touched by a commit of the merge request. -/
def ownsLine (g : Readings) (changeset : Value → Int → Option String) (i : Issue) : Bool :=
  i.line.any fun line => (changeset i.path line).any fun revision =>
    g.commits.any (·.same (.text revision))

end Readings

namespace Snapshot

variable {s : Snapshot} {o : Outcome} {changeset : Value → Int → Option String}
  {represented : List String} {i : Issue}

theorem not_opensLine_summaryBlock {d : Value} : ∀ r ∈ s.summaryBlock d, r.opensLine = false := by
  intro r hr
  rcases List.mem_append.mp hr with hr | hr
  · unfold summaryText at hr
    split at hr
    all_goals
      rcases List.mem_append.mp hr with hr | hr
      · exact Request.opensLine_of_not_isOpening (not_opening_retirement _ r hr)
      · rw [List.mem_singleton.mp hr]
        rfl
  · exact Request.opensLine_of_not_isOpening (not_opening_closing d r hr)

/-- What a run asks about lines is asked in one pass. -/
theorem Passes.filter_trace (passes : s.Passes o) {q : Request → Bool}
    (hq : ∀ r, r.isWrite = true → r.opensLine = false → q r = false) :
    (passes.trace.map (·.request)).filter q = (passes.opening.map (·.request)).filter q := by
  have hnone : ∀ rs : List Request, (∀ r ∈ rs, r.isWrite = true ∧ r.opensLine = false) →
      rs.filter q = [] := fun rs hrs => List.filter_eq_nil_iff.mpr fun r hr =>
    (Bool.not_eq_true _).mpr (hq r (hrs r hr).1 (hrs r hr).2)
  have hclosing : (passes.closing.map (·.request)).filter q = [] := by
    rw [(ends_closeStale passes.closes).1]
    exact hnone _ fun r hr => ⟨isWrite_closings r hr,
      Request.opensLine_of_not_isOpening (not_opening_staleRequests r hr)⟩
  have hsummary : (passes.summary.map (·.request)).filter q = [] := by
    obtain ⟨-, -, -, d, -, hblock⟩ := ends_reconcileSummary passes.sums
    rw [hblock]
    exact hnone _ fun r hr => ⟨isWrite_summaryBlock s d r hr, not_opensLine_summaryBlock r hr⟩
  have hstatus : (passes.status.map (·.request)).filter q = [] := by
    rw [(ends_pushStatus passes.pushes).2]
    exact hnone _ fun r hr => by rw [List.mem_singleton.mp hr]; exact ⟨rfl, rfl⟩
  unfold trace
  split
  all_goals
    simp only [List.map_append, List.filter_append, hclosing, hsummary, hstatus, List.nil_append,
      List.append_nil]

/-- Whether an issue is on a line and has no open thread among the represented ones. -/
def isSought (represented : List String) (i : Issue) : Bool :=
  i.line.isSome && i.path.holds && !represented.contains i.key

/-- For an issue that is sought the commit of its line is asked for, and a discussion if that is an
own one; for others nothing is asked. -/
theorem requests_of_isSought (s : Snapshot) (changeset : Value → Int → Option String)
    (represented : List String) (i : Issue) :
    (isSought represented i = false ∧ s.isDue changeset represented i = false ∧
      s.issueRequests changeset represented i = []) ∨
    ∃ line, i.line = some line ∧ isSought represented i = true ∧
      s.isDue changeset represented i = s.isOwnLine changeset i.path line ∧
      s.issueRequests changeset represented i = .changeset i.path line ::
        if s.isOwnLine changeset i.path line then [s.opening i i.path line] else [] := by
  unfold isSought isDue issueRequests
  cases hline : i.line with
  | none => exact Or.inl ⟨rfl, by rw [Issue.anchor?, hline], by rw [Issue.anchor?, hline]⟩
  | some line =>
    cases hpath : i.path.holds with
    | false =>
      rw [Issue.anchor?_eq_none_of_path hpath]
      exact Or.inl ⟨rfl, rfl, rfl⟩
    | true =>
      rw [Issue.anchor?_eq_some hline hpath]
      cases hkey : represented.contains i.key with
      | true => exact Or.inl ⟨rfl, rfl, rfl⟩
      | false => exact Or.inr ⟨line, rfl, rfl, rfl, rfl⟩

theorem isDue_eq_of_isSought (s : Snapshot) (changeset : Value → Int → Option String)
    (represented : List String) (i : Issue) :
    s.isDue changeset represented i =
      (i.line.any (s.isOwnLine changeset i.path) && isSought represented i) := by
  rcases s.requests_of_isSought changeset represented i with
    ⟨hsought, hdue, -⟩ | ⟨line, hline, hsought, hdue, -⟩
  · rw [hdue, hsought, Bool.and_false]
  · rw [hdue, hsought, hline, Option.any_some, Bool.and_true]

/-- The lookups for issues. -/
theorem filter_isLookup_issueRequests (issues : List Issue) :
    List.Forall₂ Issue.LooksUp (issues.filter (isSought represented))
      ((issues.flatMap (s.issueRequests changeset represented)).filter (·.isLookup)) := by
  refine forall₂_filter_flatMap fun i _ => ?_
  rcases s.requests_of_isSought changeset represented i with
    ⟨hsought, -, hnil⟩ | ⟨line, hline, hsought, -, hrequests⟩
  · exact Or.inr ⟨hsought, by rw [hnil]; rfl⟩
  · refine Or.inl ⟨hsought, _, ?_, line, hline, rfl⟩
    rw [hrequests]
    split <;> rfl

/-- The discussions that are opened for issues. -/
theorem filter_opensLine_issueRequests {issues : List Issue}
    (hnotes : ∀ i ∈ issues, s.isDue changeset represented i = true →
      ∃ body, s.analysis.issueNote i = .ok body) :
    List.Forall₂ (fun i r => i.Opens s.analysis s.mergeRequest r)
      (issues.filter (s.isDue changeset represented))
      ((issues.flatMap (s.issueRequests changeset represented)).filter (·.opensLine)) := by
  refine forall₂_filter_flatMap fun i hi => ?_
  rcases s.requests_of_isSought changeset represented i with
    ⟨-, hdue, hnil⟩ | ⟨line, hline, -, hdue, hrequests⟩
  · exact Or.inr ⟨hdue, by rw [hnil]; rfl⟩
  · rw [hrequests]
    cases hown : s.isOwnLine changeset i.path line with
    | false => exact Or.inr ⟨hdue.trans hown, rfl⟩
    | true =>
      obtain ⟨body, hbody⟩ := hnotes i hi (hdue.trans hown)
      refine Or.inl ⟨hdue.trans hown, _, rfl, line, body, hline, hbody, ?_⟩
      rw [opening, issueBody, hbody]
      rfl

/-- The issues that are represented have open threads, and no others. -/
theorem Reflects.contains_representedKeys {g : Readings} {analysis : Analysis} {config : Config}
    (h : s.Reflects g analysis config) (key : String) :
    s.representedKeys.contains key =
      g.discussions.any (·.isLive g.user.username analysis.projectKey key) := by
  rw [representedKeys, h.projectKey, Bool.eq_iff_iff, List.contains_iff_mem, List.mem_filterMap,
    List.any_eq_true]
  constructor
  · rintro ⟨c, hc, hkey⟩
    obtain ⟨hmem, hlive⟩ := List.mem_filter.mp hc
    obtain ⟨d, hd, hclassify⟩ := exists_of_mem_of_forall₂ h.discussions hmem
    refine ⟨d, hd, ?_⟩
    rw [Discussion.isLive_of_classify hclassify, hlive, hkey, beq_self_eq_true, Bool.and_self]
  · rintro ⟨d, hd, hlive⟩
    obtain ⟨c, hc, hclassify⟩ := exists_of_mem_of_forall₂ h.discussions.flip hd
    rw [Discussion.isLive_of_classify hclassify, Bool.and_eq_true, beq_iff_eq] at hlive
    exact ⟨c, List.mem_filter.mpr ⟨hc, hlive.1⟩, hlive.2⟩

end Snapshot

section

variable {σ : Type} {b : Backend σ} {w : σ} {analysis : Analysis} {project : String}
  {config : Config} {number : Value} {o : Outcome} {changeset : Value → Int → Option String}

/-- In a run that succeeds, the commit of a line is asked for once for each issue that is open, on a
line and without an open thread, in the order of the report; a discussion is opened for each of
these whose commit is one of the merge request's, in this order too, and as many are reported.
Nothing else is asked about lines. -/
theorem decorate_opens
    (hcopy : ∀ path line x,
      ⟨.changeset path line, .ok x⟩ ∈ (decorate analysis project config number).trace b w →
        x = changeset path line)
    (ho : ((decorate analysis project config number).run b w).1 = .ok o) :
    ∃ (g : Readings) (t : List Exchange),
      let run := decorate analysis project config number
      let sought := analysis.openIssues.filter (g.lacksThread analysis.projectKey)
      let due := sought.filter (g.ownsLine changeset)
      run.trace b w = g.exchanges project ++ t ∧
      List.Forall₂ Issue.LooksUp sought ((run.asked b w).filter (·.isLookup)) ∧
      List.Forall₂ (fun i r => i.Opens (analysis.withServer config) g.mergeRequest r) due
        ((run.asked b w).filter (·.opensLine)) ∧
      o.created = due.length := by
  obtain ⟨g, s, hs, passes, htrace⟩ := exists_passes_of_run ho
  obtain ⟨hnotes, hopening, hcreated⟩ := Snapshot.ends_createIssueNotes
    (fun path line x hx => hcopy path line x (htrace ▸ List.mem_append_right _
      (passes.mem_trace.mpr (Or.inl hx)))) passes.opens
  rw [hs.openIssues] at hnotes hopening hcreated
  have hsought : ∀ i, g.lacksThread analysis.projectKey i =
      Snapshot.isSought s.representedKeys i := by
    intro i
    rw [Snapshot.isSought, hs.contains_representedKeys]
    rfl
  have hdue : ∀ i, (g.ownsLine changeset i && g.lacksThread analysis.projectKey i) =
      s.isDue changeset s.representedKeys i := by
    intro i
    rw [hsought, s.isDue_eq_of_isSought, Readings.ownsLine, ← hs.commits]
    rfl
  have hasked : ∀ q : Request → Bool, (∀ r, r.isWrite = true → r.opensLine = false → q r = false) →
      ((g.exchanges project).map (·.request)).filter q = [] →
      ((decorate analysis project config number).asked b w).filter q =
        (analysis.openIssues.flatMap (s.issueRequests changeset s.representedKeys)).filter q := by
    intro q hq hreads
    rw [← map_request_trace, htrace, List.map_append, List.filter_append, hreads, List.nil_append,
      passes.filter_trace hq, hopening]
  refine ⟨g, passes.trace, htrace, ?_, ?_, ?_⟩
  · rw [hasked _ (fun r hwrite _ => ?_) rfl, List.filter_congr fun i _ => hsought i]
    · exact Snapshot.filter_isLookup_issueRequests _
    · cases r with
      | changeset => cases hwrite
      | _ => rfl
  · rw [hasked _ (fun r _ hline => hline) rfl, List.filter_filter,
      List.filter_congr fun i _ => hdue i, ← hs.analysis, ← hs.mergeRequest]
    exact Snapshot.filter_opensLine_issueRequests hnotes
  · rw [hcreated, List.filter_filter, List.filter_congr fun i _ => hdue i,
      List.countP_eq_length_filter]

/-- On a platform the working copy answers by one function. -/
theorem changeset_of_mem_trace {α : Type} {prog : Program α} {outage : Outage} {w : Watched}
    {path : Value} {line : Int} {x : Option String}
    (h : ⟨.changeset path line, .ok x⟩ ∈ prog.trace (Watched.backend outage) w) :
    x = w.platform.changeset path line := by
  induction prog generalizing w with
  | done => cases h
  | stop => cases h
  | log r next ih => exact ih (w := { w with records := w.records ++ [r] }) h
  | ask r next ih =>
    rw [trace_ask] at h
    have hkeeps : ((Watched.backend outage).answer r w).2.platform.changeset =
        w.platform.changeset := by
      simp only [Watched.backend]
      cases outage w.requests r with
      | some message => rfl
      | none => exact Platform.changeset_answer ..
    rcases List.mem_cons.mp h with heq | h
    · have hr : r = .changeset path line := (congrArg (·.request) heq).symm
      subst hr
      have hanswer : ((Watched.backend outage).answer (.changeset path line) w).1 = .ok x :=
        (eq_of_heq (Exchange.mk.inj heq).2).symm
      simp only [Watched.backend] at hanswer
      cases houtage : outage w.requests (.changeset path line) with
      | some message =>
        rw [houtage] at hanswer
        cases hanswer
      | none =>
        rw [houtage] at hanswer
        exact (Except.ok.inj hanswer).symm
    · rw [ih _ h, hkeeps]

/-- Of four open issues one has no line and one has an open thread. Of the lines of the other two,
one was last touched by a commit of the merge request. -/
theorem decorate_opens_one_of_four :
    let issue (key : String) (line : Option Int) : Issue :=
      { key, line, path := .text "a.py", message := .text "m" }
    let report : Analysis := { sampleReport with
      issues := [issue "k&1" (some 3), issue "k 2" (some 5), issue "old" (some 7), issue "u" none] }
    let w : Watched := { platform := { sampleWatched.platform with
      changeset := fun _ line => if line = 3 then some "c" else some "d" } }
    let b := Watched.backend .never
    let run := decorate report "g/p" []
    ∃ o, (run.run b w).1 = .ok o ∧ o.created = 1 ∧
      ((run.asked b w).filter (·.isLookup)).length = 2 ∧
      ∃ (g : Readings) (t : List Exchange), run.trace b w = g.exchanges "g/p" ++ t ∧
        (report.openIssues.filter (g.lacksThread "p k")).length = 2 ∧
        ((report.openIssues.filter (g.lacksThread "p k")).filter
          (g.ownsLine w.platform.changeset)).length = 1 := by
  intro issue report w b run
  have hcounts : (run.run b w).1.toOption.map (·.created) = some 1 := by decide +kernel
  have hlookups : ((run.asked b w).filter (·.isLookup)).length = 2 := by decide +kernel
  obtain ⟨o, ho, hcreated⟩ := Option.map_eq_some_iff.mp hcounts
  have hrun : (run.run b w).1 = .ok o := eq_ok_of_toOption ho
  obtain ⟨g, t, htrace, hsought, -, hdue⟩ :=
    decorate_opens (fun _ _ _ hx => changeset_of_mem_trace hx) hrun
  exact ⟨o, hrun, hcreated, hlookups, g, t, htrace, hsought.length_eq.trans hlookups,
    hdue.symm.trans hcreated⟩

end
end MergeDecoration
