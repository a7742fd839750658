import MergeDecoration.Proofs.Decoration.Failure

/-!
Runs that end neither with a result nor with the failure of a step. The addresses in the program's
notes are read outside of every step, and one that cannot be read ends the run. All texts here are of
characters: where a report spells half a surrogate pair, U+FFFD is read, and the fault that the half
would be in an address is not among those that are told here.
-/
namespace MergeDecoration

open Program

/-- What is written of an analysis as it stands is text. -/
structure Analysis.IsTyped (a : Analysis) : Prop where
  server : a.serverUrl.IsText
  messages : ∀ i ∈ a.issues, i.message.IsText

/-- The addresses among the settings are texts. -/
structure Config.IsTyped (c : Config) : Prop where
  server : (c.get "server_url").IsOptionalText
  project : (c.get "project_url").IsOptionalText

/-- Answers in which commits and the bodies of notes are texts. -/
def Request.IsTyped : (r : Request) → r.Reply → Prop
  | .commits _ _, vs => ∀ v ∈ vs, v.IsText
  | .discussions _ _, ds => ∀ d ∈ ds, ∀ n ∈ d.notes, n.body.IsText
  | _, _ => True

/-- Only requests to the platform fail, and only because it could not be reached. -/
structure Exchange.IsTyped (e : Exchange) : Prop where
  failure : ∀ f, e.answer = .error f → (∃ s, e.request.step? = some s) ∧ ∃ m, f = .transport m
  reply : ∀ x, e.answer = .ok x → e.request.IsTyped x

theorem Value.textOperand_of_isText {v : Value} (h : v.IsText) : ∃ s, v.textOperand = .ok s := by
  obtain ⟨s, rfl⟩ := h
  exact ⟨s, rfl⟩

namespace Analysis

variable {a : Analysis}

theorem withServer_isTyped {config : Config} (ha : a.IsTyped) (hc : config.IsTyped) :
    (a.withServer config).IsTyped := by
  unfold withServer
  dsimp only
  split
  · next hholds =>
    rcases hc.server with hnull | htext
    · rw [hnull] at hholds
      cases hholds
    · exact ⟨htext, ha.messages⟩
  · exact ha

theorem exists_underServer (ha : a.IsTyped) (page : String) (fields : List (String × String)) :
    ∃ url, underServer a.serverUrl page fields = .ok url := by
  obtain ⟨server, hserver⟩ := Value.textOperand_of_isText ha.server
  unfold underServer
  rw [hserver]
  exact ⟨_, rfl⟩

theorem exists_issueNote_of_isTyped (ha : a.IsTyped) {i : Issue} (hi : i ∈ a.openIssues) :
    ∃ body, a.issueNote i = .ok body := by
  obtain ⟨url, hurl⟩ := a.exists_underServer ha "/project/issues"
    [("id", a.projectKey), ("pullRequest", a.pullRequestId), ("issues", i.key), ("open", i.key)]
  obtain ⟨message, hmessage⟩ := ha.messages i (List.mem_of_mem_filter hi)
  unfold issueNote issueUrl
  rw [hurl, hmessage]
  cases (Value.text message).holds <;> exact ⟨_, rfl⟩

theorem exists_dashboard_of_isTyped (ha : a.IsTyped) : ∃ url, a.dashboard = .ok url :=
  a.exists_underServer ha "/dashboard" [("id", a.projectKey), ("pullRequest", a.pullRequestId)]

theorem exists_summaryNote_of_isTyped (ha : a.IsTyped) :
    ∃ body, a.summaryNote = .ok body := by
  obtain ⟨url, hurl⟩ := a.exists_dashboard_of_isTyped ha
  unfold summaryNote
  rw [hurl]
  exact ⟨_, rfl⟩

end Analysis

namespace Snapshot

variable {s : Snapshot} {f : Fault}

/-- The address of the merge request can be told, unless it takes a number that is too long. -/
theorem mergeRequestUrl_eq_error (hc : s.config.IsTyped) (h : s.mergeRequestUrl = .error f) :
    f = .invalid .unwritable ∧ (s.config.get "project_url").holds = true ∧
      s.mergeRequest.iid.isWritable = false := by
  unfold mergeRequestUrl at h
  dsimp only at h
  split at h
  · next hholds =>
    have htext : (s.config.get "project_url").IsText := by
      refine hc.project.resolve_left fun hnull => ?_
      rw [hnull] at hholds
      cases hholds
    obtain ⟨base, hbase⟩ := Value.textOperand_of_isText htext
    rw [hbase] at h
    cases hwritable : s.mergeRequest.iid.isWritable with
    | true =>
      rw [hwritable] at h
      cases h
    | false =>
      rw [hwritable] at h
      exact ⟨(Except.error.inj h).symm, hholds, rfl⟩
  · cases h

/-- When all is text, whatever a run writes can be written. -/
theorem not_canFail_of_isTyped (ha : s.analysis.IsTyped)
    (hurl : ∃ url, s.mergeRequestUrl = .ok url)
    (hsummaries : ∀ c ∈ s.summaries, ∀ n ∈ c.discussion.notes, n.body.IsText) : ¬s.CanFail f := by
  intro h
  cases h with
  | url h =>
    obtain ⟨url, hurl⟩ := hurl
    rw [hurl] at h
    cases h
  | issue hi h =>
    obtain ⟨body, hbody⟩ := s.analysis.exists_issueNote_of_isTyped ha hi
    rw [hbody] at h
    cases h
  | summary h =>
    obtain ⟨body, hbody⟩ := s.analysis.exists_summaryNote_of_isTyped ha
    rw [hbody] at h
    cases h
  | @flag c _ hc h =>
    rw [isFlagged, Discussion.hasNote] at h
    obtain ⟨flagged, hflagged⟩ :=
      Discussion.hasLaterNote_of_texts (fun n hn => hsummaries c hc n (List.mem_of_mem_tail hn))
        s.username (· == outdatedSummaryNote)
    rw [hflagged] at h
    cases h
  | dashboard h =>
    obtain ⟨url, hurl⟩ := s.analysis.exists_dashboard_of_isTyped ha
    rw [hurl] at h
    cases h

end Snapshot

/-- What ends a run outside of every step, once everything is read: one of the user's first notes
has a link whose address cannot be read, or the address of the merge request takes a number that is
too long to be written. -/
def Readings.Escapes (g : Readings) (config : Config) (e : Invalid) : Prop :=
  (∃ d ∈ g.discussions, d.HasBadLink g.user.username e) ∨
    (e = .unwritable ∧ (config.get "project_url").holds = true ∧
      g.mergeRequest.iid.isWritable = false)

/-- The failure of a step. -/
def Fault.IsOfStep (f : Fault) : Prop := ∃ s cause, f = .decoration s cause

/-- Whether a run ended with a result or with the failure of a step. -/
def isOrderly : Except Fault Outcome → Bool
  | .ok _ | .error (.decoration ..) => true
  | .error _ => false

theorem isOrderly_of_isOfStep {f : Fault} (h : f.IsOfStep) : isOrderly (.error f) = true := by
  obtain ⟨s, cause, rfl⟩ := h
  rfl

theorem Exchange.IsTyped.isOfStep {e : Exchange} {f : Fault} (h : e.IsTyped)
    (hf : e.answer = .error f) : (e.request.failure f).IsOfStep := by
  obtain ⟨⟨s, hs⟩, m, rfl⟩ := h.failure f hf
  exact ⟨s, _, Request.failure_transport hs⟩

variable {analysis : Analysis} {project : String} {config : Config} {number : Value}
  {t : List Exchange} {f : Fault}

/-- Whatever keeps a run from reading everything is the failure of a step. -/
theorem CannotRead.isOfStep (h : CannotRead analysis number t f) (ht : ∀ e ∈ t, e.IsTyped) :
    f.IsOfStep := by
  cases h with
  | number h =>
    obtain ⟨e, -, rfl⟩ := mapError_eq_error.mp h
    exact ⟨_, _, rfl⟩
  | commits hmem h =>
    have hkeys := (ht _ hmem).reply _ rfl
    unfold checkCommits at h
    split at h
    · next v hv =>
      obtain ⟨s, rfl⟩ := hkeys v (List.mem_of_find?_eq_some hv)
      have hnot := List.find?_some hv
      cases hnot
    · cases h
  | request hmem hs => exact (ht _ hmem).isOfStep rfl

/-- When everything is read, a run ends with a result, with the failure of a step, or by what
escapes; the latter happens before anything is asked. -/
theorem Readings.ends_writing {g : Readings} {x : Except Fault Outcome}
    (ha : analysis.IsTyped) (hc : config.IsTyped)
    (hg : ∀ d ∈ g.discussions, ∀ n ∈ d.notes, n.body.IsText) (ht : ∀ e ∈ t, e.IsTyped)
    (h : (g.writing analysis config).Ends t x) :
    isOrderly x = true ∨ ∃ e, x = .error (.invalid e) ∧ t = [] ∧ g.Escapes config e := by
  have hclassify := failStop_classifyAll g.user.username
    (some (analysis.withServer config).projectKey) g.discussions
  have hsilent {ss : List Exchange} {y : Except Fault (List Classified)}
      (hy : (classifyAll g.user.username (some (analysis.withServer config).projectKey)
        g.discussions).Ends ss y) : ss = [] :=
    List.eq_nil_iff_forall_not_mem.mpr (hclassify.ends hy).1
  rcases ends_bind h with ⟨f, rfl, hfault⟩ | ⟨cs, ss, ts, rfl, hcs, hwrite⟩
  · obtain rfl := hsilent hfault
    rcases (hclassify.ends hfault).2 with ⟨cs, heq, -⟩ | ⟨f', heq, d, hd, hbad⟩ | ⟨e, he, -⟩
    · cases heq
    · obtain rfl := Except.error.inj heq
      obtain ⟨e, rfl, hlink⟩ := Discussion.hasBadLink_of_classify_eq_error (hg d hd) hbad
      exact Or.inr ⟨e, rfl, rfl, Or.inl ⟨d, hd, hlink⟩⟩
    · cases he
  · obtain rfl := hsilent hcs
    have hclassified : ∀ c ∈ cs, ∀ n ∈ c.discussion.notes, n.body.IsText := by
      intro c hmem
      rcases (hclassify.ends hcs).2 with ⟨cs', heq, hall⟩ | ⟨f, heq, -⟩ | ⟨e, he, -⟩
      · obtain rfl := Except.ok.inj heq
        obtain ⟨d, hd, hdc⟩ := hall c hmem
        rw [Discussion.discussion_of_classify hdc]
        exact hg d hd
      · cases heq
      · cases he
    have hsummaries : ∀ c ∈ (g.snapshot analysis config cs).summaries,
        ∀ n ∈ c.discussion.notes, n.body.IsText :=
      fun c hmem => hclassified c (List.mem_of_mem_filter hmem)
    cases hurl : (g.snapshot analysis config cs).mergeRequestUrl with
    | error f =>
      obtain ⟨rfl, hholds, hlong⟩ := Snapshot.mergeRequestUrl_eq_error hc hurl
      unfold Snapshot.write at hwrite
      rw [hurl] at hwrite
      obtain ⟨rfl, rfl⟩ := hwrite
      exact Or.inr ⟨.unwritable, rfl, rfl, Or.inr ⟨rfl, hholds, hlong⟩⟩
    | ok url =>
      rcases ((Snapshot.failStop_write _).ends hwrite).2 with ⟨o, rfl, -⟩ | ⟨f, -, hfault⟩ |
        ⟨e, he, f, hf, rfl⟩
      · exact Or.inl rfl
      · have htyped := analysis.withServer_isTyped ha hc
        exact absurd hfault (Snapshot.not_canFail_of_isTyped htyped ⟨url, hurl⟩ hsummaries)
      · exact Or.inl (isOrderly_of_isOfStep ((ht e he).isOfStep hf))

/-- When all is of the types that it should be, a run ends with a result or with the failure of a
step, or it has read everything, written nothing, and met an address that cannot be read or cannot
be written. Texts are of characters, so a key with half a surrogate pair is beyond what is said. -/
theorem decorate_ends {σ : Type} (b : Backend σ) (w : σ) (ha : analysis.IsTyped)
    (hc : config.IsTyped)
    (ht : ∀ e ∈ (decorate analysis project config number).trace b w, e.IsTyped) :
    let run := decorate analysis project config number
    isOrderly (run.run b w).1 = true ∨
    ∃ (e : Invalid) (g : Readings), (run.run b w).1 = .error (.invalid e) ∧
      run.trace b w = g.exchanges project ∧ g.Escapes config e := by
  intro run
  rcases ends_decorate (ends_run run b w) with ⟨f, hend, hread, -⟩ | ⟨g, rest, htrace, hwriting⟩
  · rw [hend]
    exact Or.inl (isOrderly_of_isOfStep (hread.isOfStep ht))
  · change ∀ e ∈ run.trace b w, e.IsTyped at ht
    rw [htrace] at ht
    obtain ⟨hg, hrest⟩ := List.forall_mem_append.mp ht
    have hdiscussions := (hg _ (List.mem_of_getLast? rfl)).reply _ rfl
    rcases Readings.ends_writing ha hc hdiscussions hrest hwriting with
      horderly | ⟨e, hend, rfl, hescapes⟩
    · exact Or.inl horderly
    · rw [List.append_nil] at htrace
      exact Or.inr ⟨e, g, hend, htrace, hescapes⟩

/-- A platform of texts that forgets what is written shows texts only. -/
theorem isTyped_of_mem_trace {α : Type} {p : Platform} (hcommits : ∀ v ∈ p.commits, v.IsText)
    (hnotes : ∀ d ∈ p.discussions, ∀ n ∈ d.notes, n.body.IsText) (prog : Program α) :
    ∀ e ∈ prog.trace ⟨fun r q => (.ok (q.answer r).1, q), fun _ q => q⟩ p, e.IsTyped := by
  induction prog with
  | done a => nofun
  | stop f => nofun
  | log r next ih => exact ih
  | ask r next ih =>
    refine List.forall_mem_cons.mpr ⟨⟨nofun, ?_⟩, ih _⟩
    intro x hx
    obtain rfl := Except.ok.inj hx
    cases r with
    | commits => exact hcommits
    | discussions => exact hnotes
    | _ => exact trivial

/-- A run that meets a note of the user's with half a bracket in its link. -/
theorem decorate_ends_sample :
    let b : Backend Platform := ⟨fun r q => (.ok (q.answer r).1, q), fun _ q => q⟩
    let p : Platform := {
      mergeRequest := fun iid => ⟨iid, .int 1, .int 2, .text "b", .text "s", .text "h", .text "u"⟩
      discussions := [⟨.text "d", [{
        id := .int 1
        author := ⟨.text "sonar-bot", .null⟩
        body := .text "[View in SonarQube](https://[x?issues=A)" }]⟩] }
    let run := decorate sampleReport "g/p" []
    isOrderly (run.run b p).1 = false ∧
    ∃ (e : Invalid) (g : Readings), (run.run b p).1 = .error (.invalid e) ∧
      run.trace b p = g.exchanges "g/p" ∧ g.Escapes [] e := by
  intro b p run
  have hreport : sampleReport.IsTyped := by
    refine ⟨⟨_, rfl⟩, ?_⟩
    simp [sampleReport, Value.IsText]
  have hconfig : Config.IsTyped [] := ⟨Or.inl rfl, Or.inl rfl⟩
  have htyped : ∀ e ∈ run.trace b p, e.IsTyped := by
    apply isTyped_of_mem_trace
    · simp [p]
    · simp [p, Value.IsText]
  have hescapes : isOrderly (run.run b p).1 = false := by decide +kernel
  refine ⟨hescapes, (decorate_ends b p hreport hconfig htyped).resolve_left ?_⟩
  rw [hescapes]
  exact Bool.false_ne_true

/-- A server address with half a bracket is written to the summary by the first run, and the next
run ends on it. -/
theorem decorate_stopped_by_own_note :
    let w : Watched := { platform := {
      mergeRequest := fun iid =>
        ⟨iid, .int 1, .int 2, .text "b", .text "s", .text "h", .text "u"⟩ } }
    let report : Analysis := {
      projectKey := "p"
      pullRequestId := "7"
      commitSha := "abc"
      gate := .error
      serverUrl := .text "http://[x" }
    let once := (decorate report "g/p" []).run (Watched.backend .never) w
    let again := (decorate report "g/p" []).run (Watched.backend .never) once.2
    report.IsTyped ∧ Config.IsTyped [] ∧ once.1.isOk = true ∧ isOrderly again.1 = false := by
  intro w report once again
  refine ⟨⟨⟨_, rfl⟩, nofun⟩, ⟨Or.inl rfl, Or.inl rfl⟩, ?_, ?_⟩
  · decide +kernel
  · decide +kernel

end MergeDecoration
