import MergeDecoration.Proofs.Decoration.Mirror
import MergeDecoration.Proofs.Decoration.Reading
import MergeDecoration.Proofs.Platform.Numbering

/-!
What others write. Discussions that others started make no difference to a run, nor does what others
wrote below the program's notes; and a run names no discussion but its own.
-/
namespace MergeDecoration

open Program

/-- A note of the user as it is; of a note of somebody else only that it is there, whose it is, and
whether it is a system message. -/
def Note.blotted (user : Value) (n : Note) : Note :=
  if n.isBy user then n else { n with body := .null, resolvable := false, resolved := false }

namespace Note

variable {user : Value} {n : Note}

theorem isBy_blotted (user : Value) (n : Note) : (n.blotted user).isBy user = n.isBy user := by
  unfold blotted
  split <;> rfl

theorem blotted_of_isBy (h : n.isBy user = true) : n.blotted user = n := by
  rw [blotted, if_pos h]

theorem system_blotted (user : Value) (n : Note) : (n.blotted user).system = n.system := by
  unfold blotted
  split <;> rfl

end Note

namespace Discussion

variable {d : Discussion} {user : Value}

/-- Whether the first note is the user's. -/
def isStartedBy (d : Discussion) (user : Value) : Bool := d.notes.head?.any (·.isBy user)

/-- A discussion without what others wrote below its first note. -/
def blotted (user : Value) (d : Discussion) : Discussion :=
  { d with notes := d.notes.take 1 ++ (d.notes.drop 1).map (·.blotted user) }

theorem notes_blotted {first : Note} {rest : List Note} (user : Value)
    (h : d.notes = first :: rest) :
    (d.blotted user).notes = first :: rest.map (·.blotted user) := by
  rw [blotted, h]
  rfl

theorem notes_blotted_nil (user : Value) (h : d.notes = []) : (d.blotted user).notes = [] := by
  rw [blotted, h]
  rfl

theorem tail_blotted (user : Value) (d : Discussion) :
    (d.blotted user).notes.tail = d.notes.tail.map (·.blotted user) := by
  cases h : d.notes with
  | nil =>
    rw [notes_blotted_nil user h]
    rfl
  | cons first rest =>
    rw [notes_blotted user h]
    rfl

theorem head?_blotted (user : Value) (d : Discussion) :
    (d.blotted user).notes.head? = d.notes.head? := by
  cases h : d.notes with
  | nil =>
    rw [notes_blotted_nil user h]
  | cons first rest =>
    rw [notes_blotted user h]
    rfl

/-- Only the user's own later notes are read. -/
theorem hasLaterNote_blotted (q : String → Bool) :
    (d.blotted user).hasLaterNote user q = d.hasLaterNote user q := by
  unfold hasLaterNote
  rw [tail_blotted]
  induction d.notes.tail with
  | nil => rfl
  | cons n ns ih =>
    rw [List.map_cons, List.anyM_cons, List.anyM_cons, ih, Note.isBy_blotted]
    cases hby : n.isBy user with
    | true => rw [Note.blotted_of_isBy hby]
    | false => rfl

theorem replies_blotted (user : Value) (d : Discussion) :
    (d.blotted user).replies.isEmpty = d.replies.isEmpty := by
  rw [replies, replies, tail_blotted, List.filter_map, List.isEmpty_map]
  congr 1
  apply List.filter_congr
  intro n _
  rw [Function.comp_apply, Note.system_blotted]

theorem resolved_blotted (user : Value) (d : Discussion) :
    (d.blotted user).resolved = d.resolved := by
  unfold resolved
  cases h : d.notes with
  | nil => rw [notes_blotted_nil user h]
  | cons first rest => rw [notes_blotted user h]

theorem isClosed_blotted (user : Value) (d : Discussion) :
    (d.blotted user).isClosed user = d.isClosed user := by
  rw [isClosed, isClosed, resolved_blotted, hasLaterNote_blotted]

end Discussion

/-- A classified discussion without what others wrote below its first note. -/
def Classified.blotted (user : Value) (c : Classified) : Classified :=
  { c with discussion := c.discussion.blotted user }

theorem Classified.looksLike_blotted (user : Value) (c : Classified) :
    c.LooksLike user (c.blotted user) := by
  refine ⟨rfl, rfl, rfl, rfl, ?_, Discussion.replies_blotted user _,
    Discussion.hasLaterNote_blotted _⟩
  rw [Snapshot.firstNoteId, Snapshot.firstNoteId, blotted, Discussion.head?_blotted]

namespace Discussion

variable {d : Discussion} {user : Value} {project : Option String}

/-- A discussion is classified without regard to what others wrote below its first note. -/
theorem classify_blotted (user : Value) (project : Option String) (d : Discussion) :
    (d.blotted user).classify user project =
      Classified.blotted user <$> d.classify user project := by
  unfold classify
  cases h : d.notes with
  | nil =>
    rw [notes_blotted_nil user h]
    rfl
  | cons first rest =>
    rw [notes_blotted user h, replies_blotted, isClosed_blotted, resolved_blotted]
    simp only [apply_ite (Classified.blotted user <$> ·), map_bind, map_pure]
    rfl

/-- A run leaves the discussions of others alone. -/
theorem isIdle_of_isStartedBy {key : String} (h : d.isStartedBy user = false) :
    d.isIdle user key = true := by
  have hclassify : d.classify user (some key) = .ok ⟨d, .unrelated, none, false⟩ := by
    unfold classify
    cases hn : d.notes with
    | nil => rfl
    | cons first rest =>
      rw [isStartedBy, hn] at h
      have hby : first.isBy user = false := h
      dsimp only
      rw [hby]
      rfl
  rw [isIdle_of_classify hclassify]
  rfl

end Discussion

/-- The discussions that the user started, without what others wrote below. -/
def ownDiscussions (user : Value) (ds : List Discussion) : List Discussion :=
  (ds.filter (·.isStartedBy user)).map (·.blotted user)

/-- A run goes by the user's own discussions alone. -/
theorem quiet_writing_own (g : Readings) (analysis : Analysis) (config : Config) :
    ((g.showing (ownDiscussions g.user.username g.discussions)).writing analysis config).quiet =
      (g.writing analysis config).quiet := by
  have hclassify : ∀ (project : Option String) (ds : List Discussion),
      (ds.map (·.blotted g.user.username)).mapM (·.classify g.user.username project) =
        List.map (Classified.blotted g.user.username) <$>
          ds.mapM (·.classify g.user.username project) := by
    intro project ds
    induction ds with
    | nil => rfl
    | cons d ds ih =>
      rw [List.map_cons, List.mapM_cons, List.mapM_cons, ih, Discussion.classify_blotted]
      cases d.classify g.user.username project with
      | error e => rfl
      | ok c => cases ds.mapM (·.classify g.user.username project) <;> rfl
  have hblotted : ∀ ds, ((g.showing (ds.map (·.blotted g.user.username))).writing
      analysis config).quiet = ((g.showing ds).writing analysis config).quiet := by
    intro ds
    refine quiet_writing_congr (g.showing ds) (hclassify _ ds) fun cs => ?_
    refine Snapshot.write_eq_of_looksLike
      (s := (g.showing ds).snapshot analysis config cs)
      (Classified.looksLike_blotted g.user.username) ?_
    rw [List.filter_map]
    rfl
  -- What is not left alone was started by the user, so it is kept.
  have hstarted := quiet_writing_filter
    (g.showing (g.discussions.filter (·.isStartedBy g.user.username))) analysis config
  rw [ownDiscussions, hblotted, ← hstarted, ← quiet_writing_filter g]
  congr 2
  dsimp only [Readings.showing]
  rw [List.filter_filter]
  congr 1
  apply List.filter_congr
  intro d _
  cases h : d.isStartedBy g.user.username with
  | true => rw [Bool.and_true]
  | false =>
    rw [Discussion.isIdle_of_isStartedBy h]
    rfl

/-- The backend, except that it shows the given discussions. -/
def Backend.showing {σ : Type} (b : Backend σ) (ds : List Discussion) : Backend σ where
  answer
    | .discussions project iid, w => (.ok ds, (b.answer (.discussions project iid) w).2)
    | r, w => b.answer r w
  record := b.record

namespace Program

variable {σ α : Type} {b : Backend σ} {prog : Program α} {w : σ}

theorem answer_showing {r : Request} (ds : List Discussion) (h : r.isListing = false) :
    (b.showing ds).answer r = b.answer r := by
  cases r with
  | discussions => cases h
  | _ => rfl

/-- Which discussions are shown makes no difference to a program that does not ask for them. -/
theorem trace_showing {allowed : Request → Prop} {result : α → Prop} (ds : List Discussion)
    (hp : prog.Asks allowed result) (h : ∀ r, allowed r → r.isListing = false) :
    prog.run (b.showing ds) w = prog.run b w ∧ prog.trace (b.showing ds) w = prog.trace b w := by
  induction hp generalizing w with
  | done => exact ⟨rfl, rfl⟩
  | stop => exact ⟨rfl, rfl⟩
  | log _ ih => exact ih
  | @ask r next hr hfail _ ih =>
    simp only [run, trace, answer_showing ds (h r hr)]
    cases (b.answer r w).1 with
    | ok x =>
      obtain ⟨hrun, htrace⟩ := ih x (w := (b.answer r w).2)
      exact ⟨hrun, congrArg _ htrace⟩
    | error f =>
      obtain ⟨g, hg⟩ := hfail f
      rw [hg]
      exact ⟨rfl, rfl⟩

end Program

namespace Readings

variable {σ : Type} {b : Backend σ} {v : σ} {analysis : Analysis} {config : Config}

/-- Runs that have read the same of the user's own discussions go on in the same way. -/
theorem trace_writing_own (g : Readings) (analysis : Analysis) (config : Config)
    {ds : List Discussion} (hb : ∀ l w, b.record l w = w)
    (h : ownDiscussions g.user.username g.discussions = ownDiscussions g.user.username ds) :
    (g.writing analysis config).trace b v = ((g.showing ds).writing analysis config).trace b v ∧
    (g.writing analysis config).run b v = ((g.showing ds).writing analysis config).run b v := by
  have hdeaf := Backend.isDeaf_of_record_eq hb
  have hquiet : (g.writing analysis config).quiet =
      ((g.showing ds).writing analysis config).quiet := by
    rw [← quiet_writing_own, ← quiet_writing_own (g.showing ds), h]
    rfl
  obtain ⟨htrace, hresult, hstate⟩ := trace_quiet hdeaf (g.writing analysis config) (Eq.refl v)
  obtain ⟨htrace', hresult', hstate'⟩ :=
    trace_quiet hdeaf ((g.showing ds).writing analysis config) (Eq.refl v)
  rw [hquiet] at htrace hresult hstate
  exact ⟨htrace.trans htrace'.symm, Prod.ext (hresult.trans hresult'.symm)
    (hstate.trans hstate'.symm)⟩

/-- A run names the discussions that its user started, and those that it opened. -/
theorem target_of_mem_trace (g : Readings) {e : Exchange} {id : Value}
    (he : e ∈ (g.writing analysis config).trace b v) (hid : e.request.target? = some id) :
    (∃ d ∈ g.discussions, d.isStartedBy g.user.username = true ∧ d.id = id) ∨
    ∃ (project iid : Value) (body : String) (new : Discussion),
      (⟨.createDiscussion project iid (.general body), .ok new⟩ : Exchange) ∈
        (g.writing analysis config).trace b v ∧ new.id = id := by
  let R : Value → Value → Prop := fun x y => x = y ∧
    ((∃ d ∈ g.discussions, d.isStartedBy g.user.username = true ∧ d.id = x) ∨
    ∃ (project iid : Value) (body : String) (new : Discussion),
      (⟨.createDiscussion project iid (.general body), .ok new⟩ : Exchange) ∈
        (g.writing analysis config).trace b v ∧ new.id = x)
  have halike : (g.writing analysis config).Alike R Eq (g.writing analysis config) := by
    refine g.alike_writing analysis config fun d hd c hc hidle => ⟨rfl, Or.inl ⟨d, hd, ?_, rfl⟩⟩
    by_contra hforeign
    apply hidle
    rw [← Classified.isIdle_iff, ← Discussion.isIdle_of_classify hc]
    exact Discussion.isIdle_of_isStartedBy (Bool.not_eq_true _ ▸ hforeign)
  obtain ⟨htrace, -⟩ := halike.trace (b.mirrors_self fun _ _ h => h.1) rfl (fun _ _ => trivial)
    fun x y hopened => ⟨hopened.eq_of_self.1, Or.inr hopened.eq_of_self.2⟩
  have hsame := (List.forall₂_same.mp htrace e he).request
  generalize e.request = r at hsame hid
  cases hsame with
  | same h => exact (h id hid).2
  | resolve h =>
    rw [← Option.some.inj hid]
    exact h.2

end Readings

section

variable {σ : Type} {analysis : Analysis} {project : String} {config : Config} {number : Value}
  {ds ds' : List Discussion} {user : Value}

/-- Two lists of discussions in which the user's own are the same make the same run. No run names a
discussion that somebody else started. -/
theorem decorate_own (b : Backend σ) (hb : ∀ l w, b.record l w = w) (w : σ)
    (huser : ∀ u, ⟨.currentUser, .ok u⟩ ∈
      (decorate analysis project config number).trace (b.showing ds) w → User.username u = user)
    (hown : ownDiscussions user ds = ownDiscussions user ds') :
    let run := decorate analysis project config number
    run.run (b.showing ds) w = run.run (b.showing ds') w ∧
    run.asked (b.showing ds) w = run.asked (b.showing ds') w ∧
    (ds.Pairwise (fun d e => d.id.Apart e.id) →
      (∀ project iid note (new : Discussion),
        ⟨.createDiscussion project iid note, .ok new⟩ ∈ run.trace (b.showing ds) w →
        ∀ d ∈ ds, d.id.Apart new.id) →
      ∀ d ∈ ds, d.isStartedBy user = false → ∀ r ∈ run.asked (b.showing ds) w,
        r.concerns d.id = false) := by
  intro run
  have hreads : (b.showing ds).ReadsAlike (b.showing ds') Eq
      fun x x' => x = ds ∧ x' = ds' := by
    constructor
    · rintro r w _ - hr rfl
      rw [answer_showing ds hr, answer_showing ds' hr]
      exact ⟨rfl, rfl⟩
    · rintro project iid w _ rfl
      exact ⟨Or.inr ⟨ds, ds', rfl, rfl, rfl, rfl⟩, rfl⟩
  rw [← map_request_trace, ← map_request_trace]
  rcases decorate_readsAlike hreads (Eq.refl w) analysis project config number with
    ⟨f, t, v, _, rfl, hstop, hstop', hnone⟩ |
    ⟨g, shown, v, _, rfl, ⟨hds, hshown⟩, -, hreach, hreach'⟩
  · change run.Reaches _ _ _ _ _ at hstop hstop'
    rw [hstop.1, hstop'.1, hstop.2, hstop'.2]
    refine ⟨rfl, rfl, ?_⟩
    intro _ _ d _ _ r hr
    obtain ⟨e, he, rfl⟩ := List.mem_map.mp hr
    rw [trace, List.append_nil] at he
    rw [Request.concerns, Request.target?_of_not_isWrite (hnone e he), Option.any_none]
  · change run.Reaches _ _ _ _ _ at hreach hreach'
    obtain rfl : g.user.username = user := by
      apply huser
      change _ ∈ run.trace _ _
      rw [hreach.2]
      exact List.mem_append_left _ (by simp [Readings.exchanges])
    subst hds hshown
    obtain ⟨hrun, htrace⟩ := trace_showing (b := b) (w := v) g.discussions
      (g.failStop_writing analysis config).asks fun _ => Request.isListing_of_writing
    obtain ⟨hrun', htrace'⟩ := trace_showing (b := b) (w := v) shown
      ((g.showing shown).failStop_writing analysis config).asks fun _ => Request.isListing_of_writing
    obtain ⟨hsame, hresult⟩ :=
      g.trace_writing_own (v := v) analysis config hb hown
    rw [hreach.1, hreach'.1, hreach.2, hreach'.2, hrun, hrun', htrace, htrace', hsame, hresult,
      List.map_append, List.map_append]
    refine ⟨rfl, rfl, ?_⟩
    intro hapart hnew d hd hforeign r hr
    rw [← hsame] at hr hnew
    cases htarget : r.target? with
    | none => rw [Request.concerns, htarget, Option.any_none]
    | some id =>
      rw [Request.concerns, htarget, Option.any_some]
      rw [← List.map_append] at hr
      obtain ⟨e, he, rfl⟩ := List.mem_map.mp hr
      rcases List.mem_append.mp he with he | he
      · rw [Readings.target?_of_mem_exchanges he] at htarget
        cases htarget
      · rcases g.target_of_mem_trace he htarget with
          ⟨own, hmem, hstarted, rfl⟩ | ⟨project, iid, body, new, hopened, rfl⟩
        · have hne : d ≠ own := by
            rintro rfl
            exact Bool.noConfusion (hforeign.symm.trans hstarted)
          have : Std.Symm fun d e : Discussion => d.id.Apart e.id := ⟨fun _ _ h => h.symm⟩
          exact (hapart.forall hd hmem hne).1
        · exact (hnew project iid _ new (List.mem_append_right _ hopened) d hd).1

end
/-- A thread of the program's with a reply, which is edited, beside a thread of a person who pastes
a link of the project. -/
theorem decorate_own_pasted_link :
    let p := sampleWatched.platform
    let b : Backend Unit := ⟨fun r _ => (.ok (p.answer r).1, ()), fun _ w => w⟩
    let link := "[View in SonarQube](http://x/project/issues?id=p+k&issues=old&open=old)"
    let own (reply : String) : Discussion := ⟨.int 6, [
      { id := .int 1, author := ⟨.text "sonar-bot", .null⟩, body := .text link,
        resolvable := true },
      { id := .int 2, author := ⟨.text "alice", .null⟩, body := .text reply }]⟩
    let pasted : Discussion := ⟨.int 5, [
      { id := .int 3, author := ⟨.text "alice", .null⟩, body := .text link, resolvable := true }]⟩
    let run := decorate sampleReport "g/p" []
    (run.run (b.showing [pasted, own "resolved"]) ()).1.isOk = true ∧
    run.run (b.showing [pasted, own "resolved"]) () = run.run (b.showing [own "why?"]) () ∧
    run.asked (b.showing [pasted, own "resolved"]) () = run.asked (b.showing [own "why?"]) () ∧
    ∀ r ∈ run.asked (b.showing [pasted, own "resolved"]) (), r.concerns (.int 5) = false := by
  intro p b link own pasted run
  have huser : ∀ u, ⟨.currentUser, .ok u⟩ ∈ run.trace (b.showing [pasted, own "resolved"]) () →
      User.username u = .text "sonar-bot" := by
    intro u hu
    obtain ⟨v, hv⟩ := exists_answer_of_mem_trace hu
    rw [← Except.ok.inj hv]
    rfl
  have hown : ownDiscussions (.text "sonar-bot") [pasted, own "resolved"] =
      ownDiscussions (.text "sonar-bot") [own "why?"] := by
    simp [ownDiscussions, Discussion.isStartedBy, Discussion.blotted, Note.blotted, Note.isBy,
      Value.same_text, pasted, own]
  have hforeign : pasted.isStartedBy (.text "sonar-bot") = false := by
    simp [Discussion.isStartedBy, Note.isBy, Value.same_text, pasted]
  obtain ⟨hrun, hasked, hspared⟩ := decorate_own b (fun _ _ => rfl) () huser hown
  refine ⟨by decide +kernel, hrun, hasked, ?_⟩
  refine hspared ?_ ?_ pasted (List.mem_cons_self ..) hforeign
  · simp [Value.Apart, Value.same_int, pasted, own]
  · intro project iid note new hnew d hd
    obtain ⟨v, hv⟩ := exists_answer_of_mem_trace hnew
    rw [← Except.ok.inj hv]
    simp only [List.mem_cons, List.not_mem_nil, or_false] at hd
    rcases hd with rfl | rfl <;> exact (Value.apart_text_int _ _).symm

end MergeDecoration
