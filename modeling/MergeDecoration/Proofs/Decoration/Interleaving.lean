import MergeDecoration.Proofs.Decoration.Requests
import MergeDecoration.Proofs.Discussion.Classification
import MergeDecoration.Proofs.Platform.Authorship

/-!
Any number of runs at once on one merge request, with people at work between any two of their
requests. Each run goes by what it read a while ago.
-/
namespace MergeDecoration

open Program

attribute [local irreducible] Program.Careful

/-- What people do on the platform; they edit and delete notes of their own. -/
inductive HumanAction
  | post (author body : Value) (resolvable : Bool)
  | reply (discussion author body : Value) (resolvable system : Bool)
  | edit (discussion note author body : Value)
  | delete (discussion note author : Value)
  | resolve (discussion : Value) (resolved : Bool)

namespace Platform

def act (p : Platform) : HumanAction → Platform
  | .post author body resolvable => (p.openDiscussion author body resolvable).2
  | .reply id author body resolvable system => p.reply id author body resolvable system
  | .edit id note author body =>
    p.rewrite id fun n => if n.id.same note && n.isBy author then { n with body } else n
  | .delete id note author => p.remove id fun n => n.id.same note && n.isBy author
  | .resolve id resolved => p.setResolved id resolved

theorem evolves_act (p : Platform) (a : HumanAction) : p.Evolves (p.act a) := by
  cases a with
  | post author body resolvable => exact evolves_openDiscussion p author body resolvable
  | reply id author body resolvable system => exact evolves_reply p id author body resolvable system
  | edit id note author body => exact evolves_rewrite fun n => by split <;> exact ⟨rfl, rfl⟩
  | delete id note author => exact evolves_remove p id _
  | resolve id resolved => exact evolves_rewrite fun n => by split <;> exact ⟨rfl, rfl⟩

theorem isNumbered_rewrite {p : Platform} {id : Value} {f : Note → Note} (h : p.IsNumbered)
    (hf : ∀ n, (f n).id = n.id) : (p.rewrite id f).IsNumbered := by
  refine h.congr rfl rfl ?_
  rw [rewrite, update, List.map_map]
  apply List.map_congr_left
  intro d _
  rw [Function.comp_apply]
  split
  · rw [Discussion.noteIds, List.map_map, Discussion.noteIds]
    exact congrArg (Prod.mk d.id) (List.map_congr_left fun n _ => hf n)
  · rfl

theorem isNumbered_remove {p : Platform} (h : p.IsNumbered) (id : Value) (gone : Note → Bool) :
    (p.remove id gone).IsNumbered := by
  obtain ⟨f, hf, hleft⟩ := p.remove_eq id gone
  rw [hf]
  constructor
  · refine h.discussions.sublist (sublist_ids fun d e he => ?_)
    obtain ⟨keep, rfl⟩ := hleft d e he
    rfl
  · intro e he
    obtain ⟨d, hd, he⟩ := List.mem_filterMap.mp he
    obtain ⟨keep, rfl⟩ := hleft d e he
    exact (h.notes d hd).sublist (List.filter_sublist.map _)

/-- Whatever people do, ids stay unique: new ones are given as they are to the machine user. -/
theorem isNumbered_act {p : Platform} (h : p.IsNumbered) (a : HumanAction) :
    (p.act a).IsNumbered := by
  cases a with
  | post author body resolvable =>
    refine (isNumbered_answer h (.createDiscussion .null .null (.general ""))).congr rfl rfl ?_
    simp only [act, answer, openDiscussion, List.map_append]
    rfl
  | reply id author body resolvable system =>
    have hanswer := isNumbered_answer h (.addNote .null .null id "")
    by_cases hholds : p.holds id = true
    · simp only [answer, reply, if_pos hholds] at hanswer
      simp only [act, reply, if_pos hholds]
      refine hanswer.congr rfl rfl ?_
      simp only [update, List.map_map]
      apply List.map_congr_left
      intro d _
      simp only [Function.comp_apply, Discussion.noteIds]
      split
      · simp only [List.map_append, List.map_cons, List.map_nil]
      · rfl
    · simp only [act, reply, if_neg hholds]
      exact h
  | edit id note author body => exact isNumbered_rewrite h fun n => by split <;> rfl
  | delete id note author => exact isNumbered_remove h id _
  | resolve id resolved => exact isNumbered_rewrite h fun n => by split <;> rfl

end Platform

/-- A platform and the runs on it, each at some point of its program. -/
structure World where
  platform : Platform
  runs : List (Program Outcome) := []

/-- What happens next. -/
inductive Event
  | start (analysis : Analysis) (project : String) (config : Config) (number : Value)
  | advance (run : Nat)
  | fail (run : Nat) (fault : Fault)
  | act (action : HumanAction)

namespace World

/-- A run goes on; if it has a request, the platform answers it. -/
def advance (w : World) (i : Nat) : World :=
  match w.runs[i]? with
  | some (.log _ next) => { w with runs := w.runs.set i next }
  | some (.ask r next) =>
    let (reply, platform) := w.platform.answer r
    ⟨platform, w.runs.set i (next (.ok reply))⟩
  | _ => w

/-- A request of a run fails, to no other effect. -/
def fail (w : World) (i : Nat) (fault : Fault) : World :=
  match w.runs[i]? with
  | some (.ask _ next) => { w with runs := w.runs.set i (next (.error fault)) }
  | _ => w

def step (w : World) : Event → World
  | .start analysis project config number =>
    { w with runs := w.runs ++ [decorate analysis project config number] }
  | .advance i => w.advance i
  | .fail i fault => w.fail i fault
  | .act a => { w with platform := w.platform.act a }

/-- The world after events. -/
def run (w : World) (events : List Event) : World := events.foldl step w

/-- What a run is about to ask. -/
def request? (w : World) (i : Nat) : Option Request :=
  match w.runs[i]? with
  | some (.ask r _) => some r
  | _ => none

end World

/-- The first note of a summary heads its discussion. -/
theorem isHeadedBy_firstNoteId {d : Discussion} {user : Value} {project : Option String}
    {c : Classified} (h : d.classify user project = .ok c) (hkind : c.kind = .summary) :
    d.IsHeadedBy user (Snapshot.firstNoteId c) := by
  obtain ⟨first, rest, body, hnotes, hby, -⟩ := Discussion.startsSummary_of_kind h hkind
  refine ⟨first, rest, hnotes, hby, ?_⟩
  rw [Snapshot.firstNoteId, Discussion.discussion_of_classify h, hnotes]
  rfl

/-- A run rewrites no notes but those that it was shown as the first ones of the user's own
discussions. -/
theorem careful_decorate (user : Value) (analysis : Analysis) (project : String) (config : Config)
    (number : Value) (known : Value → Prop) :
    (decorate analysis project config number).Careful user known := by
  unfold decorate
  refine careful_lift_bind (x := readNumber _) ?_
  intro iid _
  refine careful_step_bind (r := .mergeRequest ..) rfl ?_
  intro mergeRequest _
  refine careful_step_bind (r := .currentUser) rfl ?_
  intro shown hshown
  refine careful_step_bind (r := .commits ..) rfl ?_
  intro commits _
  refine careful_lift_bind (x := checkCommits _) ?_
  intro _ _
  refine careful_step_bind (r := .discussions ..) rfl ?_
  intro raw _
  refine careful_bind_of_silent (asks_classifyAll _ _ raw) ?_
  intro discussions hdiscussions
  refine careful_of_asks (Snapshot.asks_write _) ?_
  intro r hr note hnote
  obtain ⟨c, hc, rfl⟩ := hr note hnote
  obtain ⟨hmem, hkind⟩ := List.mem_filter.mp hc
  obtain ⟨d, hd, hclassify⟩ := hdiscussions c hmem
  rw [show User.username shown = user from hshown] at hclassify
  exact Or.inr ⟨d, hd, isHeadedBy_firstNoteId hclassify (beq_iff_eq.mp hkind)⟩

namespace World

/-- Each run knows notes of the machine user only, and rewrites no others. -/
structure Sound (w : World) : Prop where
  signed : w.platform.IsSigned
  runs : ∀ prog ∈ w.runs, ∃ known, w.platform.Trusts known ∧
    prog.Careful w.platform.username known

variable {w : World}

/-- A change of the platform leaves what runs know true, and each of them may go on. -/
theorem sound_of_evolves {q : Platform} {runs : List (Program Outcome)} (h : w.Sound)
    (hq : w.platform.Evolves q)
    (hruns : ∀ prog ∈ runs, prog ∈ w.runs ∨ ∃ known, w.platform.Trusts known ∧
      prog.Careful w.platform.username known) : (World.mk q runs).Sound := by
  refine ⟨Platform.isSigned_of_evolves hq h.signed, ?_⟩
  intro prog hprog
  obtain ⟨known, hknown, hcareful⟩ : ∃ known, w.platform.Trusts known ∧
      prog.Careful w.platform.username known := by
    rcases hruns prog hprog with hmem | hex
    · exact h.runs prog hmem
    · exact hex
  refine ⟨known, Platform.trusts_of_evolves hq hknown, ?_⟩
  rw [hq.username]
  exact hcareful

/-- An answer to the machine user calls it by its name. -/
theorem isAnswer_answer (p : Platform) (r : Request) : r.IsAnswer p.username (p.answer r).1 := by
  cases r with
  | currentUser => rfl
  | _ => exact trivial

theorem trusts_none (p : Platform) : p.Trusts fun _ => False := ⟨nofun, nofun⟩

theorem sound_start (h : w.Sound) (analysis : Analysis) (project : String) (config : Config)
    (number : Value) : (w.step (.start analysis project config number)).Sound := by
  apply sound_of_evolves h (Platform.evolves_refl w.platform)
  intro prog hprog
  rcases List.mem_append.mp hprog with hprog | hprog
  · exact Or.inl hprog
  · rw [List.mem_singleton.mp hprog]
    exact Or.inr ⟨_, trusts_none _, careful_decorate ..⟩

theorem sound_advance (h : w.Sound) (i : Nat) : (w.advance i).Sound := by
  unfold advance
  split
  · next record next hi =>
    obtain ⟨known, hknown, hcareful⟩ := h.runs _ (List.mem_of_getElem? hi)
    apply sound_of_evolves h (Platform.evolves_refl w.platform)
    intro prog hprog
    rcases List.mem_or_eq_of_mem_set hprog with hprog | rfl
    · exact Or.inl hprog
    · exact Or.inr ⟨known, hknown, careful_log.mp hcareful⟩
  · next r next hi =>
    obtain ⟨known, hknown, hcareful⟩ := h.runs _ (List.mem_of_getElem? hi)
    obtain ⟨-, -, hnext⟩ := careful_ask.mp hcareful
    -- The run goes on with what it just read, which is true of the platform before the answer.
    apply sound_of_evolves h (Platform.evolves_answer w.platform r)
    intro prog hprog
    rcases List.mem_or_eq_of_mem_set hprog with hprog | rfl
    · exact Or.inl hprog
    · exact Or.inr ⟨_, Platform.trusts_learn h.signed hknown r, hnext _ (isAnswer_answer _ r)⟩
  · exact h

theorem sound_fail (h : w.Sound) (i : Nat) (fault : Fault) : (w.fail i fault).Sound := by
  unfold fail
  split
  · next r next hi =>
    obtain ⟨known, hknown, hcareful⟩ := h.runs _ (List.mem_of_getElem? hi)
    obtain ⟨-, hfail, -⟩ := careful_ask.mp hcareful
    apply sound_of_evolves h (Platform.evolves_refl w.platform)
    intro prog hprog
    rcases List.mem_or_eq_of_mem_set hprog with hprog | rfl
    · exact Or.inl hprog
    · exact Or.inr ⟨known, hknown, hfail fault⟩
  · exact h

/-- Whatever happens next, runs know notes of the machine user only. -/
theorem sound_step (h : w.Sound) (e : Event) : (w.step e).Sound := by
  cases e with
  | start analysis project config number => exact sound_start h analysis project config number
  | advance i => exact sound_advance h i
  | fail i fault => exact sound_fail h i fault
  | act a => exact sound_of_evolves h (Platform.evolves_act w.platform a) fun _ => Or.inl

theorem sound_run (h : w.Sound) (events : List Event) : (w.run events).Sound := by
  induction events generalizing w with
  | nil => exact h
  | cons e events ih => exact ih (sound_step h e)

/-- What a run rewrites next is not of others. -/
theorem othersNotes_advance_of_sound (h : w.Sound) {i : Nat}
    (hi : (w.request? i).any (·.note?.isSome) = true) :
    (w.advance i).platform.othersNotes = w.platform.othersNotes := by
  unfold request? at hi
  unfold advance
  cases hrun : w.runs[i]? with
  | none => rfl
  | some prog =>
    cases prog with
    | ask r next =>
      obtain ⟨known, hknown, hcareful⟩ := h.runs _ (List.mem_of_getElem? hrun)
      obtain ⟨hnotes, -, -⟩ := careful_ask.mp hcareful
      rw [hrun] at hi
      obtain ⟨note, hnote⟩ := Option.isSome_iff_exists.mp hi
      exact Platform.othersNotes_answer hknown hnote (hnotes note hnote)
    | done | stop | log => rfl

/-- Whatever runs and people have done in whatever order, an edit or a deletion that a run asks for
leaves the notes of others as they are. -/
theorem othersNotes_kept (p : Platform)
    (hp : Value.Numbered Platform.noteId p.written (p.notes.map (·.id))) (events : List Event)
    (i : Nat) (hi : (((World.mk p []).run events).request? i).any (·.note?.isSome) = true) :
    (((World.mk p []).run events).step (.advance i)).platform.othersNotes =
      ((World.mk p []).run events).platform.othersNotes := by
  have hstart : (World.mk p []).Sound :=
    ⟨Platform.isSigned_of_numbered hp, fun _ hprog => absurd hprog List.not_mem_nil⟩
  exact othersNotes_advance_of_sound (sound_run hstart events) hi

/-- A run that deletes its old summary although a reply has come in since it read it. -/
theorem othersNotes_kept_late_reply :
    let p : Platform := {
      mergeRequest := fun iid => ⟨iid, .int 1, .int 2, .text "b", .text "s", .text "h", .text "u"⟩
      discussions := [⟨.int 5, [{
        id := .text "n1"
        author := ⟨.text "sonar-bot", .null⟩
        body := .text "[View in SonarQube](http://x/dashboard?id=p&pullRequest=7)"
        resolvable := true }]⟩] }
    let a : Analysis := {
      projectKey := "p"
      pullRequestId := "7"
      commitSha := "abc"
      gate := .ok
      serverUrl := .text "http://x" }
    let reply : HumanAction := .reply (.int 5) (.text "alice") (.text "why?") false false
    let events := .start a "g/p" [] .null :: (List.replicate 4 (.advance 0) ++ .act reply ::
      List.replicate 2 (.advance 0))
    let w := (World.mk p []).run events
    w.platform.othersNotes.length = 1 ∧ (w.request? 0).any (·.note?.isSome) = true ∧
      (w.step (.advance 0)).platform.othersNotes = w.platform.othersNotes := by
  intro p a reply events w
  have hi : (w.request? 0).any (·.note?.isSome) = true := by decide +kernel
  refine ⟨by decide +kernel, hi, othersNotes_kept p ⟨?_, ?_, ?_⟩ events 0 hi⟩
  · intro v hv
    rw [List.mem_singleton.mp hv]
    exact Value.same_text "n1" "n1"
  · exact List.pairwise_singleton _ _
  · intro v hv k _
    rw [List.mem_singleton.mp hv]
    exact Value.apart_text_int "n1" _

end World
end MergeDecoration
