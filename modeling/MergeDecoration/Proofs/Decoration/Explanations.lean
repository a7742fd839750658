import MergeDecoration.Proofs.Decoration.Course
import MergeDecoration.Proofs.Decoration.Interleaving
import MergeDecoration.Proofs.Decoration.Succession

/-!
The notes that explain why a discussion is left to people. Runs and people take turns on a merge
request, and each explanation is given once: a run adds it only where it reads that it has not been
given, and nothing else that a run writes is one.
-/
namespace MergeDecoration

open Program

attribute [local irreducible] Program.Completes

/-- The notes that explain why the program does not close or remove a discussion. -/
def explanations : List String := [staleIssueNote, outdatedSummaryNote]

variable {text : String}

theorem trim_of_mem_explanations (h : text ∈ explanations) : Text.trim text = text := by
  rcases List.mem_pair.mp h with rfl | rfl
  · exact Discussion.trim_staleIssueNote
  · exact Discussion.trim_outdatedSummaryNote

theorem bracket_notMem_of_mem_explanations (h : text ∈ explanations) : '[' ∉ text.toList := by
  rcases List.mem_pair.mp h with rfl | rfl
  all_goals
    refine notMem_append (notMem_append (notMem_append ?_ ?_) ?_) ?_
    all_goals decide +kernel

/-- An explanation has no links, with or without white space around it. -/
theorem targets_of_trim_mem_explanations {s : String} (h : Text.trim s ∈ explanations) :
    ViewLink.targets s.toList = [] := by
  refine ViewLink.targets_eq_nil (not_opens_of_notMem fun hmem => ?_)
  exact bracket_notMem_of_mem_explanations h (Text.mem_trim hmem (by decide))

/-- Whether the user wrote a text, up to white space around it. -/
def Note.states (n : Note) (user : Value) (text : String) : Bool :=
  n.isBy user && match n.body with
    | .text s => Text.trim s == text
    | _ => false

theorem Note.states_iff {n : Note} {user : Value} : n.states user text = true ↔
    n.isBy user = true ∧ ∃ s, n.body = .text s ∧ Text.trim s = text := by
  rw [states, Bool.and_eq_true]
  cases n.body <;> simp

namespace Discussion

variable {d : Discussion} {user : Value} {project : Option String}

/-- How often the user wrote a text in a discussion. -/
def statements (d : Discussion) (user : Value) (text : String) : Nat :=
  d.notes.countP (·.states user text)

/-- The user gave each explanation at most once. -/
def ExplainsOnce (d : Discussion) (user : Value) : Prop :=
  ∀ text ∈ explanations, d.statements user text ≤ 1

instance (d : Discussion) (user : Value) : Decidable (d.ExplainsOnce user) :=
  inferInstanceAs (Decidable (∀ text ∈ explanations, d.statements user text ≤ 1))

/-- A text was not written if it is neither the first note nor found among the later ones. -/
theorem statements_eq_zero {q : String → Bool} (h : d.hasLaterNote user q = .ok false)
    (hq : q text = true) (hfirst : ∀ n ∈ d.notes.head?, n.states user text = false) :
    d.statements user text = 0 := by
  rw [statements, List.countP_eq_zero]
  intro n hn
  rw [Bool.not_eq_true]
  cases hnotes : d.notes with
  | nil => rw [hnotes] at hn; cases hn
  | cons first rest =>
    rw [hnotes] at hn
    rcases List.mem_cons.mp hn with rfl | hn
    · exact hfirst n (by rw [hnotes]; rfl)
    · by_contra hstates
      obtain ⟨hby, s, hs, htrim⟩ := Note.states_iff.mp (Bool.not_eq_false _ ▸ hstates)
      obtain ⟨t, ht, hnot⟩ := of_hasLaterNote_eq_false h n (by rwa [hnotes]) hby
      rw [hs, Value.textOperand, Except.ok.injEq] at ht
      rw [← ht, htrim, hq] at hnot
      cases hnot

/-- The note that starts a summary is no explanation. -/
theorem StartsSummary.not_states (h : d.StartsSummary user project) (htext : text ∈ explanations) :
    ∀ n ∈ d.notes.head?, n.states user text = false := by
  obtain ⟨first, rest, body, hn, -, hbody, hsummary⟩ := h
  intro n hhead
  rw [hn] at hhead
  obtain rfl := Option.some.inj hhead
  by_contra hstates
  obtain ⟨-, s, hs, htrim⟩ := Note.states_iff.mp (Bool.not_eq_false _ ▸ hstates)
  rw [linkText_text hs, Except.ok.injEq] at hbody
  rw [← hbody, Identity.isSummary, targets_of_trim_mem_explanations (htrim ▸ htext)] at hsummary
  cases hsummary

/-- The note that starts the thread of an issue is no explanation. -/
theorem StartsIssue.not_states {i : IssueIdentity} (h : d.StartsIssue user project i)
    (htext : text ∈ explanations) : ∀ n ∈ d.notes.head?, n.states user text = false := by
  obtain ⟨first, rest, body, hn, -, -, hbody, -, hissue⟩ := h
  intro n hhead
  rw [hn] at hhead
  obtain rfl := Option.some.inj hhead
  by_contra hstates
  obtain ⟨-, s, hs, htrim⟩ := Note.states_iff.mp (Bool.not_eq_false _ ▸ hstates)
  rw [linkText_text hs, Except.ok.injEq] at hbody
  rw [← hbody, Identity.issue?, targets_of_trim_mem_explanations (htrim ▸ htext)] at hissue
  cases hissue

theorem explainsOnce_of_length_le_one (h : d.notes.length ≤ 1) : d.ExplainsOnce user :=
  fun _ _ => List.countP_le_length.trans h

namespace ExplainsOnce

/-- Changing notes to something that is no explanation keeps it so. -/
theorem map (h : d.ExplainsOnce user) {f : Note → Note}
    (hf : ∀ n : Note, ∀ text ∈ explanations,
      (f n).states user text = true → n.states user text = true) :
    ({ d with notes := d.notes.map f } : Discussion).ExplainsOnce user := by
  intro text htext
  refine Nat.le_trans ?_ (h text htext)
  rw [statements, statements, List.countP_map]
  exact List.countP_mono_left fun n _ => hf n text htext

theorem filter (h : d.ExplainsOnce user) (q : Note → Bool) :
    ({ d with notes := d.notes.filter q } : Discussion).ExplainsOnce user :=
  fun text htext => (List.filter_sublist.countP_le).trans (h text htext)

theorem resolve (h : d.ExplainsOnce user) : d.resolve.ExplainsOnce user := by
  refine h.map fun n text _ hstates => ?_
  split at hstates <;> exact hstates

theorem editNote (h : d.ExplainsOnce user) (note : Value) {body : String}
    (hbody : Text.trim body ∉ explanations) : (d.editNote note body).ExplainsOnce user := by
  refine h.map fun n text htext hstates => ?_
  split at hstates
  · obtain ⟨-, s, hs, htrim⟩ := Note.states_iff.mp hstates
    rw [← Value.text.inj hs] at htrim
    exact absurd (htrim ▸ htext) hbody
  · exact hstates

theorem deleteNote {e : Discussion} {note : Value} (h : d.ExplainsOnce user)
    (he : d.deleteNote note = some e) : e.ExplainsOnce user := by
  rw [eq_of_deleteNote he]
  exact h.filter _

/-- An explanation that was not given yet is given. -/
theorem addNote (h : d.ExplainsOnce user) (note : Value) (htext : text ∈ explanations)
    (hnone : d.statements user text = 0) : (d.addNote user note text).ExplainsOnce user := by
  intro other hother
  rw [statements, Discussion.addNote, List.countP_append, List.countP_singleton]
  by_cases heq : other = text
  · rw [heq, show d.notes.countP (·.states user text) = 0 from hnone, Nat.zero_add]
    split <;> omega
  · have hnot : ¬({ id := note, author := ⟨user, .null⟩, body := .text text } : Note).states user
        other = true := by
      rw [Note.states_iff]
      rintro ⟨-, s, hs, htrim⟩
      rw [← Value.text.inj hs, trim_of_mem_explanations htext] at htrim
      exact heq htrim.symm
    rw [if_neg hnot]
    exact h other hother

/-- A note by somebody else is no explanation of the user. -/
theorem append_other {n : Note} (h : d.ExplainsOnce user) (hn : n.isBy user = false) :
    ({ d with notes := d.notes ++ [n] } : Discussion).ExplainsOnce user := by
  intro text htext
  have hnot : ¬n.states user text = true := by
    rw [Note.states, hn, Bool.false_and]
    exact Bool.false_ne_true
  rw [statements, List.countP_append, List.countP_singleton, if_neg hnot]
  exact h text htext

end ExplainsOnce
end Discussion

namespace Snapshot

variable {s : Snapshot} {p : Platform} {rs : List Request} {c : Classified} {e : Discussion}

/-- A summary is no explanation: it has a link. -/
theorem trim_summaryBody_notMem : Text.trim s.summaryBody ∉ explanations := by
  intro hmem
  have hbracket := bracket_notMem_of_mem_explanations hmem
  rw [summaryBody] at hbracket hmem
  cases hbody : s.analysis.summaryNote with
  | error f =>
    rw [hbody] at hmem
    have hempty : Text.trim "" ∉ explanations := by decide +kernel
    exact hempty hmem
  | ok body =>
    rw [hbody] at hbracket
    obtain ⟨url, -, hurl⟩ := bind_eq_ok.mp hbody
    have hlines : s.analysis.summaryLines ≠ [] := List.cons_ne_nil _ _
    rw [← Except.ok.inj hurl, Except.toOption, Option.getD_some,
      String.intercalate_append_of_ne_nil hlines (List.cons_ne_nil _ _),
      String.intercalate_singleton] at hbracket
    refine hbracket (Text.mem_trim ?_ (by decide))
    simp [ViewLink.write]

/-- What a run makes of a discussion explains nothing twice. -/
theorem Touched.explainsOnce (h : s.Touched c (some e)) (hsees : s.Sees p)
    (hc : c ∈ s.discussions) (hd : c.discussion.ExplainsOnce s.username) :
    e.ExplainsOnce s.username := by
  have hclassify := hsees.classify_of_mem hc
  generalize he : some e = x at h
  cases h with
  | edited hkind hflag hnew =>
    have hedit := hd.editNote (firstNoteId c) (trim_summaryBody_notMem (s := s))
    rw [Option.some.inj he]
    rcases hnew with rfl | ⟨-, rfl⟩
    · exact hedit
    · exact hedit.resolve
  | deleted hkind hreplies => exact hd.deleteNote he.symm
  | flagged hkind hflag =>
    -- The run reads that the summary is not flagged.
    have hmem : outdatedSummaryNote ∈ explanations := List.mem_cons_of_mem _ (List.mem_cons_self ..)
    have hstart := Discussion.startsSummary_of_kind hclassify hkind
    rw [isFlagged, Discussion.hasNote] at hflag
    rw [Option.some.inj he]
    exact hd.addNote _ hmem
      (Discussion.statements_eq_zero hflag (beq_self_eq_true _) (hstart.not_states hmem))
  | noted hlive =>
    -- The run reads that the thread is open.
    have hmem : staleIssueNote ∈ explanations := List.mem_cons_self ..
    obtain ⟨i, -, -, hstart, hopen⟩ := Discussion.startsIssue_of_isLiveIssue hclassify hlive
    rw [Discussion.isClosed] at hopen
    split at hopen
    · cases hopen
    rw [Option.some.inj he]
    refine hd.addNote _ hmem
      (Discussion.statements_eq_zero hopen ?_ (hstart.not_states hmem))
    rw [Discussion.isAcknowledgement, beq_self_eq_true, Bool.true_or]
  | resolved hlive =>
    rw [Option.some.inj he]
    exact hd.resolve

end Snapshot

namespace Platform

variable {p q : Platform}

/-- In each discussion the machine user gave each explanation at most once. -/
def ExplainsOnce (p : Platform) : Prop := ∀ d ∈ p.discussions, d.ExplainsOnce p.username

instance (p : Platform) : Decidable p.ExplainsOnce :=
  inferInstanceAs (Decidable (∀ d ∈ p.discussions, d.ExplainsOnce p.username))

theorem IsNew.length_notes {body : String} {resolved : Bool} {d : Discussion}
    (h : p.IsNew body resolved d) : d.notes.length ≤ 1 := by
  obtain ⟨k, m, -, -, rfl⟩ := h
  exact Nat.le_refl 1

/-- A part of what a run asks explains nothing twice. -/
theorem explainsOnce_after {s : Snapshot} {rs : List Request} (h : s.Course p rs)
    (hp : p.ExplainsOnce) : (p.after rs).ExplainsOnce := by
  intro e he
  rw [username_after]
  rw [discussions_after] at he
  rcases List.mem_append.mp he with he | he
  · obtain ⟨d, hd, hcarried⟩ := List.mem_filterMap.mp he
    have honce := hp d hd
    rw [← h.sees.discussions_eq] at hd
    obtain ⟨c, hc, rfl⟩ := List.mem_map.mp hd
    have htouched := h.touched hc
    rw [hcarried] at htouched
    rcases htouched with hsame | htouched
    · rwa [Option.some.inj hsame]
    · rw [← h.sees.username] at honce ⊢
      exact htouched.explainsOnce h.sees hc honce
  · obtain ⟨done, threads, sums, -, hthreads, hsums, hperm⟩ := h.opens
    apply Discussion.explainsOnce_of_length_le_one
    rcases List.mem_append.mp (hperm.subset he) with he | he
    · obtain ⟨i, -, hthread⟩ := exists_of_mem_of_forall₂ hthreads he
      exact hthread.length_notes
    · rcases hsums with rfl | ⟨-, -, d, resolved, hd, -, rfl⟩
      · cases he
      · rw [List.mem_singleton.mp he]
        exact hd.length_notes

end Platform

namespace HumanAction

/-- Whoever writes, edits or deletes is not the machine user. -/
def IsByOther (user : Value) : HumanAction → Prop
  | .post author .. | .reply _ author .. | .edit _ _ author _ | .delete _ _ author =>
    ∃ name, author = .text name ∧ (Value.text name).same user = false
  | .resolve .. => True

end HumanAction

theorem Value.eq_text_of_same {v : Value} {s : String} (h : v.same (.text s) = true) :
    v = .text s := by
  cases v with
  | text t =>
    rw [same_text, beq_iff_eq] at h
    rw [h]
  | _ =>
    simp only [same] at h
    cases h

theorem Note.isBy_of_isBy_other {n : Note} {name : String} {user : Value}
    (h : n.isBy (.text name) = true) (hname : (Value.text name).same user = false) :
    n.isBy user = false := by
  rw [isBy, Value.eq_text_of_same h, hname]

namespace Platform

variable {p : Platform} {a : HumanAction}

theorem explainsOnce_rewrite {id : Value} {f : Note → Note} (h : p.ExplainsOnce)
    (hf : ∀ n : Note, ∀ text ∈ explanations,
      (f n).states p.username text = true → n.states p.username text = true) :
    (p.rewrite id f).ExplainsOnce := by
  intro e he
  obtain ⟨d, hd, rfl⟩ := List.mem_map.mp he
  split
  · exact (h d hd).map hf
  · exact h d hd

/-- What people do is no explanation by the machine user. -/
theorem explainsOnce_act (h : p.ExplainsOnce) (ha : a.IsByOther p.username) :
    (p.act a).ExplainsOnce := by
  cases a with
  | post author body resolvable =>
    intro e he
    rcases List.mem_append.mp he with he | he
    · exact h e he
    · rw [List.mem_singleton.mp he]
      exact Discussion.explainsOnce_of_length_le_one (Nat.le_refl 1)
  | reply id author body resolvable system =>
    obtain ⟨name, rfl, hname⟩ := ha
    by_cases hholds : p.holds id = true
    · simp only [act, reply, if_pos hholds]
      intro e he
      obtain ⟨d, hd, rfl⟩ := List.mem_map.mp he
      split
      · exact (h d hd).append_other hname
      · exact h d hd
    · simp only [act, reply, if_neg hholds]
      exact h
  | edit id note author body =>
    obtain ⟨name, rfl, hname⟩ := ha
    refine explainsOnce_rewrite h fun n text _ hstates => ?_
    split at hstates
    · next hown =>
      rw [Bool.and_eq_true] at hown
      have hby := Note.isBy_of_isBy_other hown.2 hname
      exact absurd (Note.states_iff.mp hstates).1 ((Bool.not_eq_true _).mpr hby)
    · exact hstates
  | delete id note author =>
    obtain ⟨f, hf, hleft⟩ := p.remove_eq id fun n => n.id.same note && n.isBy author
    rw [act, hf]
    intro e he
    obtain ⟨d, hd, he⟩ := List.mem_filterMap.mp he
    obtain ⟨keep, rfl⟩ := hleft d e he
    exact (h d hd).filter keep
  | resolve id resolved =>
    refine explainsOnce_rewrite h fun n text _ hstates => ?_
    split at hstates <;> exact hstates

end Platform

/-- What happens next on a merge request: a run, to its end or until it is broken off, or something
that somebody does. -/
inductive Turn
  | run (r : Run)
  | act (a : HumanAction)

namespace Run

variable {w : Watched}

theorem isNumbered_on (r : Run) (h : w.platform.IsNumbered) : (r.on w).2.platform.IsNumbered := by
  obtain ⟨rs, -, hplatform, -⟩ := platform_after_of_asks
    (w := { w with platform := r.meets w.platform }) r.outage
    (asks_decorate r.analysis r.project r.config r.number)
  rw [on, hplatform]
  exact Platform.isNumbered_after (p := r.meets w.platform) ⟨h.discussions, h.notes⟩ rs

/-- A run explains nothing twice, wherever it ends. -/
theorem explainsOnce_on (r : Run) (hp : w.platform.IsNumbered) (h : w.platform.ExplainsOnce) :
    (r.on w).2.platform.ExplainsOnce := by
  have hmeets : (r.meets w.platform).IsNumbered := ⟨hp.discussions, hp.notes⟩
  have honce : (r.meets w.platform).ExplainsOnce := h
  rcases course_decorate (w := { w with platform := r.meets w.platform }) r.analysis r.project
    r.config r.number r.outage hmeets with ⟨-, hsame⟩ | ⟨s, iid, rs, -, hcourse, hafter, -⟩
  · rw [on, hsame]
    exact honce
  · rw [on, hafter]
    exact Platform.explainsOnce_after hcourse honce

end Run

namespace Watched

variable {w : Watched}

def turn (w : Watched) : Turn → Watched
  | .run r => (r.on w).2
  | .act a => { w with platform := w.platform.act a }

/-- What is left after runs and people have taken turns. -/
def turns (w : Watched) (ts : List Turn) : Watched := ts.foldl turn w

theorem username_turn (w : Watched) (t : Turn) :
    (w.turn t).platform.username = w.platform.username := by
  cases t with
  | run r => exact r.username_on w
  | act a => exact (Platform.evolves_act w.platform a).username

/-- A turn leaves ids unique and explains nothing twice. -/
theorem explainsOnce_turn {t : Turn} (hp : w.platform.IsNumbered) (h : w.platform.ExplainsOnce)
    (ht : ∀ a, t = .act a → a.IsByOther w.platform.username) :
    (w.turn t).platform.IsNumbered ∧ (w.turn t).platform.ExplainsOnce := by
  cases t with
  | run r => exact ⟨r.isNumbered_on hp, r.explainsOnce_on hp h⟩
  | act a => exact ⟨Platform.isNumbered_act hp a, Platform.explainsOnce_act h (ht a rfl)⟩

/-- However runs and people take turns, whatever the runs are about and wherever they end: if no
discussion has an explanation twice, none ever will. -/
theorem explainsOnce_turns (ts : List Turn) (hp : w.platform.IsNumbered)
    (hts : ∀ a, .act a ∈ ts → a.IsByOther w.platform.username) (h : w.platform.ExplainsOnce) :
    (w.turns ts).platform.ExplainsOnce := by
  induction ts generalizing w with
  | nil => exact h
  | cons t ts ih =>
    obtain ⟨hnext, honce⟩ := explainsOnce_turn hp h fun a ha =>
      hts a (List.mem_cons.mpr (Or.inl ha.symm))
    refine ih hnext (fun a ha => ?_) honce
    rw [username_turn]
    exact hts a (List.mem_cons_of_mem t ha)

attribute [local irreducible] Run.on turns

/-- The thread of an issue that is gone gets its explanation, and the run is broken off. Somebody
repeats the explanation and reopens the thread; the next run adds nothing to it. -/
theorem explainsOnce_turns_reopened :
    let w : Watched := { platform := { sampleWatched.platform with discussions := [⟨.int 6, [
      { id := .text "n1"
        author := ⟨.text "sonar-bot", .null⟩
        body := .text "[View in SonarQube](http://x/project/issues?id=p+k&issues=old&open=old)"
        resolvable := true },
      { id := .text "n2", author := ⟨.text "alice", .null⟩, body := .text "why?" }]⟩] } }
    let run (outage : Outage) : Run := {
      analysis := { sampleReport with issues := [] }
      project := "g/p"
      config := []
      mergeRequest := sampleWatched.platform.mergeRequest
      outage }
    let ts : List Turn := [
      .run (run fun asked _ => if asked.length = 5 then some "down" else none),
      .act (.reply (.int 6) (.text "alice") (.text staleIssueNote) false false),
      .act (.resolve (.int 6) false),
      .run (run .never)]
    (w.turns ts).platform.ExplainsOnce ∧
      (w.turns ts).platform.discussions.map (·.notes.length) = [4, 1] := by
  intro w run ts
  have hnumbered : w.platform.IsNumbered := by
    refine ⟨Platform.numbered_ints [6] (by decide) _, ?_⟩
    simp only [w, List.forall_mem_cons]
    exact ⟨Platform.numbered_texts ["n1", "n2"] (by decide) _, List.forall_mem_nil _⟩
  refine ⟨explainsOnce_turns ts hnumbered ?_ (by decide +kernel), by decide +kernel⟩
  intro a ha
  simp only [ts, List.mem_cons, Turn.act.injEq, reduceCtorEq, List.not_mem_nil, false_or,
    or_false] at ha
  rcases ha with rfl | rfl
  · exact ⟨"alice", rfl, Value.same_text ..⟩
  · exact trivial

end Watched
end MergeDecoration
