import MergeDecoration.Proofs.Program.Mirror
import MergeDecoration.Rehearsal

/-!
Rehearsals of programs. The backend behind gets the reads and nothing else, each write leaves one
operation, and no two discussions are called the same.
-/
namespace MergeDecoration

/-- The state in which requests leave a backend. -/
def Backend.after {σ : Type} (b : Backend σ) (w : σ) (rs : List Request) : σ :=
  rs.foldl (fun w r => (b.answer r w).2) w

/-- A platform beside a working copy, which alone is asked for the commit that last touched a line.
Neither of them listens to the log. -/
def Backend.beside {σ τ : Type} (client : Backend σ) (copy : Backend τ) : Backend (σ × τ) where
  answer
    | .changeset path line, w =>
      let (reply, v) := copy.answer (.changeset path line) w.2
      (reply, (w.1, v))
    | r, w =>
      let (reply, v) := client.answer r w.1
      (reply, (v, w.2))
  record _ w := w

/-- What the discussion is called that was opened. -/
def Exchange.opened? : Exchange → Option Value
  | ⟨.createDiscussion .., .ok d⟩ => some d.id
  | _ => none

/-- The exchange is no write that failed. -/
def Exchange.IsGranted (e : Exchange) : Prop := e.request.isWrite = true → ∃ x, e.answer = .ok x

namespace Operation

/-- What the discussion is called that would be opened. -/
def opened? : Operation → Option Value
  | createLine d .. | create d _ => some (.text d)
  | _ => none

/-- The operation is the write, except that a discussion that is resolved may be called otherwise. -/
inductive Records (R : Value → Value → Prop) : Exchange → Operation → Prop
  | line {project iid : Value} {note : LineNote} {d : Discussion} {id : String} :
    Records R ⟨.createDiscussion project iid (.line note), .ok d⟩
      (.createLine id note.newPath note.newLine note.body)
  | general {project iid : Value} {body : String} {d : Discussion} {id : String} :
    Records R ⟨.createDiscussion project iid (.general body), .ok d⟩ (.create id body)
  | addNote {project iid d : Value} {text : String} {x : Except Fault Unit} :
    Records R ⟨.addNote project iid d text, x⟩ (.addNote d text)
  | edit {project iid d n : Value} {text : String} {x : Except Fault Unit} :
    Records R ⟨.editNote project iid d n text, x⟩ (.edit d n text)
  | delete {project iid d n : Value} {x : Except Fault Unit} :
    Records R ⟨.deleteNote project iid d n, x⟩ (.delete d n)
  | resolve {project iid v v' : Value} {x : Except Fault Unit} (h : R v v') :
    Records R ⟨.resolve project iid v, x⟩ (.resolve v')
  | status {project : Value} {revision : String} {status : PipelineStatus}
    {x : Except Fault Unit} :
    Records R ⟨.pushStatus project revision status, x⟩
      (.status revision status.state status.targetUrl)

/-- What records a write records a write that is alike. -/
theorem Records.of_alike {R : Value → Value → Prop} {e e' : Exchange} {o : Operation}
    (h : Records Eq e' o) (halike : e.Alike R e') : Records R e o := by
  cases halike with
  | same htarget =>
    cases h with
    | resolve h =>
      subst h
      exact .resolve (htarget _ rfl)
    | line => exact .line
    | general => exact .general
    | addNote => exact .addNote
    | edit => exact .edit
    | delete => exact .delete
    | status => exact .status
  | resolve hv =>
    cases h with
    | resolve h =>
      subst h
      exact .resolve hv
  | opened =>
    cases h with
    | line => exact .line
    | general => exact .general

theorem records_of_alike {R : Value → Value → Prop} {es es' : List Exchange} {os : List Operation}
    (h : List.Forall₂ (Records Eq) es' os) (halike : List.Forall₂ (Exchange.Alike R) es es') :
    List.Forall₂ (Records R) es os := by
  induction halike generalizing os with
  | nil =>
    cases h
    exact .nil
  | cons hhead _ ih =>
    cases h with
    | cons hrecords hrest => exact .cons (hrecords.of_alike hhead) (ih hrest)

end Operation

namespace Rehearsal

variable {σ : Type} {b : Backend σ} {r : Request}

theorem answer_of_read (b : Backend σ) (s : Rehearsal σ) (h : r.isWrite = false) :
    (backend b).answer r s =
      ((b.answer r s.inner).1, { s with inner := (b.answer r s.inner).2 }) := by
  cases r with
  | mergeRequest | currentUser | commits | discussions | close | changeset => rfl
  | _ => cases h

/-- A write leaves one operation. -/
theorem answer_of_write (b : Backend σ) (s : Rehearsal σ) (h : r.isWrite = true) :
    ∃ x o, (backend b).answer r s = (.ok x, s.note o) ∧ Operation.Records Eq ⟨r, .ok x⟩ o ∧
      o.opened? = Exchange.opened? ⟨r, .ok x⟩ ∧
      ∀ v, Exchange.opened? ⟨r, .ok x⟩ = some v → v = .text s.nextDiscussionId := by
  cases r with
  | createDiscussion _ _ note =>
    cases note with
    | line note => exact ⟨_, _, rfl, .line, rfl, fun _ h => (Option.some.inj h).symm⟩
    | general body => exact ⟨_, _, rfl, .general, rfl, fun _ h => (Option.some.inj h).symm⟩
  | addNote => exact ⟨(), _, rfl, .addNote, rfl, nofun⟩
  | editNote => exact ⟨(), _, rfl, .edit, rfl, nofun⟩
  | deleteNote => exact ⟨(), _, rfl, .delete, rfl, nofun⟩
  | resolve => exact ⟨(), _, rfl, .resolve rfl, rfl, nofun⟩
  | pushStatus => exact ⟨(), _, rfl, .status, rfl, nofun⟩
  | _ => cases h

theorem opened?_of_read (x : Except Fault r.Reply) (h : r.isWrite = false) :
    Exchange.opened? ⟨r, x⟩ = none := by
  cases r with
  | createDiscussion => cases h
  | _ => rfl

end Rehearsal

namespace Program

open Rehearsal

variable {σ α : Type} {b : Backend σ}

/-- A rehearsal passes on the reads, and notes down the writes one by one. -/
theorem run_rehearsal (hb : ∀ l w, b.record l w = w) (prog : Program α) (s : Rehearsal σ) :
    ∃ os, (prog.run (backend b) s).2 =
        ⟨b.after s.inner ((prog.asked (backend b) s).filter (!·.isWrite)), s.operations ++ os⟩ ∧
      List.Forall₂ (Operation.Records Eq)
        ((prog.trace (backend b) s).filter (·.request.isWrite)) os ∧
      os.filterMap (·.opened?) = (prog.trace (backend b) s).filterMap (·.opened?) := by
  induction prog generalizing s with
  | done a => exact ⟨[], by rw [List.append_nil]; rfl, .nil, rfl⟩
  | stop f => exact ⟨[], by rw [List.append_nil]; rfl, .nil, rfl⟩
  | log l next ih =>
    have hrecord : (backend b).record l s = s := by
      change { s with inner := b.record l s.inner } = s
      rw [hb]
    rw [run, trace, asked, hrecord]
    exact ih s
  | ask r next ih =>
    rw [run_ask, trace_ask, asked_ask]
    cases hw : r.isWrite with
    | false =>
      rw [answer_of_read b s hw]
      obtain ⟨os, hrun, hwrites, hopened⟩ := ih (b.answer r s.inner).1
        { s with inner := (b.answer r s.inner).2 }
      refine ⟨os, ?_, ?_, ?_⟩
      · rw [hrun, List.filter_cons_of_pos (by rw [hw]; rfl)]
        rfl
      · rw [List.filter_cons_of_neg (by rw [hw]; decide)]
        exact hwrites
      · rw [List.filterMap_cons, opened?_of_read _ hw]
        exact hopened
    | true =>
      obtain ⟨x, o, hanswer, hrecords, hopens, -⟩ := answer_of_write b s hw
      rw [hanswer]
      obtain ⟨os, hrun, hwrites, hopened⟩ := ih (.ok x) (s.note o)
      refine ⟨o :: os, ?_, ?_, ?_⟩
      · rw [hrun, List.filter_cons_of_neg (by rw [hw]; decide)]
        simp only [note, List.append_assoc, List.singleton_append]
      · rw [List.filter_cons_of_pos (by rw [hw])]
        exact .cons hrecords hwrites
      · rw [List.filterMap_cons, List.filterMap_cons, hopens, hopened]

/-- The discussions that are opened in a rehearsal are numbered, so they are called differently. -/
theorem nodup_opened_rehearsal (b : Backend σ) (prog : Program α) (s : Rehearsal σ) :
    (∀ v ∈ (prog.trace (backend b) s).filterMap (·.opened?),
      ∃ k, s.operations.length ≤ k ∧ v = .text s!"shadow-{k + 1}") ∧
    ((prog.trace (backend b) s).filterMap (·.opened?)).Nodup := by
  induction prog generalizing s with
  | done a => exact ⟨nofun, List.nodup_nil⟩
  | stop f => exact ⟨nofun, List.nodup_nil⟩
  | log l next ih => exact ih _
  | ask r next ih =>
    rw [trace_ask]
    cases hw : r.isWrite with
    | false =>
      rw [answer_of_read b s hw, List.filterMap_cons, opened?_of_read _ hw]
      exact ih _ _
    | true =>
      obtain ⟨x, o, hanswer, -, -, hid⟩ := answer_of_write b s hw
      rw [hanswer, List.filterMap_cons]
      obtain ⟨hlater, hnodup⟩ := ih (.ok x) (s.note o)
      have hlater' : ∀ v ∈ ((next (.ok x)).trace (backend b) (s.note o)).filterMap (·.opened?),
          ∃ k, s.operations.length < k ∧ v = .text s!"shadow-{k + 1}" := by
        intro v hv
        obtain ⟨k, hk, rfl⟩ := hlater v hv
        rw [note, List.length_append] at hk
        exact ⟨k, hk, rfl⟩
      cases hv : Exchange.opened? ⟨r, .ok x⟩ with
      | none =>
        refine ⟨fun v hv => ?_, hnodup⟩
        obtain ⟨k, hk, rfl⟩ := hlater' v hv
        exact ⟨k, hk.le, rfl⟩
      | some v =>
        obtain rfl := hid v hv
        refine ⟨?_, List.nodup_cons.mpr ⟨?_, hnodup⟩⟩
        · intro u hu
          rcases List.mem_cons.mp hu with rfl | hu
          · exact ⟨_, Nat.le_refl _, rfl⟩
          · obtain ⟨k, hk, rfl⟩ := hlater' u hu
            exact ⟨k, hk.le, rfl⟩
        · intro hmem
          obtain ⟨k, hk, heq⟩ := hlater' _ hmem
          have hrepr : Nat.repr (s.operations.length + 1) = Nat.repr (k + 1) := by
            simpa [nextDiscussionId, toString, String.append_right_inj] using heq
          have hdigits := congrArg (fun t : String => Nat.ofDigitChars 10 t.toList 0) hrepr
          simp only [Nat.toList_repr, Nat.ofDigitChars_ten_toDigits] at hdigits
          omega

end Program

/-- What is asked of the working copy or granted by the platform is answered by a rehearsal as it is
by the platform. -/
theorem mirrors_rehearsal {σ τ : Type} (client : Backend σ) (copy : Backend τ)
    {R : Value → Value → Prop} :
    (client.beside copy).Mirrors (Rehearsal.backend (client.beside copy)) R
      (fun e => e.IsGranted ∧
        (e.request.isWrite = false → ∃ path line, e.request = .changeset path line))
      fun w s => w.2 = s.inner.2 := by
  constructor
  · exact fun _ _ _ h => h
  · rintro r w s hopening - hS ⟨hgranted, hread⟩
    cases hw : r.isWrite with
    | false =>
      obtain ⟨path, line, rfl⟩ := hread hw
      rw [Rehearsal.answer_of_read _ s hw]
      simp only [Backend.beside, hS, and_self]
    | true =>
      obtain ⟨x, hx⟩ := hgranted hw
      dsimp only at hx
      rw [hx]
      cases r with
      | createDiscussion => cases hopening
      | addNote | editNote | deleteNote | resolve | pushStatus => exact ⟨rfl, hS⟩
      | _ => cases hw
  · rintro project iid v v' w s - hS ⟨hgranted, -⟩
    obtain ⟨x, hx⟩ := hgranted rfl
    dsimp only at hx
    rw [hx]
    exact ⟨rfl, hS⟩
  · rintro project iid note w s hS ⟨hgranted, -⟩
    obtain ⟨x, hx⟩ := hgranted rfl
    dsimp only at hx
    exact ⟨Or.inr ⟨x, _, hx, rfl⟩, hS⟩

end MergeDecoration
