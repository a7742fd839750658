import MergeDecoration.Blame
import MergeDecoration.Proofs.Stateful

/-!
What is done on a host, step by step, and what it leaves as it was. Most of it changes neither the
files nor what went out over the session.
-/
namespace MergeDecoration

open Stateful

namespace Host

theorem lookup?_apply (name : String) (h : Host) :
    lookup? name h = (.ok (h.environment.lookup name), h) := rfl

theorem filled?_apply (name : String) (h : Host) :
    filled? name h = (.ok ((h.environment.lookup name).filter (· != "")), h) := rfl

theorem record_apply (r : LogRecord) (h : Host) :
    record r h = (.ok ⟨⟩, { h with records := h.records ++ [r] }) := rfl

theorem start_apply (i : Invocation) (h : Host) :
    start i h = (h.ending i, { h with started := h.started ++ [i] }) := rfl

theorem forM_record_apply (rs : List LogRecord) (h : Host) :
    rs.forM record h = (.ok ⟨⟩, { h with records := h.records ++ rs }) := by
  induction rs generalizing h with
  | nil =>
    rw [List.append_nil]
    rfl
  | cons r rs ih =>
    have hrest := ih { h with records := h.records ++ [r] }
    rw [List.append_assoc] at hrest
    exact (bind_of_ok (record_apply r h)).trans hrest

/-- Nothing went out over the session, and no file was changed. -/
structure Keeps (h h' : Host) : Prop where
  session : h'.session = h.session
  folder : h'.folder = h.folder

instance : IsPreorder Host Keeps where
  refl _ := ⟨rfl, rfl⟩
  trans _ _ _ hfirst hrest :=
    ⟨hrest.session.trans hfirst.session, hrest.folder.trans hfirst.folder⟩

theorem keeps_lookup? (name : String) : Leads Keeps (lookup? name) := .bind .get fun _ => .pure _

theorem keeps_filled? (name : String) : Leads Keeps (filled? name) :=
  .bind (keeps_lookup? name) fun _ => .pure _

theorem keeps_record (r : LogRecord) : Leads Keeps (record r) := .modify fun _ => ⟨rfl, rfl⟩

theorem keeps_debug (message : String) : Leads Keeps (debug message) := keeps_record _

theorem keeps_start (i : Invocation) : Leads Keeps (start i) :=
  .bind (.modify fun _ => ⟨rfl, rfl⟩) fun _ => .bind .get fun _ => .lift _

theorem keeps_readText (path : String) : Leads Keeps (readText path) :=
  .bind .get fun _ => .lift _

theorem keeps_display (s : Shown) : Leads Keeps (display s) := .modify fun _ => ⟨rfl, rfl⟩

theorem keeps_print (line : String) : Leads Keeps (print line) := keeps_display _

theorem keeps_say (text : String) : Leads Keeps (say text) := keeps_display _

theorem keeps_printAll (lines : List (Except Fault String)) : Leads Keeps (printAll lines) := by
  induction lines with
  | nil => exact .pure _
  | cons line rest ih => exact .bind (.lift line) fun text => .bind (keeps_print text) fun _ => ih

theorem keeps_readLine : Leads Keeps readLine := by
  refine .bind .get fun h => ?_
  cases h.typed with
  | nil => exact .throw _
  | cons line typed =>
    exact .bind (.modify fun _ => ⟨rfl, rfl⟩) fun _ => .bind (keeps_say _) fun _ => .pure _

end Host

/-- Nothing that comes of the command keeps the search from ending with a commit or with none; it
fails if something goes wrong around the command, and then with that. -/
theorem Blame.find_eq_error {root : String} {path : Value} {line : Int} {h : Host} {f : Fault} :
    (Blame.find root path line h : Except Fault (Option String) × Host).1 = .error f ↔
      h.ending (Blame.invocation root path line) = .error f := by
  rw [Blame.find, bind_apply, Host.start_apply]
  rcases h.ending (Blame.invocation root path line) with e | cause | g
  · simp only [Except.error.injEq]
  · constructor <;> intro hf <;> cases hf
  · constructor
    · intro hf
      dsimp only at hf
      split at hf
      · cases hf
      · cases hf
    · intro hf
      cases hf

theorem Blame.keeps_find (root : String) (path : Value) (line : Int) :
    Leads Host.Keeps (Blame.find root path line) := by
  refine .bind (Host.keeps_start _) fun outcome => ?_
  cases outcome with
  | error cause => exact .bind (Host.keeps_debug _) fun _ => .pure _
  | ok f =>
    dsimp only
    split
    · exact .bind (Host.keeps_debug _) fun _ => .pure _
    · exact .pure _

end MergeDecoration
