import MergeDecoration.Proofs.Platform.Numbering
import MergeDecoration.Proofs.Program.Knowledge

/-!
Who wrote which note. Ids being unique and never reused, an id that once named a note of the machine
user never names a note of anybody else.
-/
namespace MergeDecoration

/-- The notes that a user did not write, with the discussion that they stand in. -/
def Discussion.othersNotes (d : Discussion) (user : Value) : List (Value × Note) :=
  (d.notes.filter (!·.isBy user)).map (d.id, ·)

namespace Platform

/-- All notes, discussion by discussion. -/
def notes (p : Platform) : List Note := p.discussions.flatMap (·.notes)

/-- The notes that the machine user did not write. -/
def othersNotes (p : Platform) : List (Value × Note) :=
  p.discussions.flatMap (·.othersNotes p.username)

theorem mem_notes {p : Platform} {n : Note} : n ∈ p.notes ↔ ∃ d ∈ p.discussions, n ∈ d.notes :=
  List.mem_flatMap

/-- Notes keep their ids and authors, and those that are new share the next id and an author. -/
structure Evolves (p q : Platform) : Prop where
  username : q.username = p.username
  written : p.written ≤ q.written
  notes : ∃ author, ∀ n ∈ q.notes,
    (∃ m ∈ p.notes, m.id = n.id ∧ m.author = n.author) ∨
      p.written < q.written ∧ n.id = noteId p.written ∧ n.author = author

variable {p q : Platform} {r : Request}

theorem evolves_of_discussions (hu : q.username = p.username) (hw : q.written = p.written)
    (h : ∀ e ∈ q.discussions, ∃ d ∈ p.discussions, ∀ n ∈ e.notes,
      ∃ m ∈ d.notes, m.id = n.id ∧ m.author = n.author) : p.Evolves q := by
  refine ⟨hu, hw.ge, ⟨.null, .null⟩, ?_⟩
  intro n hn
  obtain ⟨e, he, hn⟩ := mem_notes.mp hn
  obtain ⟨d, hd, hnotes⟩ := h e he
  obtain ⟨m, hm, hid⟩ := hnotes n hn
  exact Or.inl ⟨m, mem_notes.mpr ⟨d, hd, hm⟩, hid⟩

theorem evolves_refl (p : Platform) : p.Evolves p :=
  evolves_of_discussions rfl rfl fun d hd => ⟨d, hd, fun n hn => ⟨n, hn, rfl, rfl⟩⟩

/-- Change the notes of a discussion one by one. -/
def rewrite (p : Platform) (id : Value) (f : Note → Note) : Platform :=
  p.update id fun d => { d with notes := d.notes.map f }

/-- Remove notes of a discussion; it disappears with its last note. -/
def remove (p : Platform) (id : Value) (gone : Note → Bool) : Platform :=
  { p with discussions := p.discussions.filterMap fun d =>
      if d.id.same id then
        match d.notes.filter (!gone ·) with
        | [] => none
        | notes => some { d with notes }
      else some d }

theorem evolves_rewrite {id : Value} {f : Note → Note}
    (hf : ∀ n, (f n).id = n.id ∧ (f n).author = n.author) : p.Evolves (p.rewrite id f) := by
  refine evolves_of_discussions (p := p) (q := p.rewrite id f) rfl rfl ?_
  intro e he
  obtain ⟨d, hd, rfl⟩ := List.mem_map.mp he
  refine ⟨d, hd, ?_⟩
  intro n hn
  split at hn
  · obtain ⟨m, hm, rfl⟩ := List.mem_map.mp hn
    exact ⟨m, hm, (hf m).1.symm, (hf m).2.symm⟩
  · exact ⟨n, hn, rfl, rfl⟩

/-- A removal leaves of a discussion some of its notes, or nothing. -/
theorem remove_eq (p : Platform) (id : Value) (gone : Note → Bool) :
    ∃ f : Discussion → Option Discussion,
      p.remove id gone = { p with discussions := p.discussions.filterMap f } ∧
      ∀ d e, f d = some e → ∃ keep : Note → Bool, e = { d with notes := d.notes.filter keep } := by
  refine ⟨_, rfl, fun d e he => ?_⟩
  split at he
  · split at he
    · cases he
    · exact ⟨_, (Option.some.inj he).symm⟩
  · refine ⟨fun _ => true, ?_⟩
    rw [List.filter_true, Option.some.inj he]

theorem evolves_remove (p : Platform) (id : Value) (gone : Note → Bool) :
    p.Evolves (p.remove id gone) := by
  obtain ⟨f, hf, hleft⟩ := p.remove_eq id gone
  rw [hf]
  refine evolves_of_discussions rfl rfl fun e he => ?_
  obtain ⟨d, hd, he⟩ := List.mem_filterMap.mp he
  obtain ⟨keep, rfl⟩ := hleft d e he
  exact ⟨d, hd, fun n hn => ⟨n, List.mem_of_mem_filter hn, rfl, rfl⟩⟩

theorem evolves_openDiscussion (p : Platform) (author body : Value) (resolvable : Bool) :
    p.Evolves (p.openDiscussion author body resolvable).2 := by
  refine ⟨rfl, Nat.le_succ _, ⟨author, .null⟩, ?_⟩
  intro n hn
  obtain ⟨d, hd, hn⟩ := mem_notes.mp hn
  rcases List.mem_append.mp hd with hd | hd
  · exact Or.inl ⟨n, mem_notes.mpr ⟨d, hd, hn⟩, rfl, rfl⟩
  · rw [List.mem_singleton.mp hd] at hn
    rw [List.mem_singleton.mp hn]
    exact Or.inr ⟨Nat.lt_succ_self _, rfl, rfl⟩

theorem evolves_reply (p : Platform) (id author body : Value) (resolvable system : Bool) :
    p.Evolves (p.reply id author body resolvable system) := by
  unfold reply
  split
  · refine ⟨rfl, Nat.le_succ _, ⟨author, .null⟩, ?_⟩
    intro n hn
    obtain ⟨e, he, hn⟩ := mem_notes.mp hn
    obtain ⟨d, hd, rfl⟩ := List.mem_map.mp he
    have hcases : n ∈ d.notes ∨ n.id = noteId p.written ∧ n.author = ⟨author, .null⟩ := by
      split at hn
      · rcases List.mem_append.mp hn with hn | hn
        · exact Or.inl hn
        · rw [List.mem_singleton.mp hn]
          exact Or.inr ⟨rfl, rfl⟩
      · exact Or.inl hn
    rcases hcases with hn | hnew
    · exact Or.inl ⟨n, mem_notes.mpr ⟨d, hd, hn⟩, rfl, rfl⟩
    · exact Or.inr ⟨Nat.lt_succ_self _, hnew⟩
  · exact evolves_refl p

/-- Whatever the machine user asks, notes keep their ids and authors. -/
theorem evolves_answer (p : Platform) (r : Request) : p.Evolves (p.answer r).2 := by
  cases r with
  | createDiscussion _ _ note => exact evolves_openDiscussion p p.username (.text note.body) true
  | addNote _ _ id text => exact evolves_reply p id p.username (.text text) false false
  | editNote _ _ id note text => exact evolves_rewrite fun n => by split <;> exact ⟨rfl, rfl⟩
  | deleteNote _ _ id note => exact evolves_remove p id _
  | resolve _ _ id => exact evolves_rewrite fun n => by split <;> exact ⟨rfl, rfl⟩
  | _ => exact evolves_refl p

/-- Notes with the same id are by the same side, and the ids still to be given are new. -/
structure IsSigned (p : Platform) : Prop where
  authors : ∀ n ∈ p.notes, ∀ m ∈ p.notes, m.id.same n.id = true → n.isBy p.username = true →
    m.isBy p.username = true
  fresh : ∀ n ∈ p.notes, ∀ k, p.written ≤ k → n.id.Apart (noteId k)

/-- Ids that name notes of the machine user and never will name others. -/
structure Trusts (p : Platform) (known : Value → Prop) : Prop where
  authors : ∀ v, known v → ∀ n ∈ p.notes, n.id.same v = true → n.isBy p.username = true
  fresh : ∀ v, known v → ∀ k, p.written ≤ k → (noteId k).same v = false

theorem isSigned_of_numbered (h : Value.Numbered noteId p.written (p.notes.map (·.id))) :
    p.IsSigned := by
  constructor
  · intro n hn m hm hsame hby
    have heq : m = n := by
      by_contra hne
      have : Std.Symm fun n m : Note => n.id.Apart m.id := ⟨fun _ _ h => h.symm⟩
      have hapart := (List.pairwise_map.mp h.apart).forall hm hn hne
      exact Bool.noConfusion (hsame.symm.trans hapart.1)
    rw [heq]
    exact hby
  · intro n hn
    exact h.fresh n.id (List.mem_map_of_mem hn)

theorem isBy_congr {n m : Note} (h : m.author = n.author) (user : Value) :
    m.isBy user = n.isBy user := by
  rw [Note.isBy, Note.isBy, h]

theorem isSigned_of_evolves (h : p.Evolves q) (hp : p.IsSigned) : q.IsSigned := by
  obtain ⟨hu, hw, author, hnotes⟩ := h
  constructor
  · intro n hn m hm hsame hby
    rw [hu] at hby ⊢
    rcases hnotes n hn with ⟨n', hn', hnid, hnauthor⟩ | ⟨-, hnid, hnauthor⟩
    · rw [← isBy_congr hnauthor] at hby
      rcases hnotes m hm with ⟨m', hm', hmid, hmauthor⟩ | ⟨-, hmid, -⟩
      · rw [← hnid, ← hmid] at hsame
        rw [← isBy_congr hmauthor]
        exact hp.authors n' hn' m' hm' hsame hby
      · rw [← hnid, hmid, (hp.fresh n' hn' p.written (Nat.le_refl _)).2] at hsame
        cases hsame
    · rcases hnotes m hm with ⟨m', hm', hmid, -⟩ | ⟨-, -, hmauthor⟩
      · rw [hnid, ← hmid, (hp.fresh m' hm' p.written (Nat.le_refl _)).1] at hsame
        cases hsame
      · rwa [isBy_congr (hmauthor.trans hnauthor.symm)]
  · intro n hn k hk
    rcases hnotes n hn with ⟨n', hn', hnid, -⟩ | ⟨hlt, hnid, -⟩
    · rw [← hnid]
      exact hp.fresh n' hn' k (hw.trans hk)
    · rw [hnid]
      exact noteId_apart (hlt.trans_le hk)

theorem trusts_of_evolves {known : Value → Prop} (h : p.Evolves q) (hk : p.Trusts known) :
    q.Trusts known := by
  obtain ⟨hu, hw, author, hnotes⟩ := h
  constructor
  · intro v hv n hn hsame
    rcases hnotes n hn with ⟨m, hm, hid, hauthor⟩ | ⟨-, hid, -⟩
    · rw [hu, ← isBy_congr hauthor]
      rw [← hid] at hsame
      exact hk.authors v hv m hm hsame
    · rw [hid, hk.fresh v hv p.written (Nat.le_refl _)] at hsame
      cases hsame
  · intro v hv k hle
    exact hk.fresh v hv k (hw.trans hle)

/-- What the platform shows the machine user can be trusted. -/
theorem trusts_learn {known : Value → Prop} (hp : p.IsSigned) (hk : p.Trusts known) (r : Request) :
    p.Trusts (r.learn p.username (p.answer r).1 known) := by
  cases r with
  | discussions project iid =>
    have hhead : ∀ v, (∃ d ∈ p.discussions, d.IsHeadedBy p.username v) →
        ∃ n ∈ p.notes, n.isBy p.username = true ∧ n.id = v := by
      rintro v ⟨d, hd, first, rest, hnotes, hby, hid⟩
      have hmem : first ∈ d.notes := by
        rw [hnotes]
        exact List.mem_cons_self ..
      exact ⟨first, mem_notes.mpr ⟨d, hd, hmem⟩, hby, hid⟩
    constructor
    · rintro v (hv | hv) n hn hsame
      · exact hk.authors v hv n hn hsame
      · obtain ⟨m, hm, hby, rfl⟩ := hhead v hv
        exact hp.authors m hm n hn hsame hby
    · rintro v (hv | hv) k hle
      · exact hk.fresh v hv k hle
      · obtain ⟨m, hm, -, rfl⟩ := hhead v hv
        exact (hp.fresh m hm k hle).2
  | _ => exact hk

/-- Rewriting the machine user's notes leaves those of others as they are. -/
theorem othersNotes_rewrite {id : Value} {f : Note → Note}
    (hf : ∀ n, (f n).author = n.author)
    (h : ∀ n ∈ p.notes, n.isBy p.username = false → f n = n) :
    (p.rewrite id f).othersNotes = p.othersNotes := by
  have hby : ∀ n, (f n).isBy p.username = n.isBy p.username := fun n => isBy_congr (hf n) _
  change (p.discussions.map _).flatMap (Discussion.othersNotes · p.username) = _
  rw [List.flatMap_map]
  apply List.flatMap_congr
  intro d hd
  split
  · have hfilter : (d.notes.map f).filter (!·.isBy p.username) =
        d.notes.filter (!·.isBy p.username) := by
      rw [List.filter_map]
      have hcomp : (fun n : Note => !n.isBy p.username) ∘ f = fun n => !n.isBy p.username := by
        funext n
        rw [Function.comp_apply, hby]
      rw [hcomp]
      conv_rhs => rw [← List.map_id (d.notes.filter _)]
      apply List.map_congr_left
      intro n hn
      obtain ⟨hmem, hother⟩ := List.mem_filter.mp hn
      exact h n (mem_notes.mpr ⟨d, hd, hmem⟩) (by rwa [Bool.not_eq_true'] at hother)
    exact congrArg (List.map fun n => (d.id, n)) hfilter
  · rfl

/-- Removing the machine user's notes leaves those of others as they are. -/
theorem othersNotes_remove {id : Value} {gone : Note → Bool}
    (h : ∀ n ∈ p.notes, gone n = true → n.isBy p.username = true) :
    (p.remove id gone).othersNotes = p.othersNotes := by
  have hkept : ∀ d ∈ p.discussions,
      ({ d with notes := d.notes.filter (!gone ·) } : Discussion).othersNotes p.username =
        d.othersNotes p.username := by
    intro d hd
    rw [Discussion.othersNotes, Discussion.othersNotes, List.filter_filter]
    congr 1
    apply List.filter_congr
    intro n hn
    cases hgone : gone n with
    | true =>
      rw [h n (mem_notes.mpr ⟨d, hd, hn⟩) hgone]
      rfl
    | false => rw [Bool.not_false, Bool.and_true]
  change (p.discussions.filterMap _).flatMap (Discussion.othersNotes · p.username) =
    p.discussions.flatMap (·.othersNotes p.username)
  generalize p.discussions = ds at hkept ⊢
  induction ds with
  | nil => rfl
  | cons d ds ih =>
    have hd := hkept d (List.mem_cons_self ..)
    have hrest := ih fun e he => hkept e (List.mem_cons_of_mem d he)
    rw [List.flatMap_cons, ← hrest]
    by_cases hsame : d.id.same id = true
    · cases hnotes : d.notes.filter (!gone ·) with
      | nil =>
        rw [List.filterMap_cons_none (by rw [if_pos hsame, hnotes])]
        rw [hnotes] at hd
        rw [← hd]
        rfl
      | cons n ns =>
        rw [List.filterMap_cons_some (by rw [if_pos hsame, hnotes]), List.flatMap_cons]
        rw [hnotes] at hd
        rw [← hd]
    · rw [List.filterMap_cons_some (by rw [if_neg hsame]), List.flatMap_cons]

/-- Edits and deletions of trusted notes leave the notes of others as they are. -/
theorem othersNotes_answer {known : Value → Prop} {note : Value} (hk : p.Trusts known)
    (hr : r.note? = some note) (hnote : known note) :
    (p.answer r).2.othersNotes = p.othersNotes := by
  have hby := hk.authors note hnote
  cases r with
  | editNote _ _ id v text =>
    rw [← Option.some.inj hr] at hby
    refine othersNotes_rewrite (fun n => by split <;> rfl) ?_
    intro n hn hother
    rw [if_neg]
    intro hsame
    exact Bool.noConfusion (hother.symm.trans (hby n hn hsame))
  | deleteNote _ _ id v =>
    rw [← Option.some.inj hr] at hby
    exact othersNotes_remove hby
  | _ => cases hr

end Platform
end MergeDecoration
