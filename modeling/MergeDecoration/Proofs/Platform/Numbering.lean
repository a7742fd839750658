import MergeDecoration.Proofs.Platform.Effect

/-!
Ids on the platform. They differ from each other and from those still to be given, and a request
keeps it so.
-/
namespace MergeDecoration

/-- Two values that are told apart either way round. -/
def Value.Apart (v w : Value) : Prop := v.same w = false ∧ w.same v = false

/-- Values that differ from each other and from those with numbers from `count` on. -/
structure Value.Numbered (next : Nat → Value) (count : Nat) (ids : List Value) : Prop where
  same : ∀ v ∈ ids, v.same v = true
  apart : ids.Pairwise Apart
  fresh : ∀ v ∈ ids, ∀ k, count ≤ k → v.Apart (next k)

namespace Value

theorem same_int (i j : Int) : same (.int i) (.int j) = (i == j) := by
  simp only [same]
  rfl

theorem apart_text_int (s : String) (i : Int) : Apart (.text s) (.int i) := by
  constructor
  all_goals
    simp only [same]
    rfl

theorem Apart.symm {v w : Value} (h : v.Apart w) : w.Apart v := ⟨h.2, h.1⟩

namespace Numbered

variable {next : Nat → Value} {count : Nat} {ids : List Value}

theorem nil (next : Nat → Value) (count : Nat) : Numbered next count [] :=
  ⟨by simp, List.Pairwise.nil, by simp⟩

theorem mono (h : Numbered next count ids) {later : Nat} (hle : count ≤ later) :
    Numbered next later ids :=
  ⟨h.same, h.apart, fun v hv k hk => h.fresh v hv k (hle.trans hk)⟩

theorem sublist (h : Numbered next count ids) {some : List Value} (hs : some.Sublist ids) :
    Numbered next count some :=
  ⟨fun v hv => h.same v (hs.subset hv), h.apart.sublist hs, fun v hv => h.fresh v (hs.subset hv)⟩

/-- The value with the next number joins the others. -/
theorem append_next (h : Numbered next count ids) (hsame : (next count).same (next count) = true)
    (hnext : ∀ k, count < k → (next count).Apart (next k)) :
    Numbered next (count + 1) (ids ++ [next count]) := by
  constructor
  · intro v hv
    rcases List.mem_append.mp hv with hv | hv
    · exact h.same v hv
    · rw [List.mem_singleton.mp hv]
      exact hsame
  · refine List.pairwise_append.mpr ⟨h.apart, List.pairwise_singleton _ _, ?_⟩
    intro v hv w hw
    rw [List.mem_singleton.mp hw]
    exact h.fresh v hv count (Nat.le_refl count)
  · intro v hv k hk
    rcases List.mem_append.mp hv with hv | hv
    · exact h.fresh v hv k (Nat.le_of_succ_le hk)
    · rw [List.mem_singleton.mp hv]
      exact hnext k hk

end Numbered
end Value

namespace Platform

/-- The id of the note that is written after `k` others. -/
def noteId (k : Nat) : Value := .int (k + 1001)

/-- The id of the discussion that is opened after `k` others. -/
def discussionId (k : Nat) : Value := .text s!"new-{k + 1}"

theorem noteId_same (k : Nat) : (noteId k).same (noteId k) = true := by
  rw [noteId, Value.same_int, beq_self_eq_true]

theorem noteId_apart {j k : Nat} (h : j < k) : (noteId j).Apart (noteId k) := by
  simp only [noteId, Value.Apart, Value.same_int, beq_eq_false_iff_ne]
  omega

theorem discussionId_injective {j k : Nat} (h : s!"new-{j + 1}" = s!"new-{k + 1}") : j = k := by
  have hrepr : Nat.repr (j + 1) = Nat.repr (k + 1) := by
    simpa [toString, String.append_right_inj] using h
  have hdigits := congrArg (fun s : String => Nat.ofDigitChars 10 s.toList 0) hrepr
  simp only [Nat.toList_repr, Nat.ofDigitChars_ten_toDigits] at hdigits
  exact Nat.succ.inj hdigits

theorem discussionId_same (k : Nat) : (discussionId k).same (discussionId k) = true := by
  rw [discussionId, Value.same_text, beq_self_eq_true]

theorem discussionId_apart {j k : Nat} (h : j < k) :
    (discussionId j).Apart (discussionId k) := by
  simp only [discussionId, Value.Apart, Value.same_text, beq_eq_false_iff_ne]
  exact ⟨fun heq => h.ne (discussionId_injective heq),
    fun heq => h.ne (discussionId_injective heq).symm⟩

/-- Texts that differ can be ids of notes. -/
theorem numbered_texts (texts : List String) (h : texts.Nodup) (count : Nat) :
    Value.Numbered noteId count (texts.map .text) := by
  refine ⟨?_, List.pairwise_map.mpr (h.imp ?_), ?_⟩
  · intro v hv
    obtain ⟨s, -, rfl⟩ := List.mem_map.mp hv
    rw [Value.same_text, beq_self_eq_true]
  · intro s t hne
    simp only [Value.Apart, Value.same_text, beq_eq_false_iff_ne]
    exact ⟨hne, hne.symm⟩
  · intro v hv k _
    obtain ⟨s, -, rfl⟩ := List.mem_map.mp hv
    exact Value.apart_text_int s _

/-- Numbers that differ can be ids of discussions. -/
theorem numbered_ints (ints : List Int) (h : ints.Nodup) (count : Nat) :
    Value.Numbered discussionId count (ints.map .int) := by
  refine ⟨?_, List.pairwise_map.mpr (h.imp ?_), ?_⟩
  · intro v hv
    obtain ⟨i, -, rfl⟩ := List.mem_map.mp hv
    rw [Value.same_int, beq_self_eq_true]
  · intro i j hne
    simp only [Value.Apart, Value.same_int, beq_eq_false_iff_ne]
    exact ⟨hne, hne.symm⟩
  · intro v hv k _
    obtain ⟨i, -, rfl⟩ := List.mem_map.mp hv
    exact (Value.apart_text_int _ i).symm

/-- Ids are unique, and those still to be given are new. -/
structure IsNumbered (p : Platform) : Prop where
  discussions : Value.Numbered discussionId p.opened (p.discussions.map (·.id))
  notes : ∀ d ∈ p.discussions, Value.Numbered noteId p.written d.noteIds

variable {p : Platform} {r : Request} {d e : Discussion}

theorem written_answer_addNote {project iid id : Value} (text : String) (h : p.holds id = true) :
    (p.answer (.addNote project iid id text)).2.written = p.written + 1 := by
  simp only [answer, reply, h, if_true]

/-- The notes that a change leaves are old ones and possibly one new one. -/
theorem numbered_of_changed (h : Value.Numbered noteId p.written d.noteIds)
    (hd : d ∈ p.discussions) (he : p.changed r d = some e) :
    Value.Numbered noteId (p.answer r).2.written e.noteIds := by
  have hold := h.mono (written_le_answer p r)
  unfold changed at he
  split at he
  case isFalse => rwa [← Option.some.inj he]
  case isTrue hc =>
    cases r with
    | addNote _ _ id text =>
      have hholds : p.holds id = true := List.any_eq_true.mpr ⟨d, hd, hc⟩
      rw [written_answer_addNote text hholds, ← Option.some.inj he, Discussion.noteIds_addNote]
      exact h.append_next (noteId_same _) fun _ => noteId_apart
    | editNote _ _ id note text =>
      rwa [← Option.some.inj he, Discussion.noteIds_editNote]
    | deleteNote _ _ id note => exact hold.sublist (Discussion.noteIds_deleteNote he)
    | resolve _ _ id => rwa [← Option.some.inj he, Discussion.noteIds_resolve]
    | _ => rwa [← Option.some.inj he]

/-- A discussion that is opened has the next id, and its note too. -/
theorem of_opens? (h : p.opens? r = some d) :
    d.id = discussionId p.opened ∧ d.noteIds = [noteId p.written] ∧
      (p.answer r).2.opened = p.opened + 1 ∧ (p.answer r).2.written = p.written + 1 := by
  cases r with
  | createDiscussion _ _ note =>
    rw [← Option.some.inj h]
    exact ⟨rfl, rfl, rfl, rfl⟩
  | _ => cases h

/-- Discussions that keep their ids, if they are left at all, have ids among the old ones. -/
theorem sublist_ids {ds : List Discussion} {f : Discussion → Option Discussion}
    (hf : ∀ d e, f d = some e → e.id = d.id) :
    ((ds.filterMap f).map (·.id)).Sublist (ds.map (·.id)) := by
  induction ds with
  | nil => exact List.Sublist.refl _
  | cons d ds ih =>
    cases he : f d with
    | none =>
      rw [List.filterMap_cons_none he]
      exact ih.trans (List.sublist_cons_self ..)
    | some e =>
      rw [List.filterMap_cons_some he, List.map_cons, List.map_cons, hf d e he]
      exact ih.cons_cons d.id

/-- Only ids matter. -/
theorem IsNumbered.congr {q : Platform} (h : p.IsNumbered) (ho : q.opened = p.opened)
    (hw : q.written = p.written)
    (hids : q.discussions.map (fun d => (d.id, d.noteIds)) =
      p.discussions.map fun d => (d.id, d.noteIds)) : q.IsNumbered := by
  constructor
  · have hmap : q.discussions.map (·.id) = p.discussions.map (·.id) := by
      simpa only [List.map_map, Function.comp_def] using congrArg (List.map (·.1)) hids
    rw [hmap, ho]
    exact h.discussions
  · intro d hd
    have hmem : (d.id, d.noteIds) ∈ p.discussions.map fun d => (d.id, d.noteIds) := by
      rw [← hids]
      exact List.mem_map_of_mem hd
    obtain ⟨e, he, heq⟩ := List.mem_map.mp hmem
    rw [← (Prod.mk.inj heq).2, hw]
    exact h.notes e he

theorem isNumbered_answer (h : p.IsNumbered) (r : Request) : (p.answer r).2.IsNumbered := by
  have hids : ((p.discussions.filterMap (p.changed r)).map (·.id)).Sublist
      (p.discussions.map (·.id)) := sublist_ids fun d e => id_of_changed
  constructor
  · rw [discussions_answer, List.map_append]
    cases ho : p.opens? r with
    | none =>
      rw [Option.toList_none, List.map_nil, List.append_nil]
      exact (h.discussions.sublist hids).mono (opened_answer p r ▸ Nat.le_add_right ..)
    | some d =>
      obtain ⟨hid, -, hopened, -⟩ := of_opens? ho
      rw [Option.toList_some, List.map_singleton, hid, hopened]
      exact (h.discussions.sublist hids).append_next (discussionId_same _)
        fun _ => discussionId_apart
  · intro e he
    rw [discussions_answer] at he
    rcases List.mem_append.mp he with he | he
    · obtain ⟨d, hd, hde⟩ := List.mem_filterMap.mp he
      exact numbered_of_changed (h.notes d hd) hd hde
    · obtain ⟨-, hids, -, hwritten⟩ := of_opens? (Option.mem_toList.mp he)
      rw [hids, hwritten]
      exact (Value.Numbered.nil noteId p.written).append_next (noteId_same _) fun _ => noteId_apart

theorem isNumbered_after (h : p.IsNumbered) (rs : List Request) : (p.after rs).IsNumbered := by
  induction rs generalizing p with
  | nil => exact h
  | cons r rs ih => exact ih (isNumbered_answer h r)

/-- A discussion that one request concerns is changed by that one. -/
theorem carried_of_filter_singleton {rs : List Request} (h : rs.filter (·.concerns d.id) = [r]) :
    ∃ k, p.written ≤ k ∧ p.carried rs d = d.change p.username (noteId k) r := by
  obtain ⟨q, k, ts, -, hk, -, hts, hcarried⟩ := carried_of_filter_cons h
  refine ⟨k, hk, hcarried.trans ?_⟩
  cases he : d.change p.username (.int (k + 1001)) r with
  | none => exact he.symm
  | some e =>
    rw [← Discussion.id_of_change he] at hts
    rw [Option.bind_some, carried_of_filter_nil hts]
    exact he.symm

/-- A new discussion of the machine user, with one note. -/
def IsNew (p : Platform) (body : String) (resolved : Bool) (d : Discussion) : Prop :=
  ∃ k m, p.opened ≤ k ∧ p.written ≤ m ∧ d = ⟨discussionId k, [{
    id := noteId m
    author := ⟨p.username, .null⟩
    body := .text body
    resolvable := true
    resolved }]⟩

theorem IsNew.mono {q : Platform} {body : String} {resolved : Bool} {d : Discussion}
    (h : q.IsNew body resolved d) (hu : q.username = p.username) (ho : p.opened ≤ q.opened)
    (hw : p.written ≤ q.written) : p.IsNew body resolved d := by
  obtain ⟨k, m, hk, hm, rfl⟩ := h
  exact ⟨k, m, ho.trans hk, hw.trans hm, by rw [hu]⟩

theorem IsNew.after {body : String} {resolved : Bool} {d : Discussion}
    {rs : List Request} (h : (p.after rs).IsNew body resolved d) : p.IsNew body resolved d :=
  h.mono (username_after p rs) (opened_after p rs ▸ Nat.le_add_right ..) (written_le_after p rs)

end Platform
end MergeDecoration
