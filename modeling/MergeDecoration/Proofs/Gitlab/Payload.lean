import MergeDecoration.Gitlab.Client
import MergeDecoration.Proofs.Value.Reading

/-!
How payloads are read. An object with all its fields is read as what it shows. Of the faults of a
reading all are refused but one: a field is looked up in a value that has no fields.
-/
namespace MergeDecoration

namespace Value

variable {v w : Value} {name : String}

/-- An object has a field. -/
def HasField (v : Value) (name : String) (w : Value) : Prop :=
  ∃ es, v = .map es ∧ field? es name = some w

theorem hasField_map {es : List (Value × Value)} :
    (map es).HasField name w ↔ field? es name = some w := by
  simp [HasField]

theorem require_of_hasField (h : v.HasField name w) : v.require name = .ok w := by
  obtain ⟨es, rfl, hfield⟩ := h
  simp [require, hfield]

theorem field_of_field? {es : List (Value × Value)} (h : field? es name = some w) :
    field es name = w := by
  simp [field, h]

end Value

namespace Gitlab

variable {α : Type} {v : Value} {f : Fault} {thing : String}

/-- The object of a user. -/
structure ShowsUser (v : Value) (u : User) : Prop where
  username : v.HasField "username" u.username
  id : v.HasField "id" u.id

/-- The object of a note has all its fields. -/
structure ShowsNote (v : Value) (n : Note) : Prop where
  id : v.HasField "id" n.id
  author : ∃ w, v.HasField "author" w ∧ ShowsUser w n.author
  body : v.HasField "body" n.body
  text : n.body.IsText
  resolvable : v.HasField "resolvable" (.bool n.resolvable)
  system : v.HasField "system" (.bool n.system)
  resolved : v.HasField "resolved" (.bool n.resolved)

/-- The object of a discussion, with its notes in order. -/
structure ShowsDiscussion (v : Value) (d : Discussion) : Prop where
  id : v.HasField "id" d.id
  notes : ∃ ws, v.HasField "notes" (.list ws) ∧ List.Forall₂ ShowsNote ws d.notes

theorem readUser_of_shows {u : User} (h : ShowsUser v u) : readUser v = .ok u := by
  obtain ⟨es, rfl, husername⟩ := h.username
  have hid := Value.hasField_map.mp h.id
  cases es with
  | nil => cases husername
  | cons e es =>
    have hread : readUser (.map (e :: es)) =
        .ok ⟨(Value.field? (e :: es) "username").getD (.text ""), Value.field (e :: es) "id"⟩ := rfl
    simp [hread, husername, Value.field_of_field? hid]

theorem orElse_of_isText (h : v.IsText) : v.orElse (.text "") = v := by
  obtain ⟨t, rfl⟩ := h
  by_cases ht : t = ""
  · simp [Value.orElse, Value.holds, ht]
  · simp [Value.orElse, Value.holds, ht]

theorem readNote_of_shows {n : Note} (h : ShowsNote v n) : readNote v = .ok n := by
  obtain ⟨w, hauthor, huser⟩ := h.author
  have hid := Value.require_of_hasField h.id
  obtain ⟨es, rfl, hbody⟩ := h.body
  have hauthor := Value.field_of_field? (Value.hasField_map.mp hauthor)
  have hresolvable := Value.field_of_field? (Value.hasField_map.mp h.resolvable)
  have hsystem := Value.field_of_field? (Value.hasField_map.mp h.system)
  have hresolved := Value.field_of_field? (Value.hasField_map.mp h.resolved)
  have hholds (b : Bool) : (Value.bool b).holds = b := rfl
  simp [readNote, hid, Value.mapOperand, hauthor, readUser_of_shows huser,
    Value.field_of_field? hbody, orElse_of_isText h.text, hresolvable, hsystem, hresolved, hholds,
    pure, Except.pure]

theorem readDiscussion_of_shows {d : Discussion} (h : ShowsDiscussion v d) :
    readDiscussion v = .ok d := by
  obtain ⟨ws, hnotes, hshown⟩ := h.notes
  have hid := Value.require_of_hasField h.id
  obtain ⟨es, rfl, hfield⟩ := hnotes
  have hitems : ((Value.field es "notes").orElse (.list [])).items = .ok ws := by
    rw [Value.field_of_field? hfield]
    cases ws <;> rfl
  have hread : ws.mapM readNote = .ok d.notes :=
    mapM_eq_ok.mpr (hshown.imp fun _ _ => readNote_of_shows)
  simp [readDiscussion, hid, Value.mapOperand, hitems, hread, pure, Except.pure]

/-- A value that is no object. -/
def IsNoObject (v : Value) : Prop := ∀ es, v ≠ .map es

/-- A user that is there and is no object. -/
def IsOddUser (v : Value) : Prop := v.holds = true ∧ IsNoObject v

/-- A note with an author that is there and is no object. -/
def HasOddAuthor (v : Value) : Prop := ∃ es, v = .map es ∧ IsOddUser (Value.field es "author")

/-- A discussion with a note of which the author is no object. -/
def HasOddNote (v : Value) : Prop :=
  ∃ es ws w, v = .map es ∧ ((Value.field es "notes").orElse (.list [])).items = .ok ws ∧ w ∈ ws ∧
    HasOddAuthor w

/-- No object, or one of which the revisions are there and are no object. -/
def HasOddRevisions (v : Value) : Prop :=
  IsNoObject v ∨ ∃ es, v = .map es ∧ (Value.field es "diff_refs").holds = true ∧
    IsNoObject (Value.field es "diff_refs")

/-- What a payload is refused for. -/
def IsRefusal (f : Fault) : Prop := (∃ cause, f = .misuse cause) ∨ ∃ name, f = .missingField name

theorem refusePayload_eq_error {x : Except Fault α} (h : Client.refusePayload thing x = .error f) :
    (∃ m, f = .transport m) ∨ x = .error f ∧ ¬IsRefusal f := by
  unfold Client.refusePayload at h
  split at h
  · exact Or.inl ⟨_, (Except.error.inj h).symm⟩
  · exact Or.inl ⟨_, (Except.error.inj h).symm⟩
  · next hmisuse hmissing =>
    refine Or.inr ⟨h, ?_⟩
    rintro (⟨cause, rfl⟩ | ⟨name, rfl⟩)
    · exact hmisuse cause h
    · exact hmissing name h

theorem isRefusal_of_require {name : String} (h : v.require name = .error f) : IsRefusal f :=
  (Value.require_eq_error h).imp_right fun hf => ⟨name, hf⟩

theorem operand_orElse_eq_error (h : (v.orElse (.map [])).mapOperand = .error f) :
    f = .noOperation ∧ v.holds = true ∧ IsNoObject v := by
  obtain ⟨rfl, hobject⟩ := Value.mapOperand_eq_error h
  by_cases hholds : v.holds = true
  · simp only [Value.orElse, hholds, if_true] at hobject
    exact ⟨rfl, hholds, hobject⟩
  · simp [Value.orElse, hholds] at hobject

theorem readUser_eq_error (h : readUser v = .error f) : f = .noOperation ∧ IsOddUser v := by
  rcases bind_eq_error.mp h with hobject | ⟨es, -, hpure⟩
  · exact operand_orElse_eq_error hobject
  · cases hpure

theorem readNote_eq_error (h : readNote v = .error f) :
    IsRefusal f ∨ f = .noOperation ∧ HasOddAuthor v := by
  rcases bind_eq_error.mp h with hid | ⟨id, hid, h⟩
  · exact Or.inl (isRefusal_of_require hid)
  obtain ⟨es, rfl⟩ := Value.exists_of_require_eq_ok hid
  rcases bind_eq_error.mp h with hobject | ⟨fields, hfields, h⟩
  · cases hobject
  cases hfields
  rcases bind_eq_error.mp h with hauthor | ⟨u, -, hpure⟩
  · obtain ⟨rfl, hodd⟩ := readUser_eq_error hauthor
    exact Or.inr ⟨rfl, es, rfl, hodd⟩
  · cases hpure

theorem readDiscussion_eq_error (h : readDiscussion v = .error f) :
    IsRefusal f ∨ f = .noOperation ∧ HasOddNote v := by
  rcases bind_eq_error.mp h with hid | ⟨id, hid, h⟩
  · exact Or.inl (isRefusal_of_require hid)
  obtain ⟨es, rfl⟩ := Value.exists_of_require_eq_ok hid
  rcases bind_eq_error.mp h with hobject | ⟨fields, hfields, h⟩
  · cases hobject
  cases hfields
  rcases bind_eq_error.mp h with hitems | ⟨ws, hitems, h⟩
  · exact Or.inl (Or.inl ⟨_, Value.items_eq_error hitems⟩)
  rcases bind_eq_error.mp h with hnotes | ⟨notes, -, hpure⟩
  · obtain ⟨before, w, after, rfl, -, hw⟩ := mapM_eq_error.mp hnotes
    rcases readNote_eq_error hw with hrefusal | ⟨rfl, hodd⟩
    · exact Or.inl hrefusal
    · exact Or.inr ⟨rfl, es, _, w, rfl, hitems, by simp, hodd⟩
  · cases hpure

theorem readMergeRequest_eq_error (h : readMergeRequest v = .error f) :
    IsRefusal f ∨ f = .noOperation ∧ HasOddRevisions v := by
  rcases bind_eq_error.mp h with hobject | ⟨es, hes, h⟩
  · obtain ⟨rfl, hodd⟩ := Value.mapOperand_eq_error hobject
    exact Or.inr ⟨rfl, Or.inl hodd⟩
  obtain rfl := Value.mapOperand_eq_ok.mp hes
  rcases bind_eq_error.mp h with hiid | ⟨iid, -, h⟩
  · exact Or.inl (isRefusal_of_require hiid)
  rcases bind_eq_error.mp h with hsource | ⟨source, -, h⟩
  · exact Or.inl (isRefusal_of_require hsource)
  rcases bind_eq_error.mp h with htarget | ⟨target, -, h⟩
  · exact Or.inl (isRefusal_of_require htarget)
  rcases bind_eq_error.mp h with hrefs | ⟨refs, -, hpure⟩
  · obtain ⟨rfl, hodd⟩ := operand_orElse_eq_error hrefs
    exact Or.inr ⟨rfl, Or.inr ⟨es, rfl, hodd⟩⟩
  · cases hpure

end Gitlab

end MergeDecoration
