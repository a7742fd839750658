import Mathlib
import MergeDecoration.Analysis.Reader

/-!
Readings of values and how they end. A reading that is made of others ends with the first fault of
these, and so does the reading of a list.
-/
namespace MergeDecoration

section

variable {ε ε' α β : Type}

@[simp] theorem ok_bind (a : α) (f : α → Except ε β) : (.ok a : Except ε α) >>= f = f a := rfl

theorem bind_eq_ok {x : Except ε α} {f : α → Except ε β} {b : β} :
    x >>= f = .ok b ↔ ∃ a, x = .ok a ∧ f a = .ok b := by
  cases x with
  | ok a => simp [bind, Except.bind]
  | error e => simp [bind, Except.bind]

theorem bind_eq_error {x : Except ε α} {f : α → Except ε β} {e : ε} :
    x >>= f = .error e ↔ x = .error e ∨ ∃ a, x = .ok a ∧ f a = .error e := by
  cases x with
  | ok a => simp [bind, Except.bind]
  | error e => simp [bind, Except.bind]

theorem eq_ok_of_toOption {x : Except ε α} {a : α} (h : x.toOption = some a) : x = .ok a := by
  cases x with
  | ok b => rw [Option.some.inj h]
  | error e => cases h

theorem mapError_eq_ok {x : Except ε α} {f : ε → ε'} {a : α} :
    x.mapError f = .ok a ↔ x = .ok a := by
  cases x with
  | ok a => simp [Except.mapError]
  | error e => simp [Except.mapError]

theorem mapError_eq_error {x : Except ε α} {f : ε → ε'} {e : ε'} :
    x.mapError f = .error e ↔ ∃ cause, x = .error cause ∧ f cause = e := by
  cases x with
  | ok a => simp [Except.mapError]
  | error e => simp [Except.mapError]

/-- A list is read item by item. -/
theorem mapM_eq_ok {f : α → Except ε β} {xs : List α} {ys : List β} :
    xs.mapM f = .ok ys ↔ List.Forall₂ (fun x y => f x = .ok y) xs ys := by
  induction xs generalizing ys with
  | nil => simp [pure, Except.pure, eq_comm]
  | cons x xs ih =>
    simp only [List.mapM_cons, bind_eq_ok, ih, List.forall₂_cons_left_iff]
    constructor
    · rintro ⟨y, hy, zs, hzs, h⟩
      exact ⟨y, zs, hy, hzs, (Except.ok.inj h).symm⟩
    · rintro ⟨y, zs, hy, hzs, rfl⟩
      exact ⟨y, hy, zs, hzs, rfl⟩

/-- The first item that cannot be read ends the reading of a list. -/
theorem mapM_eq_error {f : α → Except ε β} {xs : List α} {e : ε} :
    xs.mapM f = .error e ↔ ∃ before x after, xs = before ++ x :: after ∧
      (∀ y ∈ before, ∃ b, f y = .ok b) ∧ f x = .error e := by
  induction xs with
  | nil => simp [pure, Except.pure]
  | cons x xs ih =>
    simp only [List.mapM_cons, bind_eq_error]
    constructor
    · rintro (hx | ⟨b, hb, hrest | ⟨bs, -, hpure⟩⟩)
      · exact ⟨[], x, xs, rfl, by simp, hx⟩
      · obtain ⟨before, y, after, rfl, hbefore, hy⟩ := ih.mp hrest
        exact ⟨x :: before, y, after, rfl, List.forall_mem_cons.mpr ⟨⟨b, hb⟩, hbefore⟩, hy⟩
      · cases hpure
    · rintro ⟨before, y, after, hxs, hbefore, hy⟩
      cases before with
      | nil =>
        obtain ⟨rfl, rfl⟩ := List.cons.inj hxs
        exact Or.inl hy
      | cons z before =>
        obtain ⟨rfl, rfl⟩ := List.cons.inj hxs
        obtain ⟨⟨b, hb⟩, hbefore⟩ := List.forall_mem_cons.mp hbefore
        exact Or.inr ⟨b, hb, Or.inl (ih.mpr ⟨before, y, after, rfl, hbefore, hy⟩)⟩

end

namespace Value

variable {v : Value} {f : Fault} {name : String}

theorem items_eq_error (h : v.items = .error f) : f = .misuse (.itemsOf v.kind) := by
  cases v <;> cases h <;> rfl

theorem mapOperand_eq_error (h : v.mapOperand = .error f) :
    f = .noOperation ∧ ∀ es, v ≠ .map es := by
  cases v <;> cases h <;> simp

theorem mapOperand_eq_ok {es : List (Value × Value)} : v.mapOperand = .ok es ↔ v = .map es := by
  cases v <;> simp [mapOperand]

/-- A field that has to be there is missing, or there are no fields at all. -/
theorem require_eq_error (h : v.require name = .error f) :
    (∃ cause, f = .misuse cause) ∨ f = .missingField name := by
  cases v with
  | map es =>
    simp only [require] at h
    split at h
    · cases h
    · exact Or.inr (Except.error.inj h).symm
  | _ => exact Or.inl ⟨_, (Except.error.inj h).symm⟩

/-- Only an object has fields. -/
theorem exists_of_require_eq_ok {w : Value} (h : v.require name = .ok w) : ∃ es, v = .map es := by
  cases v with
  | map es => exact ⟨es, rfl⟩
  | _ => cases h

def IsText (v : Value) : Prop := ∃ s, v = .text s

/-- A field or a setting that is a text, if it is set. -/
def IsOptionalText (v : Value) : Prop := v = .null ∨ v.IsText

end Value

end MergeDecoration
