import Mathlib

/-!
Computations that go on from a state and can end with a fault. One that is put together from two
ends as the first if that is a fault, and otherwise as the second goes on from where the first
ended. What holds between the two states of every part holds between those of the whole.
-/
namespace MergeDecoration.Stateful

variable {ε σ α β : Type} {x : ExceptT ε (StateM σ) α} {next : α → ExceptT ε (StateM σ) β}
  {s s' : σ} {a : α} {e : ε}

theorem bind_apply (x : ExceptT ε (StateM σ) α) (next : α → ExceptT ε (StateM σ) β) (s : σ) :
    (x >>= next) s = match x s with
      | (.ok a, t) => next a t
      | (.error e, t) => (.error e, t) := by
  have hbind : (x >>= next) s = ExceptT.bindCont next (x s).1 (x s).2 := rfl
  rw [hbind]
  rcases x s with ⟨a | e, t⟩ <;> rfl

theorem lift_apply (y : Except ε α) (s : σ) :
    (liftM y : ExceptT ε (StateM σ) α) s = (y, s) := rfl

theorem bind_of_ok (h : x s = (.ok a, s')) : (x >>= next) s = next a s' := by
  rw [bind_apply, h]

theorem bind_of_error (h : x s = (.error e, s')) : (x >>= next) s = (.error e, s') := by
  rw [bind_apply, h]

/-- What holds if the first of two computations fails, and what holds of the second from where the
first ended, holds of both together. -/
theorem bind_cases {motive : Except ε β × σ → Prop}
    (herror : ∀ e t, x s = (.error e, t) → motive (.error e, t))
    (hok : ∀ a t, x s = (.ok a, t) → motive (next a t)) : motive ((x >>= next) s) := by
  rcases hx : x s with ⟨e | a, t⟩
  · rw [bind_of_error hx]
    exact herror e t hx
  · rw [bind_of_ok hx]
    exact hok a t hx

/-- Wherever the computation starts, it ends in a state that stands to the first as the relation
says. -/
def Leads (R : σ → σ → Prop) (x : ExceptT ε (StateM σ) α) : Prop := ∀ s, R s (x s).2

namespace Leads

variable {R S : σ → σ → Prop}

theorem of_eq {result : Except ε α} (h : Leads R x) (hx : x s = (result, s')) : R s s' := by
  have hs := h s
  rwa [hx] at hs

theorem mono (h : Leads R x) (hsub : ∀ s t, R s t → S s t) : Leads S x :=
  fun s => hsub _ _ (h s)

theorem modify {g : σ → σ} (h : ∀ s, R s (g s)) :
    Leads R (modify g : ExceptT ε (StateM σ) PUnit) := h

section

variable [IsPreorder σ R]

theorem pure (a : α) : Leads R (Pure.pure a : ExceptT ε (StateM σ) α) := fun s => refl_of R s

theorem throw (e : ε) : Leads R (throw e : ExceptT ε (StateM σ) α) := fun s => refl_of R s

theorem lift (y : Except ε α) : Leads R (liftM y : ExceptT ε (StateM σ) α) := fun s => refl_of R s

theorem get : Leads R (get : ExceptT ε (StateM σ) σ) := fun s => refl_of R s

theorem bind (hx : Leads R x) (hnext : ∀ a, Leads R (next a)) : Leads R (x >>= next) := by
  intro s
  apply bind_cases (motive := fun r => R s r.2)
  · exact fun e t hxs => hx.of_eq hxs
  · exact fun a t hxs => trans_of R (hx.of_eq hxs) (hnext a t)

theorem discard (hx : Leads R x) : Leads R (Functor.discard x) :=
  fun s => (hx.bind fun _ => pure PUnit.unit) s

theorem forM {γ : Type} {each : γ → ExceptT ε (StateM σ) PUnit} (xs : List γ)
    (h : ∀ c, Leads R (each c)) : Leads R (xs.forM each) := by
  induction xs with
  | nil => exact pure _
  | cons c xs ih => exact bind (h c) fun _ => ih

end

end Leads
end MergeDecoration.Stateful
