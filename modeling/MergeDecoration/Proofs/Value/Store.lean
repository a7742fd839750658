import Mathlib
import MergeDecoration.Config

/-!
Values stored under keys that are texts. A value is found under its own key, and what is found under
all other keys stays.
-/
namespace MergeDecoration

namespace Value

variable {es fs more : List (Value × Value)} {v key : Value} {name : String}

theorem sameKey_text_right : v.sameKey (.text name) = true ↔ v = .text name := by
  cases v with
  | text s => simp
  | _ => simp [sameKey, same]; rfl

theorem sameKey_text_left : (.text name : Value).sameKey key = true ↔ key = .text name := by
  cases key with
  | text s =>
    rw [sameKey_text, beq_iff_eq, text.injEq]
    exact eq_comm
  | _ => simp [sameKey, same]; rfl

theorem find?_store_self (es : List (Value × Value)) (name : String) (v : Value) :
    find? (store es (.text name) v) (.text name) = some v := by
  induction es with
  | nil => simp [store, find?]
  | cons e es ih =>
    unfold store
    split
    · next h => simp [find?, sameKey_text_right.mp h]
    · next h => simpa [find?, h] using ih

theorem find?_store_of_ne (es : List (Value × Value)) (v : Value) (h : key ≠ .text name) :
    find? (store es (.text name) v) key = find? es key := by
  have hkey : (.text name : Value).sameKey key = false := by
    rw [← Bool.not_eq_true, sameKey_text_left]
    exact h
  induction es with
  | nil => simp [store, find?, hkey]
  | cons e es ih =>
    unfold store
    split
    · next hself => simp [find?, sameKey_text_right.mp hself, hkey]
    · unfold find? at ih ⊢
      cases he : e.1.sameKey key <;> simp [he, ih]

/-- What is found under a key after storing depends on what was found under it before. -/
theorem find?_store_congr (v : Value) (h : find? es key = find? fs key) :
    find? (store es (.text name) v) key = find? (store fs (.text name) v) key := by
  by_cases hkey : key = .text name
  · rw [hkey, find?_store_self, find?_store_self]
  · rw [find?_store_of_ne _ _ hkey, find?_store_of_ne _ _ hkey, h]

end Value
end MergeDecoration
