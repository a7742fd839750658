import Mathlib
import MergeDecoration.Proofs.Value.Reading

/-!
Checks that a reading makes. What is read passes all checks, and what is refused is refused for the
first that it fails.
-/
namespace MergeDecoration

/-- What is checked, and the cause that is told if it is not so. -/
structure Check where
  isMet : Prop
  cause : Invalid

/-- The cause of the first check that is not met. -/
inductive IsFirstUnmet : List Check → Invalid → Prop
  | here {c : Check} {cs : List Check} (hc : ¬c.isMet) : IsFirstUnmet (c :: cs) c.cause
  | later {c : Check} {cs : List Check} {cause : Invalid} (hc : c.isMet)
    (hcs : IsFirstUnmet cs cause) : IsFirstUnmet (c :: cs) cause

namespace IsFirstUnmet

variable {cs ds : List Check} {cause : Invalid}

theorem append (h : IsFirstUnmet cs cause) : IsFirstUnmet (cs ++ ds) cause := by
  induction h with
  | here hc => exact .here hc
  | later hc _ ih => exact .later hc ih

theorem append_of_forall (hcs : ∀ c ∈ cs, c.isMet) (h : IsFirstUnmet ds cause) :
    IsFirstUnmet (cs ++ ds) cause := by
  induction cs with
  | nil => exact h
  | cons c cs ih =>
    obtain ⟨hc, hcs⟩ := List.forall_mem_cons.mp hcs
    exact .later hc (ih hcs)

theorem not_forall (h : IsFirstUnmet cs cause) : ¬∀ c ∈ cs, c.isMet := by
  induction h with
  | here hc => exact fun hall => hc (hall _ List.mem_cons_self)
  | later _ _ ih => exact fun hall => ih fun c hc => hall c (List.mem_cons_of_mem _ hc)

end IsFirstUnmet

/-- A reading that ends well just if some checks are met, and else tells the cause of the first
that is not. -/
structure Governs {α : Type} (cs : List Check) (r : Except Fault α) : Prop where
  of_ok : ∀ a, r = .ok a → ∀ c ∈ cs, c.isMet
  of_error : ∀ f, r = .error f → ∃ cause, f = .invalid cause ∧ IsFirstUnmet cs cause

section

variable {α β : Type} {c : Check} {cs ds : List Check} {r : Except Fault α}

theorem governs_nil (a : α) : Governs [] (.ok a : Except Fault α) :=
  ⟨fun _ _ => List.forall_mem_nil _, fun _ h => by cases h⟩

theorem governs_singleton (hok : (∃ a, r = .ok a) ↔ c.isMet)
    (herror : ∀ f, r = .error f → f = .invalid c.cause) : Governs [c] r where
  of_ok a h := List.forall_mem_singleton.mpr (hok.mp ⟨a, h⟩)
  of_error f h := by
    refine ⟨c.cause, herror f h, .here fun hc => ?_⟩
    obtain ⟨a, ha⟩ := hok.mpr hc
    rw [ha] at h
    cases h

theorem governs_cons_of_met (hc : c.isMet) (h : Governs cs r) : Governs (c :: cs) r where
  of_ok a hr := List.forall_mem_cons.mpr ⟨hc, h.of_ok a hr⟩
  of_error f hr := by
    obtain ⟨cause, rfl, hcause⟩ := h.of_error f hr
    exact ⟨cause, rfl, .later hc hcause⟩

theorem governs_cons_of_unmet (hc : ¬c.isMet) :
    Governs (c :: cs) (.error (.invalid c.cause) : Except Fault α) where
  of_ok a hr := by cases hr
  of_error f hr := ⟨c.cause, (Except.error.inj hr).symm, .here hc⟩

/-- Readings one after the other make their checks one after the other. -/
theorem Governs.bind {f : α → Except Fault β} (h : Governs cs r)
    (hf : ∀ a, r = .ok a → Governs ds (f a)) : Governs (cs ++ ds) (r >>= f) where
  of_ok b hb := by
    obtain ⟨a, ha, hb⟩ := bind_eq_ok.mp hb
    exact List.forall_mem_append.mpr ⟨h.of_ok a ha, (hf a ha).of_ok b hb⟩
  of_error e he := by
    rcases bind_eq_error.mp he with he | ⟨a, ha, he⟩
    · obtain ⟨cause, rfl, hcause⟩ := h.of_error e he
      exact ⟨cause, rfl, hcause.append⟩
    · obtain ⟨cause, rfl, hcause⟩ := (hf a ha).of_error e he
      exact ⟨cause, rfl, hcause.append_of_forall (h.of_ok a ha)⟩

theorem governs_mapM {f : α → Except Fault β} {checks : α → List Check} {xs : List α}
    (h : ∀ x ∈ xs, Governs (checks x) (f x)) : Governs (xs.flatMap checks) (xs.mapM f) := by
  induction xs with
  | nil => exact governs_nil []
  | cons x xs ih =>
    obtain ⟨hx, hxs⟩ := List.forall_mem_cons.mp h
    rw [List.mapM_cons, List.flatMap_cons]
    refine hx.bind fun b _ => ?_
    rw [← List.append_nil (xs.flatMap checks)]
    exact (ih hxs).bind fun bs _ => governs_nil (b :: bs)

theorem Governs.exists_ok_iff (h : Governs cs r) : (∃ a, r = .ok a) ↔ ∀ c ∈ cs, c.isMet := by
  constructor
  · rintro ⟨a, ha⟩
    exact h.of_ok a ha
  · intro hmet
    cases hr : r with
    | ok a => exact ⟨a, rfl⟩
    | error f =>
      obtain ⟨cause, -, hcause⟩ := h.of_error f hr
      exact absurd hmet hcause.not_forall

theorem Governs.map {f : α → β} (h : Governs cs r) : Governs cs (r.map f) := by
  cases r with
  | ok a => exact ⟨fun _ _ => h.of_ok a rfl, fun _ he => (by cases he)⟩
  | error e =>
    refine ⟨fun _ hb => (by cases hb), fun e' he => ?_⟩
    obtain rfl := Except.error.inj he
    exact h.of_error e rfl

end

end MergeDecoration
