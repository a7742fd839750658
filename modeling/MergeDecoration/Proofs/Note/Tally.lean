import Mathlib
import MergeDecoration.Note.Summary

/-!
Tallies: what is kept under names as these come up. Under a name there is in the end what the items
of that name made of it, and the names stand in the order in which they came up first.
-/
namespace MergeDecoration

namespace Tally

variable {α β : Type} {start : α} {change : α → α} {name other : String} {t : Tally α}

def names (t : Tally α) : List String := t.map (·.1)

/-- What is kept under a name, or what would be changed first if there is nothing. -/
def get (start : α) (t : Tally α) (name : String) : α := (t.lookup name).getD start

theorem get_cons {x : α} {rest : Tally α} :
    get start ((other, x) :: rest) name = if other = name then x else get start rest name := by
  rw [get, List.lookup_cons]
  by_cases h : other = name
  · rw [if_pos h, beq_iff_eq.mpr h.symm]
    rfl
  · rw [if_neg h, beq_eq_false_iff_ne.mpr (Ne.symm h)]
    rfl

theorem get_of_forall (h : ∀ e ∈ t, e.2 = start) : get start t name = start := by
  induction t with
  | nil => rfl
  | cons e rest ih =>
    obtain ⟨first, x⟩ := e
    obtain ⟨rfl, hrest⟩ := List.forall_mem_cons.mp h
    rw [get_cons, ih hrest, ite_self]

/-- A change is seen under its own name and nowhere else. -/
theorem get_alter : get start (alter start change name t) other =
    if name = other then change (get start t name) else get start t other := by
  induction t with
  | nil => rw [alter, get_cons]; rfl
  | cons e rest ih =>
    obtain ⟨first, x⟩ := e
    rw [alter]
    by_cases hfirst : first = name
    · subst hfirst
      rw [if_pos rfl, get_cons, get_cons, get_cons, if_pos rfl]
      by_cases hother : first = other
      · rw [if_pos hother, if_pos hother]
      · rw [if_neg hother, if_neg hother, if_neg hother]
    · rw [if_neg hfirst, get_cons, get_cons, get_cons, ih, if_neg hfirst]
      by_cases hname : name = other
      · subst hname
        rw [if_neg hfirst, if_pos rfl, if_pos rfl]
      · rw [if_neg hname, if_neg hname]

theorem names_alter : names (alter start change name t) =
    if name ∈ names t then names t else names t ++ [name] := by
  induction t with
  | nil => rfl
  | cons e rest ih =>
    obtain ⟨first, x⟩ := e
    rw [alter]
    by_cases hfirst : first = name
    · subst hfirst
      have hmem : first ∈ names ((first, x) :: rest) := List.mem_cons_self
      rw [if_pos rfl, if_pos hmem]
      rfl
    · have hmem : name ∈ names ((first, x) :: rest) ↔ name ∈ names rest := by
        rw [names, List.map_cons, List.mem_cons, or_iff_right (Ne.symm hfirst), names]
      have hcons : names ((first, x) :: alter start change name rest) =
          first :: names (alter start change name rest) := rfl
      rw [if_neg hfirst, hcons, ih]
      simp only [hmem]
      split_ifs
      · rfl
      · rfl

/-- What is kept under a name after many changes is what the changes of that name make of what was
kept before. -/
theorem get_foldl (key : β → String) (step : α → β → α) (xs : List β) :
    get start (xs.foldl (fun t x => alter start (step · x) (key x) t) t) name =
      (xs.filter (key · == name)).foldl step (get start t name) := by
  induction xs generalizing t with
  | nil => rfl
  | cons x xs ih =>
    rw [List.foldl_cons, ih, get_alter]
    by_cases hx : key x = name
    · have hkeep : (x :: xs).filter (key · == name) = x :: xs.filter (key · == name) :=
        List.filter_cons_of_pos (beq_iff_eq.mpr hx)
      rw [if_pos hx, hkeep, List.foldl_cons, hx]
    · have hdrop : (x :: xs).filter (key · == name) = xs.filter (key · == name) :=
        List.filter_cons_of_neg (by rwa [beq_iff_eq])
      rw [if_neg hx, hdrop]

/-- Every name that was met stands once, in the order of the first time it was. -/
structure InOrder (names met : List String) : Prop where
  mem : ∀ n, n ∈ names ↔ n ∈ met
  order : names.Pairwise fun m n => met.idxOf m < met.idxOf n

namespace InOrder

variable {names met : List String} {n : String}

theorem nodup (h : InOrder names met) : names.Nodup :=
  h.order.imp fun hlt heq => absurd (heq ▸ hlt) (lt_irrefl _)

/-- A name that is met again changes nothing, and a new one comes last. -/
theorem append (h : InOrder names met) (n : String) :
    InOrder (if n ∈ names then names else names ++ [n]) (met ++ [n]) := by
  have hkeep : ∀ m ∈ names, (met ++ [n]).idxOf m = met.idxOf m := fun m hm =>
    List.idxOf_append_of_mem ((h.mem m).mp hm)
  have horder : names.Pairwise fun m n' => (met ++ [n]).idxOf m < (met ++ [n]).idxOf n' := by
    refine h.order.imp_of_mem fun hm hn' hlt => ?_
    rwa [hkeep _ hm, hkeep _ hn']
  by_cases hn : n ∈ names
  · rw [if_pos hn]
    refine ⟨fun m => ?_, horder⟩
    rw [h.mem, List.mem_append, List.mem_singleton]
    refine ⟨Or.inl, ?_⟩
    rintro (hm | rfl)
    · exact hm
    · exact (h.mem m).mp hn
  · rw [if_neg hn]
    refine ⟨fun m => ?_, List.pairwise_append.mpr ⟨horder, List.pairwise_singleton _ _, ?_⟩⟩
    · rw [List.mem_append, List.mem_append, h.mem]
    · intro m hm n' hn'
      obtain rfl := List.mem_singleton.mp hn'
      have hnew : n' ∉ met := fun hmet => hn ((h.mem n').mpr hmet)
      rw [hkeep m hm, List.idxOf_append_of_notMem hnew, List.idxOf_cons_self]
      have := List.idxOf_lt_length_iff.mpr ((h.mem m).mp hm)
      omega

end InOrder

theorem inOrder_foldl (key : β → String) (step : α → β → α) (xs : List β) {met : List String}
    (h : InOrder (names t) met) :
    InOrder (names (xs.foldl (fun t x => alter start (step · x) (key x) t) t))
      (met ++ xs.map key) := by
  induction xs generalizing t met with
  | nil => rwa [List.map_nil, List.append_nil]
  | cons x xs ih =>
    rw [List.foldl_cons, List.map_cons, ← List.singleton_append, ← List.append_assoc]
    apply ih
    rw [names_alter]
    exact h.append (key x)

/-- A tally is told by its names and by what is kept under each. -/
theorem eq_map_get (start : α) (h : (names t).Nodup) :
    t = (names t).map fun n => (n, get start t n) := by
  induction t with
  | nil => rfl
  | cons e rest ih =>
    obtain ⟨first, x⟩ := e
    obtain ⟨hfirst, hrest⟩ := List.nodup_cons.mp h
    have htail : (names rest).map (fun n => (n, get start ((first, x) :: rest) n)) = rest := by
      refine Eq.trans (List.map_congr_left fun n hn => ?_) (ih hrest).symm
      rw [get_cons, if_neg]
      rintro rfl
      exact hfirst hn
    have hhead : get start ((first, x) :: rest) first = x := by rw [get_cons, if_pos rfl]
    rw [names, List.map_cons, List.map_cons, hhead]
    exact congrArg _ htail.symm

/-- What is counted of all entries together goes up by one with each change. -/
theorem sum_alter {f : α → ℕ} (hstart : f start = 0) (hchange : ∀ x, f (change x) = f x + 1) :
    ((alter start change name t).map fun e => f e.2).sum = (t.map fun e => f e.2).sum + 1 := by
  induction t with
  | nil => simp [alter, hstart, hchange]
  | cons e rest ih =>
    obtain ⟨first, x⟩ := e
    rw [alter]
    split_ifs with hfirst
    · simp only [List.map_cons, List.sum_cons, hchange]
      omega
    · simp only [List.map_cons, List.sum_cons, ih]
      omega

theorem sum_foldl {f : α → ℕ} (key : β → String) (step : α → β → α) (xs : List β)
    (hstart : f start = 0) (hstep : ∀ v x, f (step v x) = f v + 1) :
    ((xs.foldl (fun t x => alter start (step · x) (key x) t) t).map fun e => f e.2).sum =
      (t.map fun e => f e.2).sum + xs.length := by
  induction xs generalizing t with
  | nil => rfl
  | cons x xs ih =>
    have hchange : ∀ v, f (step v x) = f v + 1 := fun v => hstep v x
    rw [List.foldl_cons, ih, sum_alter hstart hchange, List.length_cons]
    omega

/-- What is counted under several names one by one is what has one of these names. -/
theorem sum_countP (key : β → String) (xs : List β) {ns : List String} (h : ns.Nodup) :
    (ns.map fun n => xs.countP (key · == n)).sum = xs.countP (ns.contains <| key ·) := by
  induction ns with
  | nil => simp
  | cons n ns ih =>
    obtain ⟨hn, hns⟩ := List.nodup_cons.mp h
    rw [List.map_cons, List.sum_cons, ih hns]
    clear ih
    induction xs with
    | nil => rfl
    | cons x xs ih =>
      by_cases hkey : key x = n
      · have hnot : ¬ns.contains (key x) = true := by rwa [hkey, List.contains_iff_mem]
        have hcons : (n :: ns).contains (key x) = true := by simp [hkey]
        have hown : (key x == n) = true := beq_iff_eq.mpr hkey
        rw [List.countP_cons, List.countP_cons, List.countP_cons, if_pos hown, if_neg hnot,
          if_pos hcons]
        omega
      · have hown : ¬(key x == n) = true := by rwa [beq_iff_eq]
        have hcons : (n :: ns).contains (key x) = ns.contains (key x) := by simp [hkey]
        rw [List.countP_cons, List.countP_cons, List.countP_cons, if_neg hown, hcons]
        omega

end Tally
end MergeDecoration
