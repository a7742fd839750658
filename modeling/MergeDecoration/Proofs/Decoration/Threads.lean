import MergeDecoration.Proofs.Decoration.Treatment
import MergeDecoration.Proofs.Lists

/-!
The threads that a run opens, after any part of the issue block: one for each issue that is due, in
the order of the report.
-/
namespace MergeDecoration

open Platform (noteId discussionId)

namespace Platform

variable {p : Platform} {rs : List Request}

/-- Requests that concern no discussion with a number from `opened` on. -/
def Spares (opened : Nat) (rs : List Request) : Prop :=
  ∀ r ∈ rs, ∀ k, opened ≤ k → r.concerns (discussionId k) = false

theorem carried_of_spares {d : Discussion} {k : Nat} (h : Spares k rs)
    (hd : d.id = discussionId k) : p.carried rs d = some d := by
  apply carried_of_filter_nil
  rw [List.filter_eq_nil_iff]
  intro r hr
  rw [hd, h r hr k (Nat.le_refl k)]
  exact Bool.false_ne_true

/-- Nothing is opened where nothing is asked to be. -/
theorem newcomers_of_not_opening (h : ∀ r ∈ rs, r.isOpening = false) : p.newcomers rs = [] := by
  induction rs generalizing p with
  | nil => rfl
  | cons r rs ih =>
    have hr : p.opens? r = none := by
      have := h r (List.mem_cons_self ..)
      cases r with
      | createDiscussion _ _ note => cases this
      | _ => rfl
    rw [newcomers, hr, ih fun r hr => h r (List.mem_cons_of_mem _ hr)]
    rfl

/-- New discussions have the numbers that were still to be given. -/
theorem exists_of_mem_newcomers {d : Discussion} (h : d ∈ p.newcomers rs) :
    ∃ k, p.opened ≤ k ∧ k < (p.after rs).opened ∧ d.id = discussionId k := by
  induction rs generalizing p with
  | nil => cases h
  | cons r rs ih =>
    rw [newcomers] at h
    rcases List.mem_append.mp h with h | h
    · obtain ⟨e, he, hd⟩ := List.mem_filterMap.mp h
      obtain ⟨hid, -, hopened, -⟩ := of_opens? (Option.mem_toList.mp he)
      refine ⟨p.opened, Nat.le_refl _, ?_, ?_⟩
      · rw [after_cons, opened_after, hopened]
        omega
      · rw [id_of_carried hd, hid]
    · obtain ⟨k, hk, hlt, hid⟩ := ih h
      refine ⟨k, ?_, hlt, hid⟩
      rw [opened_answer] at hk
      omega

theorem newcomers_create {project iid : Value} (note : NewNote)
    (h : Spares p.opened rs) :
    p.newcomers (.createDiscussion project iid note :: rs) =
      ⟨discussionId p.opened, [{
        id := noteId p.written
        author := ⟨p.username, .null⟩
        body := .text note.body
        resolvable := true }]⟩ ::
      (p.answer (.createDiscussion project iid note)).2.newcomers rs := by
  rw [newcomers, opens?, Option.toList_some, List.filterMap_cons_some (carried_of_spares h rfl)]
  rfl

end Platform

namespace Snapshot

variable {s : Snapshot} {p : Platform} {rs : List Request}

/-- The issues that get a new discussion. -/
def due (s : Snapshot) (changeset : Value → Int → Option String) : List Issue :=
  s.analysis.openIssues.filter (s.isDue changeset s.representedKeys)

/-- A discussion that was opened for an issue. -/
def IsThread (s : Snapshot) (p : Platform) (i : Issue) (d : Discussion) : Prop :=
  p.IsNew (s.issueBody i) false d

theorem issueRequests_cases (s : Snapshot) (changeset : Value → Int → Option String)
    (represented : List String) (i : Issue) :
    (s.isDue changeset represented i = false ∧
      ∀ r ∈ s.issueRequests changeset represented i, r.isOpening = false) ∨
    (s.isDue changeset represented i = true ∧ ∃ path line,
      s.issueRequests changeset represented i = [.changeset path line, s.opening i path line]) := by
  unfold isDue issueRequests
  cases i.anchor? with
  | none => exact Or.inl ⟨rfl, nofun⟩
  | some anchor =>
    obtain ⟨path, line⟩ := anchor
    cases hr : represented.contains i.key with
    | true => exact Or.inl ⟨rfl, nofun⟩
    | false =>
      cases ho : s.isOwnLine changeset path line with
      | true => exact Or.inr ⟨by simp [ho], path, line, by simp [ho]⟩
      | false =>
        refine Or.inl ⟨by simp [ho], ?_⟩
        intro r hmem
        simp only [ho, Bool.false_eq_true, if_false, List.mem_singleton] at hmem
        rw [hmem]
        rfl

theorem spares_issueRequests (changeset : Value → Int → Option String) (represented : List String)
    (issues : List Issue) (opened : Nat) :
    Platform.Spares opened (issues.flatMap (s.issueRequests changeset represented)) := by
  intro r hr k _
  obtain ⟨i, -, hr⟩ := List.mem_flatMap.mp hr
  rw [Request.concerns, target_issueRequests hr]
  rfl

/-- The requests for an issue that is due open its discussion. -/
theorem newcomers_of_due (i : Issue) (path : Value) (line : Int)
    (h : Platform.Spares p.opened rs) :
    ∃ d, s.IsThread p i d ∧ p.newcomers ([.changeset path line, s.opening i path line] ++ rs) =
      d :: (p.after [.changeset path line, s.opening i path line]).newcomers rs := by
  refine ⟨_, ⟨p.opened, p.written, Nat.le_refl _, Nat.le_refl _, rfl⟩, ?_⟩
  exact Platform.newcomers_create (.line _) h

/-- The issue requests open discussions for the issues that are due, one after another. -/
theorem newcomers_issueRequests {represented : List String} {issues : List Issue}
    (h : rs <+: issues.flatMap (s.issueRequests p.changeset represented)) :
    ∃ done, done <+: issues.filter (s.isDue p.changeset represented) ∧
      List.Forall₂ (s.IsThread p) done (p.newcomers rs) := by
  induction issues generalizing p rs with
  | nil =>
    rw [List.flatMap_nil, List.prefix_nil] at h
    rw [h]
    exact ⟨[], List.nil_prefix, .nil⟩
  | cons i rest ih =>
    have hspares := fun opened => spares_issueRequests (s := s) p.changeset represented rest opened
    have hrest : ∀ us vs, vs <+: rest.flatMap (s.issueRequests p.changeset represented) →
        ∃ done, done <+: rest.filter (s.isDue p.changeset represented) ∧
          List.Forall₂ (s.IsThread p) done ((p.after us).newcomers vs) := by
      intro us vs hvs
      have hc := Platform.changeset_after p us
      rw [← hc] at hvs
      obtain ⟨done, hdone, hthreads⟩ := ih hvs
      rw [hc] at hdone
      exact ⟨done, hdone, hthreads.imp fun _ _ => Platform.IsNew.after⟩
    rw [List.flatMap_cons] at h
    rcases s.issueRequests_cases p.changeset represented i with
      ⟨hdue, hquiet⟩ | ⟨hdue, path, line, hG⟩
    · rw [List.filter_cons_of_neg (by rw [hdue]; exact Bool.false_ne_true)]
      rcases prefix_append_cases h with hrs | ⟨us, hus, rfl⟩
      · rw [Platform.newcomers_of_not_opening fun r hr => hquiet r (hrs.subset hr)]
        exact ⟨[], List.nil_prefix, .nil⟩
      · obtain ⟨done, hdone, hthreads⟩ := hrest (s.issueRequests p.changeset represented i) us hus
        rw [Platform.newcomers_append, Platform.newcomers_of_not_opening hquiet]
        exact ⟨done, hdone, hthreads⟩
    · rw [List.filter_cons_of_pos hdue]
      rw [hG] at h
      have hopened : ∀ us, us <+: rest.flatMap (s.issueRequests p.changeset represented) →
          ∃ done, done <+: i :: rest.filter (s.isDue p.changeset represented) ∧
            List.Forall₂ (s.IsThread p) done
              (p.newcomers ([.changeset path line, s.opening i path line] ++ us)) := by
        intro us hus
        obtain ⟨d, hd, hnew⟩ := newcomers_of_due (p := p) i path line
          fun r hr => hspares p.opened r (hus.subset hr)
        obtain ⟨done, hdone, hthreads⟩ := hrest _ us hus
        rw [hnew]
        exact ⟨i :: done, List.cons_prefix_cons.mpr ⟨rfl, hdone⟩, .cons hd hthreads⟩
      rcases prefix_append_cases h with hrs | ⟨us, hus, rfl⟩
      · rcases List.prefix_cons_iff.mp hrs with rfl | ⟨ts, rfl, hts⟩
        · exact ⟨[], List.nil_prefix, .nil⟩
        · rcases List.prefix_cons_iff.mp hts with rfl | ⟨us, rfl, hus⟩
          · exact ⟨[], List.nil_prefix, .nil⟩
          · rw [List.prefix_nil.mp hus]
            exact hopened [] List.nil_prefix
      · exact hopened us hus

/-- In the end there is a discussion for each issue that is due. -/
theorem newcomers_issueRequests_all {represented : List String} (issues : List Issue) :
    List.Forall₂ (s.IsThread p) (issues.filter (s.isDue p.changeset represented))
      (p.newcomers (issues.flatMap (s.issueRequests p.changeset represented))) := by
  induction issues generalizing p with
  | nil => exact .nil
  | cons i rest ih =>
    have hrest : ∀ us, List.Forall₂ (s.IsThread p) (rest.filter (s.isDue p.changeset represented))
        ((p.after us).newcomers (rest.flatMap (s.issueRequests p.changeset represented))) := by
      intro us
      have h := ih (p := p.after us)
      rw [Platform.changeset_after] at h
      exact h.imp fun _ _ => Platform.IsNew.after
    rw [List.flatMap_cons]
    rcases s.issueRequests_cases p.changeset represented i with
      ⟨hdue, hquiet⟩ | ⟨hdue, path, line, hG⟩
    · rw [List.filter_cons_of_neg (by rw [hdue]; exact Bool.false_ne_true),
        Platform.newcomers_append, Platform.newcomers_of_not_opening hquiet]
      exact hrest _
    · rw [List.filter_cons_of_pos hdue, hG]
      obtain ⟨d, hd, hnew⟩ := newcomers_of_due (s := s) i path line
        (spares_issueRequests p.changeset represented rest p.opened)
      rw [hnew]
      exact .cons hd (hrest _)

/-- No old discussion has the id of one that is still to be opened. -/
def IsApart (s : Snapshot) (opened : Nat) : Prop :=
  ∀ c ∈ s.discussions, ∀ k, opened ≤ k → c.discussion.id.Apart (discussionId k)

theorem IsApart.mono {opened later : Nat} (h : s.IsApart opened) (hle : opened ≤ later) :
    s.IsApart later := fun c hc k hk => h c hc k (hle.trans hk)

theorem spares_staleRequests {opened : Nat} (h : s.IsApart opened) :
    Platform.Spares opened (s.discussions.flatMap (s.staleRequests s.openKeys)) := by
  intro r hr k hk
  obtain ⟨c, hc, hr⟩ := List.mem_flatMap.mp hr
  rw [Request.concerns, target_staleRequests hr, Option.any_some]
  exact (h c hc k hk).2

theorem spares_retirement {opened : Nat} {part : List Classified} (h : s.IsApart opened)
    (hpart : part ⊆ s.discussions) : Platform.Spares opened (part.flatMap s.retirement) := by
  intro r hr k hk
  obtain ⟨c, hc, hr⟩ := List.mem_flatMap.mp hr
  rw [Request.concerns, target_retirement hr, Option.any_some]
  exact (h c (hpart hc) k hk).2

theorem isOpening_of_target {r : Request} {id : Value} (h : r.target? = some id) :
    r.isOpening = false := by
  cases r with
  | createDiscussion _ _ note => cases h
  | _ => rfl

theorem not_opening_staleRequests :
    ∀ r ∈ s.discussions.flatMap (s.staleRequests s.openKeys), r.isOpening = false := by
  intro r hr
  obtain ⟨c, -, hr⟩ := List.mem_flatMap.mp hr
  exact isOpening_of_target (target_staleRequests hr)

theorem not_opening_retirement (part : List Classified) :
    ∀ r ∈ part.flatMap s.retirement, r.isOpening = false := by
  intro r hr
  obtain ⟨c, -, hr⟩ := List.mem_flatMap.mp hr
  exact isOpening_of_target (target_retirement hr)

end Snapshot

/-- What follows leaves the discussions opened before alone if it does not concern them. -/
theorem Platform.newcomers_append_of_spares {p : Platform} {rs ss : List Request}
    (h : ∀ r ∈ ss, ∀ k, p.opened ≤ k → k < (p.after rs).opened →
      r.concerns (discussionId k) = false) :
    p.newcomers (rs ++ ss) = p.newcomers rs ++ (p.after rs).newcomers ss := by
  rw [newcomers_append]
  congr 1
  conv_rhs => rw [← List.filterMap_some (l := p.newcomers rs)]
  apply List.filterMap_congr
  intro d hd
  obtain ⟨k, hk, hlt, hid⟩ := exists_of_mem_newcomers hd
  apply carried_of_filter_nil
  rw [List.filter_eq_nil_iff]
  intro r hr
  rw [hid, h r hr k hk hlt]
  exact Bool.false_ne_true

namespace Snapshot

variable {s : Snapshot} {p : Platform} {rs : List Request}

/-- The issue block opens discussions for the issues that are due, one after another. -/
theorem newcomers_issuePlan (hnew : s.IsApart p.opened) (h : rs <+: s.issuePlan p.changeset) :
    ∃ done, done <+: s.due p.changeset ∧ List.Forall₂ (s.IsThread p) done (p.newcomers rs) := by
  rcases prefix_append_cases h with hrs | ⟨us, hus, rfl⟩
  · exact newcomers_issueRequests hrs
  · have hspares : Platform.Spares p.opened us :=
      fun r hr => spares_staleRequests hnew r (hus.subset hr)
    rw [Platform.newcomers_append_of_spares fun r hr k hk _ => hspares r hr k hk,
      Platform.newcomers_of_not_opening fun r hr => not_opening_staleRequests r (hus.subset hr),
      List.append_nil]
    exact ⟨_, List.prefix_rfl, newcomers_issueRequests_all _⟩

theorem newcomers_issuePlan_all (hnew : s.IsApart p.opened) :
    List.Forall₂ (s.IsThread p) (s.due p.changeset) (p.newcomers (s.issuePlan p.changeset)) := by
  rw [issuePlan,
    Platform.newcomers_append_of_spares fun r hr k hk _ => spares_staleRequests hnew r hr k hk,
    Platform.newcomers_of_not_opening not_opening_staleRequests, List.append_nil]
  exact newcomers_issueRequests_all _

end Snapshot
end MergeDecoration
