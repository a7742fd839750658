import MergeDecoration.Proofs.Decoration.Rerun

/-!
A run keeps a platform regular, whatever it was asked to write and however far it came: ids stay
unique, and no system note gets a link.
-/
namespace MergeDecoration

namespace Platform

variable {p : Platform} {r : Request} {d e : Discussion} {n : Note}

/-- A system note was there before, with the same text unless it was edited. -/
theorem system_of_changed (he : p.changed r d = some e) (hn : n ∈ e.notes)
    (hsystem : n.system = true) : ∃ m ∈ d.notes, m.system = true ∧ m.id = n.id ∧
      (m.body = n.body ∨ r.concerns d.id = true ∧ r.note?.any m.id.same = true) := by
  have hkept : n ∈ d.notes → ∃ m ∈ d.notes, m.system = true ∧ m.id = n.id ∧
      (m.body = n.body ∨ r.concerns d.id = true ∧ r.note?.any m.id.same = true) :=
    fun hmem => ⟨n, hmem, hsystem, rfl, Or.inl rfl⟩
  unfold changed at he
  split at he
  case isFalse =>
    rw [← Option.some.inj he] at hn
    exact hkept hn
  case isTrue hconcerns =>
    cases r with
    | addNote _ _ id text =>
      rw [← Option.some.inj he] at hn
      rcases List.mem_append.mp hn with hn | hn
      · exact hkept hn
      · rw [List.mem_singleton.mp hn] at hsystem
        cases hsystem
    | editNote _ _ id note text =>
      rw [← Option.some.inj he] at hn
      obtain ⟨m, hm, rfl⟩ := List.mem_map.mp hn
      by_cases hsame : m.id.same note = true
      · rw [if_pos hsame] at hsystem ⊢
        exact ⟨m, hm, hsystem, rfl, Or.inr ⟨hconcerns, hsame⟩⟩
      · rw [if_neg hsame] at hsystem ⊢
        exact ⟨m, hm, hsystem, rfl, Or.inl rfl⟩
    | deleteNote _ _ id note =>
      rw [Discussion.eq_of_deleteNote he] at hn
      exact hkept (List.mem_of_mem_filter hn)
    | resolve _ _ id =>
      rw [← Option.some.inj he] at hn
      obtain ⟨m, hm, rfl⟩ := List.mem_map.mp hn
      by_cases hresolvable : m.resolvable = true
      · rw [if_pos hresolvable] at hsystem ⊢
        exact ⟨m, hm, hsystem, rfl, Or.inl rfl⟩
      · rw [if_neg hresolvable] at hsystem ⊢
        exact ⟨m, hm, hsystem, rfl, Or.inl rfl⟩
    | _ =>
      rw [← Option.some.inj he] at hn
      exact hkept hn

/-- What is opened holds no system note. -/
theorem system_of_opens? (h : p.opens? r = some d) (hn : n ∈ d.notes) : n.system = false := by
  cases r with
  | createDiscussion _ _ note =>
    rw [← Option.some.inj h] at hn
    rw [List.mem_singleton.mp hn]
  | _ => cases h

end Platform

namespace Snapshot

variable {s : Snapshot} {p : Platform} {rs : List Request} {r : Request}

/-- System notes carry no links, and none of them is one that the run may rewrite. -/
def SparesSystem (s : Snapshot) (p : Platform) : Prop :=
  ∀ d ∈ p.discussions, ∀ n ∈ d.notes, n.system = true → n.IsPlain ∧
    ∀ c ∈ s.summaries, d.id.same c.discussion.id = true → n.id.same (firstNoteId c) = false

/-- The first note of a summary has a link, so it is no system note. -/
theorem Sees.sparesSystem (h : s.Sees p) (hp : p.IsRegular) : s.SparesSystem p := by
  intro d hd n hn hsystem
  have hplain := hp.system d hd n hn hsystem
  refine ⟨hplain, ?_⟩
  intro c hc hsame
  obtain ⟨hmem, hkind⟩ := mem_summaries.mp hc
  have hids := h.numbered.notes d hd
  rw [← h.discussions_eq] at hd
  obtain ⟨k, hk, rfl⟩ := List.mem_map.mp hd
  obtain rfl := (same_iff h.hasOwnIds hk hmem).mp hsame
  obtain ⟨first, rest, body, hnotes, -, hbody, hsummary⟩ :=
    Discussion.startsSummary_of_kind (h.classify_of_mem hk) (beq_iff_eq.mp hkind)
  rw [firstNoteId_of_notes hnotes]
  rw [hnotes] at hn
  rcases List.mem_cons.mp hn with rfl | hn
  · obtain ⟨text, htext, htargets⟩ := hplain
    rw [Discussion.linkText_text htext] at hbody
    rw [← Except.ok.inj hbody, Identity.isSummary, htargets, Identity.anyDashboard] at hsummary
    cases hsummary
  · exact (Discussion.id_first hnotes hids).2 n hn

theorem sparesSystem_answer (h : s.SparesSystem p) (hr : s.Permits r) :
    s.SparesSystem (p.answer r).2 := by
  intro e he n hn hsystem
  rw [Platform.discussions_answer] at he
  rcases List.mem_append.mp he with he | he
  · obtain ⟨d, hd, hde⟩ := List.mem_filterMap.mp he
    obtain ⟨m, hm, hmsystem, hid, hbody⟩ := Platform.system_of_changed hde hn hsystem
    obtain ⟨⟨text, htext, htargets⟩, hspared⟩ := h d hd m hm hmsystem
    rw [← hid, Platform.id_of_changed hde]
    refine ⟨⟨text, ?_, htargets⟩, hspared⟩
    rcases hbody with hbody | ⟨hconcerns, hedited⟩
    · rw [← hbody, htext]
    · -- The note that is rewritten is the first one of a summary, which is spared.
      cases r with
      | editNote _ _ id note _ | deleteNote _ _ id note =>
        obtain ⟨c, hc, rfl, rfl⟩ := hr
        exact Bool.noConfusion (hedited.symm.trans (hspared c hc hconcerns))
      | _ => cases hedited
  · rw [Platform.system_of_opens? (Option.mem_toList.mp he) hn] at hsystem
    cases hsystem

theorem sparesSystem_after (h : s.SparesSystem p) (hrs : ∀ r ∈ rs, s.Permits r) :
    s.SparesSystem (p.after rs) := by
  induction rs generalizing p with
  | nil => exact h
  | cons r rs ih =>
    obtain ⟨hr, hrest⟩ := List.forall_mem_cons.mp hrs
    exact ih (sparesSystem_answer h hr) hrest

/-- The writes of a run keep a platform regular. -/
theorem Sees.isRegular_after (h : s.Sees p) (hp : p.IsRegular) (hrs : ∀ r ∈ rs, s.Permits r) :
    (p.after rs).IsRegular := by
  refine ⟨Platform.isNumbered_after hp.numbered rs, ?_, ?_⟩
  · rw [Platform.username_after]
    exact hp.username
  · intro d hd n hn hsystem
    exact (sparesSystem_after (h.sparesSystem hp) hrs d hd n hn hsystem).1

end Snapshot

section

variable {w : Watched} (analysis : Analysis) (project : String) (config : Config) (number : Value)

open Program

/-- A run leaves a platform regular, whether it succeeds or is broken off. -/
theorem isRegular_decorate (outage : Outage) (hp : w.platform.IsRegular) :
    ((decorate analysis project config number).run (Watched.backend outage) w).2.platform.IsRegular
    := by
  obtain ⟨rs, hrs, hplatform, hresult⟩ := platform_after_of_asks (w := w) outage
    (failStop_survey analysis project config number).asks
  rw [Platform.after_of_not_isWrite fun r hr => (hrs r hr).1] at hplatform
  rw [decorate_eq]
  cases hsurvey : (survey analysis project config number).run (Watched.backend outage) w with
  | mk result v =>
    rw [hsurvey] at hplatform hresult
    cases result with
    | error e =>
      rw [run_bind_of_error hsurvey, hplatform]
      exact hp
    | ok s =>
      obtain ⟨-, iid, -, hshows, -⟩ := completes_survey.mp (hresult s rfl)
      obtain ⟨us, hus, hafter, -⟩ := platform_after_of_asks (w := v) outage s.failStop_write.asks
      have hsees : s.Sees w.platform := ⟨hp.numbered, hshows.username, hshows.discussions⟩
      rw [run_bind_of_ok hsurvey, hafter, hplatform]
      exact hsees.isRegular_after hp hus

end
end MergeDecoration
