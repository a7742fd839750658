import MergeDecoration.Proofs.Decoration.Recovery
import MergeDecoration.Proofs.Platform.Outline

/-!
What the next run asks. The current summary stays the current one, and an old discussion is led to
where the broken run would have led it.
-/
namespace MergeDecoration

open Platform (noteId discussionId)

namespace Snapshot

variable {s : Snapshot} {p : Platform} {rs : List Request} {c k : Classified}

/-- Whether a discussion holds a summary that is not flagged. -/
def isLiveSummary (s : Snapshot) (c : Classified) : Bool := c.kind == .summary && !s.flagged c

theorem live_eq : s.live = s.discussions.filter s.isLiveSummary := by
  rw [live, summaries, List.filter_filter]
  apply List.filter_congr
  intro c _
  rw [isLiveSummary, Bool.and_comm]

/-- No live summary stands behind the current one. -/
theorem discussions_of_current? (h : s.current? = some c) :
    (s.config.get "summary_note_edit").holds = true ∧ ∃ before behind,
      s.discussions = before ++ c :: behind ∧ s.isLiveSummary c = true ∧
      ∀ k ∈ behind, s.isLiveSummary k = false := by
  have hlive := live_eq_of_current? h
  rw [live_eq] at hlive
  obtain ⟨before, rest, hrest, -, hlast⟩ := List.filter_eq_append_iff.mp hlive
  obtain ⟨others, behind, rfl, -, hc, hnil⟩ := List.filter_eq_cons_iff.mp hlast
  refine ⟨?_, before ++ others, behind, ?_, hc, ?_⟩
  · unfold current? at h
    split at h
    · next he => exact he
    · cases h
  · rw [hrest, List.append_assoc]
  · intro k hk
    exact Bool.not_eq_true _ ▸ List.filter_eq_nil_iff.mp hnil k hk

theorem current?_of_discussions {before behind : List Classified}
    (he : (s.config.get "summary_note_edit").holds = true)
    (hs : s.discussions = before ++ c :: behind) (hc : s.isLiveSummary c = true)
    (hbehind : ∀ k ∈ behind, s.isLiveSummary k = false) : s.current? = some c := by
  have hnil : behind.filter s.isLiveSummary = [] := by
    rw [List.filter_eq_nil_iff]
    intro k hk
    rw [hbehind k hk]
    exact Bool.false_ne_true
  rw [current?, if_pos he, live_eq, hs, List.filter_append, List.filter_cons_of_pos hc, hnil,
    List.getLast?_append, List.getLast?_singleton, Option.some_or]

theorem current?_eq_none_iff : s.current? = none ↔
    (s.config.get "summary_note_edit").holds = false ∨
      ∀ c ∈ s.discussions, s.isLiveSummary c = false := by
  unfold current?
  cases (s.config.get "summary_note_edit").holds with
  | false => simp
  | true =>
    rw [if_pos rfl, List.getLast?_eq_none_iff, live_eq, List.filter_eq_nil_iff]
    simp

theorem isCurrent_eq (s : Snapshot) (c : Classified) :
    s.isCurrent c = (s.current?.map (·.discussion.id)).any c.discussion.id.same := by
  rw [isCurrent, Option.any_map]

theorem isLiveSummary_of_isFlagged {b : Bool} (hkind : k.kind = .summary)
    (hflag : s.isFlagged k = .ok b) : s.isLiveSummary k = !b := by
  rw [isLiveSummary, hkind, flagged_eq hflag]
  rfl

theorem isLiveSummary_of_isIdle {project : String} (h : k.IsIdle project) :
    s.isLiveSummary k = false := by
  rw [isLiveSummary, beq_eq_false_iff_ne.mpr h.1, Bool.false_and]

namespace Halfway

variable {done : List Issue} {threads sums : List Discussion}

theorem next_of_successor (h : s.Halfway p rs done threads sums) (hc : c ∈ s.discussions)
    (hk : s.successor p rs c = some k) :
    p.carried rs c.discussion = some k.discussion ∧ s.Next p.written c k := by
  rcases h.successor_cases hc with ⟨-, hnone⟩ | ⟨l, hcarried, hl, hnext⟩
  · rw [hnone] at hk
    cases hk
  · rw [hl, Option.some.injEq] at hk
    subst hk
    exact ⟨hcarried, hnext⟩

/-- Live to the next run are only the current summary and those that were live. -/
theorem isLiveSummary_of_successor (h : s.Halfway p rs done threads sums)
    (hc : c ∈ s.discussions) (hcurrent : s.isCurrent c = false) (hlive : s.isLiveSummary c = false)
    (hk : s.successor p rs c = some k) : s.isLiveSummary k = false := by
  cases (h.next_of_successor hc hk).2 with
  | same => exact hlive
  | current hc' => exact Bool.noConfusion (hc'.symm.trans hcurrent)
  | idle _ hidle => exact isLiveSummary_of_isIdle hidle
  | flagged _ hkind hflag => exact isLiveSummary_of_isFlagged hkind hflag

theorem isLiveSummary_thread (s : Snapshot) (i : Issue) (d : Discussion) :
    s.isLiveSummary (s.thread i d) = false := rfl

theorem threads_not_live (h : s.Halfway p rs done threads sums) :
    ∀ k ∈ threads.filterMap s.reread, s.isLiveSummary k = false := by
  intro k hk
  obtain ⟨d, hd, hreread⟩ := List.mem_filterMap.mp hk
  obtain ⟨i, -, -, hd'⟩ := h.thread_of_mem hd
  rw [hd', Option.some.injEq] at hreread
  rw [← hreread]
  exact isLiveSummary_thread s i d

/-- New discussions without a summary among them are threads. -/
theorem newcomers_not_live (h : s.Halfway p rs done threads []) :
    ∀ k ∈ (p.newcomers rs).filterMap s.reread, s.isLiveSummary k = false := by
  intro k hk
  have hperm := h.newcomers.filterMap s.reread
  rw [List.append_nil] at hperm
  exact h.threads_not_live k (hperm.mem_iff.mp hk)

/-- The current summary is there, live, and the last such one. -/
theorem current?_again_of_some (h : s.Halfway p rs done threads sums) (hc : s.current? = some c) :
    sums = [] ∧ ∃ k, s.successor p rs c = some k ∧ (s.again (p.after rs)).current? = some k := by
  obtain ⟨he, before, behind, hs, hlive, hbehind⟩ := discussions_of_current? hc
  have hmem : c ∈ s.discussions := by
    rw [hs]
    exact List.mem_append_right _ (List.mem_cons_self ..)
  have hcurrent := (isCurrent_iff h.sound.hasOwnIds hmem).mpr hc
  have hsums : sums = [] := by
    rcases h.summary with hnil | ⟨hnone, -⟩
    · exact hnil
    · rw [hnone] at hc
      cases hc
  subst hsums
  refine ⟨rfl, ?_⟩
  have hstage := h.sound.stage h.asked hmem
  rcases h.successor_cases hmem with ⟨hnone, -⟩ | ⟨k, -, hk, hnext⟩
  · obtain ⟨m, -, htreated⟩ := hstage.exists_treated_eq_none hnone
    rw [treated_of_isCurrent _ hcurrent] at htreated
    cases htreated
  refine ⟨k, hk, ?_⟩
  have hklive : s.isLiveSummary k = true := by
    cases hnext with
    | same => exact hlive
    | current _ hkind hflag => exact isLiveSummary_of_isFlagged hkind hflag
    | idle hfalse => exact Bool.noConfusion (hcurrent.symm.trans hfalse)
    | flagged hfalse => exact Bool.noConfusion (hcurrent.symm.trans hfalse)
  have hagain := h.sound.discussions_again rs
  rw [hs, List.filterMap_append, List.filterMap_cons_some hk, List.append_assoc,
    List.cons_append] at hagain
  refine current?_of_discussions he hagain hklive ?_
  intro l hl
  rcases List.mem_append.mp hl with hl | hl
  · obtain ⟨b, hb, hsuccessor⟩ := List.mem_filterMap.mp hl
    have hbmem : b ∈ s.discussions := by
      rw [hs]
      exact List.mem_append_right _ (List.mem_cons_of_mem c hb)
    have hbcurrent : s.isCurrent b = false := by
      apply isCurrent_eq_false h.sound.hasOwnIds hbmem
      rw [hc]
      intro heq
      rw [Option.some.inj heq, hbehind b hb] at hlive
      cases hlive
    exact h.isLiveSummary_of_successor hbmem hbcurrent (hbehind b hb) hsuccessor
  · exact h.newcomers_not_live l hl

theorem current?_again_of_none (h : s.Halfway p rs done threads []) (hc : s.current? = none) :
    (s.again (p.after rs)).current? = none := by
  rw [current?_eq_none_iff]
  rcases current?_eq_none_iff.mp hc with he | hlive
  · exact Or.inl he
  · right
    intro k hk
    rw [h.sound.discussions_again] at hk
    rcases List.mem_append.mp hk with hk | hk
    · obtain ⟨b, hb, hsuccessor⟩ := List.mem_filterMap.mp hk
      have hbcurrent := isCurrent_eq_false h.sound.hasOwnIds hb (by rw [hc]; nofun)
      exact h.isLiveSummary_of_successor hb hbcurrent (hlive b hb) hsuccessor
    · exact h.newcomers_not_live k hk

/-- Unless a new summary is there, the current one is the same. -/
theorem current?_again (h : s.Halfway p rs done threads []) :
    (s.again (p.after rs)).current?.map (·.discussion.id) =
      s.current?.map (·.discussion.id) := by
  cases hc : s.current? with
  | none => rw [h.current?_again_of_none hc]
  | some c =>
    obtain ⟨-, k, hk, hcurrent⟩ := h.current?_again_of_some hc
    have hmem := (mem_live.mp (mem_live_of_current? hc)).1
    rw [hcurrent, Option.map_some, Option.map_some,
      Platform.id_of_carried (h.next_of_successor hmem hk).1]

/-- A retired summary that is treated in full is flagged, or nothing of it is left but system
notes. -/
theorem isSettled_of_treated {n : Nat} (h : s.Halfway p rs done threads sums)
    (hc : c ∈ s.discussions) (hretire : s.isRetired c = true) (hcurrent : s.isCurrent c = false)
    (hk : s.successor p rs c = some k) (hn : p.written ≤ n)
    (ht : s.treated (noteId n) c = some k.discussion) : s.IsSettled k := by
  obtain ⟨l, hl, -, hleft⟩ := next_of_retired (h.sound.reads hc) hretire hcurrent hn ht
  have heq : k = l := by
    rw [successor, (h.next_of_successor hc hk).1, Option.bind_some, reread_of_classify hl] at hk
    exact (Option.some.inj hk).symm
  rwa [heq]

theorem not_live_of_isSettled (h : s.IsSettled k) : s.isLiveSummary k = false := by
  rcases h with hidle | ⟨hkind, hflag, -⟩
  · exact isLiveSummary_of_isIdle hidle
  · exact isLiveSummary_of_isFlagged hkind hflag

/-- Once a new summary is there, each old one is treated: what is left of it is flagged or none. -/
theorem next_of_summary {d : Discussion} (h : s.Halfway p rs done threads [d])
    (hc : c ∈ s.discussions) (hkind : c.kind = .summary) (hk : s.successor p rs c = some k) :
    (∃ n, p.written ≤ n ∧ s.treated (noteId n) c = some k.discussion) ∧ s.IsSettled k := by
  rcases h.summary with hnil | ⟨hnone, hretired, -⟩
  · cases hnil
  · obtain ⟨n, hn, htreated⟩ := h.sound.treated_of_retirement h.asked hnone hretired hc hkind
    obtain ⟨hretire, hcurrent⟩ := Sound.retired_of_current?_none hnone hkind
    rw [(h.next_of_successor hc hk).1] at htreated
    exact ⟨⟨n, hn, htreated.symm⟩,
      h.isSettled_of_treated hc hretire hcurrent hk hn htreated.symm⟩

/-- A new summary is the only live one. -/
theorem live_again_of_new {d : Discussion} {resolved : Bool}
    (h : s.Halfway p rs done threads [d]) (hd : p.IsNew s.summaryBody resolved d) :
    (s.again (p.after rs)).live = [⟨d, .summary, none, resolved⟩] := by
  have hlive : s.isLiveSummary ⟨d, .summary, none, resolved⟩ = true := by
    obtain ⟨n, m, -, -, rfl⟩ := hd
    rfl
  have hold : (s.discussions.filterMap (s.successor p rs)).filter s.isLiveSummary = [] := by
    rw [List.filter_eq_nil_iff]
    intro k hk
    obtain ⟨c, hc, hsuccessor⟩ := List.mem_filterMap.mp hk
    have hnone : s.current? = none := by
      rcases h.summary with hnil | ⟨hnone, -⟩
      · cases hnil
      · exact hnone
    have hcurrent := isCurrent_eq_false h.sound.hasOwnIds hc (by rw [hnone]; nofun)
    rw [Bool.not_eq_true]
    by_cases hkind : c.kind = .summary
    · exact not_live_of_isSettled (h.next_of_summary hc hkind hsuccessor).2
    · apply h.isLiveSummary_of_successor hc hcurrent ?_ hsuccessor
      rw [isLiveSummary, beq_eq_false_iff_ne.mpr hkind, Bool.false_and]
  have hthreads : (threads.filterMap s.reread).filter s.isLiveSummary = [] :=
    List.filter_eq_nil_iff.mpr fun k hk => (Bool.not_eq_true _).mpr (h.threads_not_live k hk)
  have hnew : ((p.newcomers rs).filterMap s.reread).filter s.isLiveSummary =
      [⟨d, .summary, none, resolved⟩] := by
    have hperm := (h.newcomers.filterMap s.reread).filter s.isLiveSummary
    rw [List.filterMap_append, List.filter_append, hthreads, List.nil_append,
      List.filterMap_cons_some (h.sound.reread_summary hd), List.filterMap_nil,
      List.filter_cons_of_pos hlive, List.filter_nil] at hperm
    exact List.perm_singleton.mp hperm
  rw [live_eq, h.sound.discussions_again, List.filter_append]
  exact (congrArg₂ _ hold hnew).trans (List.nil_append _)

/-- After the whole plan, the current summary is the only live one. -/
theorem live_again_of_current
    (h : s.Halfway p (s.plan p.changeset p.opened) done threads sums) (hc : s.current? = some c) :
    ∃ k, s.successor p (s.plan p.changeset p.opened) c = some k ∧
      (s.again (p.after (s.plan p.changeset p.opened))).live = [k] := by
  obtain ⟨rfl, k, hk, hcurrent⟩ := h.current?_again_of_some hc
  refine ⟨k, hk, ?_⟩
  have hothers : (s.again (p.after (s.plan p.changeset p.opened))).live.dropLast = [] := by
    rw [List.eq_nil_iff_forall_not_mem]
    intro l hl
    obtain ⟨hmem, hne⟩ := (mem_dropLast_iff h.sees.hasOwnIds hcurrent).mp hl
    rw [live_eq] at hmem
    obtain ⟨hl, hlive⟩ := List.mem_filter.mp hmem
    refine absurd hlive ((Bool.not_eq_true _).mpr (?_ : s.isLiveSummary l = false))
    rcases h.mem_again hl with ⟨b, hb, hcarried, hsuccessor, -⟩ | ⟨i, -, d, -, -, rfl⟩ | ⟨d, hd, -⟩
    · have hbcurrent : s.isCurrent b = false := by
        apply isCurrent_eq_false h.sound.hasOwnIds hb
        rw [hc]
        intro heq
        rw [← Option.some.inj heq, hk] at hsuccessor
        exact hne (Option.some.inj hsuccessor).symm
      -- A summary that was live is retired.
      cases hblive : s.isLiveSummary b with
      | false => exact h.isLiveSummary_of_successor hb hbcurrent hblive hsuccessor
      | true =>
        rw [isLiveSummary, Bool.and_eq_true] at hblive
        have hretired : s.isRetired b = true := by
          rw [isRetired, hblive.1, hblive.2, Bool.or_true, Bool.and_true]
        obtain ⟨n, hn, htreated⟩ := h.sound.treated hb
        exact not_live_of_isSettled (h.isSettled_of_treated hb hretired hbcurrent hsuccessor hn
          (htreated.symm.trans hcarried))
    · exact isLiveSummary_thread s i d
    · exact absurd hd List.not_mem_nil
  rw [live_eq_of_current? hcurrent, hothers, List.nil_append]

/-- The new summary is the current one if summaries are edited. -/
theorem current?_again_of_new {d : Discussion} {resolved : Bool}
    (h : s.Halfway p rs done threads [d]) (hd : p.IsNew s.summaryBody resolved d) :
    (s.again (p.after rs)).current? =
      if (s.config.get "summary_note_edit").holds then some ⟨d, .summary, none, resolved⟩
      else none := by
  rw [current?, h.live_again_of_new hd]
  rfl

end Halfway

theorem treatment_of_isSettled {t : Snapshot} {q : Platform} (h : t.Sees q)
    (hk : k ∈ t.discussions) (hsettled : t.IsSettled k) : t.treatment k = [] := by
  rcases hsettled with hidle | ⟨hkind, hflag, hreplies⟩
  · have hstale : t.isStale t.openKeys k = false := by
      rw [isStale, hidle.2, Bool.false_and]
    rw [treatment_of_ne_summary h.hasOwnIds hk hidle.1]
    exact staleRequests_of_isStale_eq_false hstale
  · have hcurrent : ¬t.isCurrent k = true := by
      intro hc
      have hlive := mem_live.mp (mem_live_of_current? ((isCurrent_iff h.hasOwnIds hk).mp hc))
      rw [flagged_eq hflag] at hlive
      exact Bool.noConfusion hlive.2.2
    have hretirement : t.retirement k = [] := by
      rw [retirement, hreplies, flagged_eq hflag]
      rfl
    rw [treatment, if_neg hcurrent, hretirement, staleRequests_of_summary hkind, ite_self]

theorem treated_of_nil (note : Value) (ht : s.treatment c = []) :
    s.treated note c = some c.discussion := by
  rw [treated, ht]
  rfl

theorem firstNoteId_eq (c : Classified) :
    firstNoteId c = c.discussion.noteIds.head?.getD .null := by
  rw [firstNoteId, Discussion.noteIds, List.head?_map]

/-- How a treated discussion looks does not depend on how its new note is called. -/
theorem outline_treated (hp : p.IsNumbered) {m n : Nat} (hm : p.written ≤ m) (hn : p.written ≤ n)
    (c : Classified) :
    (s.treated (noteId m) c).map p.outline = (s.treated (noteId n) c).map p.outline := by
  rcases s.treatment_cases c with ⟨hcurrent, -⟩ | ht | ⟨r, ht⟩
  · rw [treated_of_isCurrent _ hcurrent, treated_of_isCurrent _ hcurrent]
  · rw [treated, treated, ht]
    rfl
  · rw [treated, treated, ht, Discussion.changes_singleton, Discussion.changes_singleton]
    cases r with
    | addNote _ _ _ text =>
      exact congrArg some (Platform.outline_addNote hp hm hn c.discussion s.username text)
    | _ => rfl

/-- A summary that holds the new text is edited and resolved to no further effect. -/
theorem treated_of_holdsNewText {t : Snapshot} (note : Value)
    (hbody : t.summaryBody = s.summaryBody) (hpassed : t.analysis.passed = s.analysis.passed)
    (hcurrent : s.isCurrent c = true) (hagain : t.isCurrent k = true)
    (hd : s.HoldsNewText c k.discussion) :
    t.treated note k = s.treated note c := by
  rw [treated_of_isCurrent _ hcurrent, treated_of_isCurrent _ hagain, hbody, hpassed]
  have hfirst : firstNoteId k = firstNoteId c := by
    rw [firstNoteId_eq, firstNoteId_eq]
    rcases hd with hd | ⟨-, hd⟩
    · rw [hd, Discussion.noteIds_editNote]
    · rw [hd, Discussion.noteIds_resolve, Discussion.noteIds_editNote]
  dsimp only
  rw [hfirst]
  rcases hd with hd | ⟨htrue, hd⟩
  · rw [hd, Discussion.editNote_editNote]
  · rw [hd, Discussion.editNote_resolve, Discussion.editNote_editNote, htrue, if_pos rfl,
      if_pos rfl, Discussion.resolve_resolve]

namespace Halfway

variable {done : List Issue} {threads sums : List Discussion}

theorem isNone_current?_again (h : s.Halfway p rs done threads []) :
    (s.again (p.after rs)).current?.isNone = s.current?.isNone := by
  rw [← Option.isNone_map (f := fun k : Classified => k.discussion.id), h.current?_again,
    Option.isNone_map]

theorem isCurrent_again (h : s.Halfway p rs done threads []) (hc : c ∈ s.discussions)
    (hk : s.successor p rs c = some k) : (s.again (p.after rs)).isCurrent k = s.isCurrent c := by
  rw [isCurrent_eq, isCurrent_eq, h.current?_again,
    Platform.id_of_carried (h.next_of_successor hc hk).1]

theorem treatment_again (h : s.Halfway p rs done threads []) (hc : c ∈ s.discussions)
    (hk : s.successor p rs c = some c) : (s.again (p.after rs)).treatment c = s.treatment c := by
  have hcurrent := h.isCurrent_again hc hk
  have hretired : (s.again (p.after rs)).isRetired c = s.isRetired c := by
    rw [isRetired, h.isNone_current?_again]
    rfl
  rw [treatment, treatment, hcurrent, hretired]
  rfl

/-- A thread that was left alone is treated as before, even if there is a new summary. -/
theorem treatment_again_of_ne_summary (h : s.Halfway p rs done threads sums)
    (hc : c ∈ s.discussions) (hmem : c ∈ (s.again (p.after rs)).discussions)
    (hkind : c.kind ≠ .summary) : (s.again (p.after rs)).treatment c = s.treatment c := by
  rw [treatment_of_ne_summary h.sound.hasOwnIds hc hkind,
    treatment_of_ne_summary h.sees.hasOwnIds hmem hkind]
  rfl

/-- The next run leads an old discussion to where the broken run would have led it. -/
theorem outline_old (h : s.Halfway p rs done threads sums) (hc : c ∈ s.discussions)
    (hk : s.successor p rs c = some k) {m n : Nat} (hm : p.written ≤ m) (hn : p.written ≤ n) :
    ((s.again (p.after rs)).treated (noteId m) k).map p.outline =
      (s.treated (noteId n) c).map p.outline := by
  have hmem := h.sound.mem_again_of_successor hc hk
  -- What is treated in full is left alone by the next run.
  have hsettled : ∀ l, p.written ≤ l → s.treated (noteId l) c = some k.discussion →
      s.IsSettled k → ((s.again (p.after rs)).treated (noteId m) k).map p.outline =
        (s.treated (noteId n) c).map p.outline := by
    intro l hl htreated hstate
    rw [treated_of_nil _ (treatment_of_isSettled h.sees hmem hstate), ← htreated]
    exact outline_treated h.sound.numbered hl hn c
  -- What is classified and treated as before ends as before.
  have hsame : k = c → (s.again (p.after rs)).treatment c = s.treatment c →
      ((s.again (p.after rs)).treated (noteId m) k).map p.outline =
        (s.treated (noteId n) c).map p.outline := by
    rintro rfl ht
    rw [treated, ht]
    exact outline_treated (s := s) h.sound.numbered hm hn k
  rcases h.summary with rfl | ⟨hnone, -, d, resolved, hd, -, rfl⟩
  · cases (h.next_of_successor hc hk).2 with
    | same => exact hsame rfl (h.treatment_again hc hk)
    | current hcurrent _ _ htext =>
      have hagain := (h.isCurrent_again hc hk).trans hcurrent
      rw [treated_of_holdsNewText (s := s) (t := s.again (p.after rs)) _ rfl rfl hcurrent hagain
        htext]
      exact outline_treated h.sound.numbered hm hn c
    | idle _ hidle hl htreated => exact hsettled _ hl htreated (Or.inl hidle)
    | flagged _ hkind hflag hreplies hl htreated =>
      exact hsettled _ hl htreated (Or.inr ⟨hkind, hflag, hreplies⟩)
  · by_cases hkind : c.kind = .summary
    · obtain ⟨⟨l, hl, htreated⟩, hstate⟩ := h.next_of_summary hc hkind hk
      exact hsettled l hl htreated hstate
    · cases (h.next_of_successor hc hk).2 with
      | same => exact hsame rfl (h.treatment_again_of_ne_summary hc hmem hkind)
      | current hcurrent =>
        exact absurd (kind_of_isCurrent h.sound.hasOwnIds hc hcurrent) hkind
      | idle _ hidle hl htreated => exact hsettled _ hl htreated (Or.inl hidle)
      | flagged _ hkind hflag hreplies hl htreated =>
        exact hsettled _ hl htreated (Or.inr ⟨hkind, hflag, hreplies⟩)

end Halfway
end Snapshot
end MergeDecoration
