import MergeDecoration.Decoration
import MergeDecoration.Proofs.Platform.Numbering

/-!
What a run asks for the summary: older summaries are retired, and the text goes into the current
one or into a new discussion, which is resolved if the gate passed.
-/
namespace MergeDecoration

open Program

namespace Snapshot

variable {p : Platform} {rs : List Request}

/-- Whether a summary is known to be flagged as outdated. -/
def flagged (s : Snapshot) (c : Classified) : Bool := (s.isFlagged c).toOption.getD false

/-- Summaries that are not flagged. -/
def live (s : Snapshot) : List Classified := s.summaries.filter (!s.flagged ·)

/-- The summary that is edited; if there is none, one is created. -/
def current? (s : Snapshot) : Option Classified :=
  if (s.config.get "summary_note_edit").holds then s.live.getLast? else none

/-- Whether it can be read of each summary if it is flagged. -/
def HasFlags (s : Snapshot) : Prop := ∀ c ∈ s.summaries, ∃ b, s.isFlagged c = .ok b

/-- What is asked to retire a summary. -/
def retirement (s : Snapshot) (c : Classified) : List Request :=
  if c.discussion.replies.isEmpty then
    [.deleteNote s.mergeRequest.targetProject s.mergeRequest.iid c.discussion.id (firstNoteId c)]
  else if s.flagged c then []
  else [.addNote s.mergeRequest.targetProject s.mergeRequest.iid c.discussion.id
    outdatedSummaryNote]

def summaryBody (s : Snapshot) : String := s.analysis.summaryNote.toOption.getD ""

/-- The request that puts the summary into a discussion's first note. -/
def editing (s : Snapshot) (c : Classified) : Request :=
  .editNote s.mergeRequest.targetProject s.mergeRequest.iid c.discussion.id (firstNoteId c)
    s.summaryBody

/-- What is asked last of all for the summary: it is resolved if the gate passed. -/
def closing (s : Snapshot) (discussion : Value) : List Request :=
  if s.analysis.passed then
    [.resolve s.mergeRequest.targetProject s.mergeRequest.iid discussion]
  else []

/-- What is asked for the summary's text. -/
def summaryText (s : Snapshot) : List Request :=
  match s.current? with
  | some c => s.live.dropLast.flatMap s.retirement ++ [s.editing c]
  | none => s.summaries.flatMap s.retirement ++ [.createDiscussion s.mergeRequest.targetProject
      s.mergeRequest.iid (.general s.summaryBody)]

/-- The discussion that holds the summary in the end, if `opened` ones were opened before. -/
def summaryDiscussion (s : Snapshot) (opened : Nat) : Value :=
  match s.current? with
  | some c => c.discussion.id
  | none => Platform.discussionId opened

def summaryAction (s : Snapshot) : SummaryAction :=
  match s.current? with
  | some _ => .edited
  | none => .created

/-- What is asked for the summaries if `opened` discussions were opened before. -/
def summaryRequests (s : Snapshot) (opened : Nat) : List Request :=
  s.summaryText ++ s.closing (s.summaryDiscussion opened)

theorem flagged_eq {s : Snapshot} {c : Classified} {b : Bool} (h : s.isFlagged c = .ok b) :
    s.flagged c = b := by
  rw [flagged, h]
  rfl

theorem isFlagged_eq {s : Snapshot} {c : Classified} {b : Bool} (h : ∃ b, s.isFlagged c = .ok b)
    (hflag : s.flagged c = b) : s.isFlagged c = .ok b := by
  obtain ⟨found, hfound⟩ := h
  rw [hfound, ← flagged_eq hfound, hflag]

theorem firstNoteId_of_notes {c : Classified} {first : Note} {rest : List Note}
    (h : c.discussion.notes = first :: rest) : firstNoteId c = first.id := by
  rw [firstNoteId, h]
  rfl

theorem completes_retireSummary {s : Snapshot} {c : Classified} {u : Unit} :
    (s.retireSummary c).Completes p rs u ↔
      (c.discussion.replies.isEmpty = false → ∃ b, s.isFlagged c = .ok b) ∧
      rs = s.retirement c := by
  rw [retireSummary, retirement]
  by_cases hr : c.discussion.replies.isEmpty = true
  · simp only [hr, if_true, completes_debug_bind]
    rw [completes_step]
    simp
  · rw [Bool.not_eq_true] at hr
    simp only [hr, Bool.false_eq_true, if_false, completes_lift_bind, true_imp_iff]
    constructor
    · rintro ⟨b, hb, h⟩
      rw [flagged_eq hb]
      refine ⟨⟨b, hb⟩, ?_⟩
      cases b with
      | true => exact (completes_pure.mp h).1
      | false =>
        rw [if_neg Bool.false_ne_true, completes_debug_bind, completes_step] at h
        exact h.1
    · rintro ⟨⟨b, hb⟩, rfl⟩
      rw [flagged_eq hb]
      refine ⟨b, hb, ?_⟩
      cases b with
      | true => exact completes_pure.mpr ⟨rfl, rfl⟩
      | false =>
        rw [if_neg Bool.false_ne_true, completes_debug_bind, completes_step]
        exact ⟨rfl, rfl⟩

theorem completes_retireSummaries {s : Snapshot} {cs : List Classified} {u : Unit} :
    (s.retireSummaries cs).Completes p rs u ↔
      (∀ c ∈ cs, c.discussion.replies.isEmpty = false → ∃ b, s.isFlagged c = .ok b) ∧
      rs = cs.flatMap s.retirement := by
  induction cs generalizing p rs with
  | nil =>
    rw [retireSummaries, completes_pure]
    simp
  | cons c rest ih =>
    rw [retireSummaries, completes_bind, List.forall_mem_cons, List.flatMap_cons]
    constructor
    · rintro ⟨_, us, vs, rfl, hc, hrest⟩
      obtain ⟨hflag, rfl⟩ := completes_retireSummary.mp hc
      obtain ⟨hflags, rfl⟩ := ih.mp hrest
      exact ⟨⟨hflag, hflags⟩, rfl⟩
    · rintro ⟨⟨hflag, hflags⟩, rfl⟩
      exact ⟨(), _, _, rfl, completes_retireSummary.mpr ⟨hflag, rfl⟩, ih.mpr ⟨hflags, rfl⟩⟩

theorem completes_live {s : Snapshot} {cs found : List Classified} :
    (cs.filterM fun c => do return !(← (liftM (s.isFlagged c) : Program Bool))).Completes p rs
        found ↔
      (∀ c ∈ cs, ∃ b, s.isFlagged c = .ok b) ∧ rs = [] ∧ found = cs.filter (!s.flagged ·) := by
  rw [List.filterM]
  have haux : ∀ acc q ts found,
      (cs.filterAuxM (fun c => do return !(← (liftM (s.isFlagged c) : Program Bool))) acc).Completes
          q ts found ↔
        (∀ c ∈ cs, ∃ b, s.isFlagged c = .ok b) ∧ ts = [] ∧
        found = (cs.filter (!s.flagged ·)).reverse ++ acc := by
    induction cs with
    | nil =>
      intro acc q ts found
      rw [List.filterAuxM, completes_pure]
      simp
    | cons c rest ih =>
      intro acc q ts found
      rw [List.filterAuxM, completes_bind, List.forall_mem_cons]
      constructor
      · rintro ⟨b, us, vs, rfl, hc, hrest⟩
        obtain ⟨flag, hflag, rfl, rfl⟩ := completes_lift_bind.mp hc
        obtain ⟨hflags, rfl, rfl⟩ := (ih _ _ _ _).mp hrest
        refine ⟨⟨⟨flag, hflag⟩, hflags⟩, rfl, ?_⟩
        rw [List.filter_cons, flagged_eq hflag]
        cases flag <;> simp
      · rintro ⟨⟨⟨flag, hflag⟩, hflags⟩, rfl, rfl⟩
        refine ⟨!flag, [], [], rfl, completes_lift_bind.mpr ⟨flag, hflag, rfl, rfl⟩,
          (ih _ _ _ _).mpr ⟨hflags, rfl, ?_⟩⟩
        rw [List.filter_cons, flagged_eq hflag]
        cases flag <;> simp
  rw [completes_bind]
  constructor
  · rintro ⟨found, us, vs, rfl, h, rfl, rfl⟩
    obtain ⟨hflags, rfl, rfl⟩ := (haux _ _ _ _).mp h
    exact ⟨hflags, rfl, by simp⟩
  · rintro ⟨hflags, rfl, rfl⟩
    exact ⟨_, [], [], rfl, (haux _ _ _ _).mpr ⟨hflags, rfl, rfl⟩, rfl, by simp⟩

theorem opened_retirements {s : Snapshot} (cs : List Classified) :
    (p.after (cs.flatMap s.retirement)).opened = p.opened := by
  have hnone : (cs.flatMap s.retirement).countP (·.isOpening) = 0 := by
    rw [List.countP_eq_zero]
    intro r hr
    obtain ⟨c, -, hr⟩ := List.mem_flatMap.mp hr
    unfold retirement at hr
    split_ifs at hr
    · rw [List.mem_singleton.mp hr]
      exact Bool.false_ne_true
    · cases hr
    · rw [List.mem_singleton.mp hr]
      exact Bool.false_ne_true
  rw [Platform.opened_after, hnone, Nat.add_zero]

theorem completes_editSummary {s : Snapshot} {older : List Classified} {current : Classified}
    {body : String} {d : Value} :
    (s.editSummary older current body).Completes p rs d ↔
      (∀ c ∈ older, c.discussion.replies.isEmpty = false → ∃ b, s.isFlagged c = .ok b) ∧
      rs = older.flatMap s.retirement ++ [.editNote s.mergeRequest.targetProject
        s.mergeRequest.iid current.discussion.id (firstNoteId current) body] ∧
      d = current.discussion.id := by
  unfold editSummary
  rw [completes_bind]
  constructor
  · rintro ⟨_, us, vs, rfl, hretire, h⟩
    obtain ⟨hflags, rfl⟩ := completes_retireSummaries.mp hretire
    obtain ⟨_, rfl, rfl, rfl⟩ := h
    exact ⟨hflags, rfl, rfl⟩
  · rintro ⟨hflags, rfl, rfl⟩
    exact ⟨(), _, _, rfl, completes_retireSummaries.mpr ⟨hflags, rfl⟩, [], rfl, rfl, rfl⟩

theorem completes_createSummary {s : Snapshot} {body : String} {d : Value} :
    (s.createSummary body).Completes p rs d ↔
      (∀ c ∈ s.summaries, c.discussion.replies.isEmpty = false → ∃ b, s.isFlagged c = .ok b) ∧
      rs = s.summaries.flatMap s.retirement ++ [.createDiscussion s.mergeRequest.targetProject
        s.mergeRequest.iid (.general body)] ∧
      d = Platform.discussionId p.opened := by
  unfold createSummary
  rw [completes_bind]
  constructor
  · rintro ⟨_, us, vs, rfl, hretire, h⟩
    obtain ⟨hflags, rfl⟩ := completes_retireSummaries.mp hretire
    obtain ⟨_, rfl, rfl, rfl⟩ := h
    rw [← opened_retirements s.summaries]
    exact ⟨hflags, rfl, rfl⟩
  · rintro ⟨hflags, rfl, rfl⟩
    rw [← opened_retirements s.summaries]
    exact ⟨(), _, _, rfl, completes_retireSummaries.mpr ⟨hflags, rfl⟩, [], rfl, rfl, rfl⟩

theorem completes_writeSummary {s : Snapshot} {x : Value × SummaryAction} (hf : s.HasFlags) :
    (s.writeSummary s.live s.summaryBody).Completes p rs x ↔
      rs = s.summaryText ∧ x = (s.summaryDiscussion p.opened, s.summaryAction) := by
  have hretire : ∀ cs, cs ⊆ s.summaries →
      ∀ c ∈ cs, c.discussion.replies.isEmpty = false → ∃ b, s.isFlagged c = .ok b :=
    fun cs hcs c hc _ => hf c (hcs hc)
  unfold writeSummary summaryText summaryDiscussion summaryAction current?
  split
  · next current hl he =>
    rw [if_pos he, hl, completes_bind]
    constructor
    · rintro ⟨d, us, vs, rfl, hd, rfl, rfl⟩
      obtain ⟨-, rfl, rfl⟩ := completes_editSummary.mp hd
      exact ⟨List.append_nil _, rfl⟩
    · rintro ⟨rfl, rfl⟩
      have hsub : s.live.dropLast ⊆ s.summaries :=
        ((List.dropLast_sublist _).trans List.filter_sublist).subset
      exact ⟨_, _, [], (List.append_nil _).symm,
        completes_editSummary.mpr ⟨hretire _ hsub, rfl, rfl⟩, rfl, rfl⟩
  · next hnot =>
    have hnone : (if (s.config.get "summary_note_edit").holds = true then s.live.getLast?
        else none) = none := by
      split
      · next he =>
        rw [Option.eq_none_iff_forall_not_mem]
        exact fun c hc => hnot c hc he
      · rfl
    rw [hnone, completes_bind]
    constructor
    · rintro ⟨d, us, vs, rfl, hd, rfl, rfl⟩
      obtain ⟨-, rfl, rfl⟩ := completes_createSummary.mp hd
      exact ⟨List.append_nil _, rfl⟩
    · rintro ⟨rfl, rfl⟩
      exact ⟨_, _, [], (List.append_nil _).symm,
        completes_createSummary.mpr ⟨hretire _ (List.Subset.refl _), rfl, rfl⟩, rfl, rfl⟩

theorem completes_closeSummary {s : Snapshot} {d : Value} {u : Unit} :
    (s.closeSummary d).Completes p rs u ↔ rs = s.closing d := by
  unfold closeSummary closing
  split
  · rw [completes_step]
    simp
  · rw [completes_pure]
    simp

theorem completes_reconcileSummary {s : Snapshot} {a : SummaryAction} :
    s.reconcileSummary.Completes p rs a ↔
      (∃ body, s.analysis.summaryNote = .ok body) ∧ s.HasFlags ∧
      rs = s.summaryRequests p.opened ∧ a = s.summaryAction := by
  unfold reconcileSummary
  rw [completes_lift_bind]
  constructor
  · rintro ⟨body, hbody, h⟩
    obtain ⟨found, us, vs, rfl, hlive, h⟩ := completes_bind.mp h
    obtain ⟨hflags, rfl, rfl⟩ := completes_live.mp hlive
    obtain ⟨x, us, ts, rfl, hwrite, h⟩ := completes_bind.mp h
    obtain ⟨_, us', ts', rfl, hclose, rfl, rfl⟩ := completes_bind.mp h
    have hsummary : s.summaryBody = body := by
      rw [summaryBody, hbody]
      rfl
    rw [← hsummary] at hwrite
    obtain ⟨rfl, rfl⟩ := (completes_writeSummary hflags).mp hwrite
    rw [completes_closeSummary] at hclose
    subst hclose
    exact ⟨⟨body, hbody⟩, hflags, by rw [List.append_nil]; rfl, rfl⟩
  · rintro ⟨⟨body, hbody⟩, hflags, rfl, rfl⟩
    have hsummary : s.summaryBody = body := by
      rw [summaryBody, hbody]
      rfl
    refine ⟨body, hbody, completes_bind.mpr ⟨s.live, [], _, rfl,
      completes_live.mpr ⟨hflags, rfl, rfl⟩, completes_bind.mpr
        ⟨(s.summaryDiscussion p.opened, s.summaryAction), s.summaryText, _, rfl, ?_, ?_⟩⟩⟩
    · rw [← hsummary]
      exact (completes_writeSummary hflags).mpr ⟨rfl, rfl⟩
    · exact completes_bind.mpr ⟨(), _, [], (List.append_nil _).symm,
        completes_closeSummary.mpr rfl, rfl, rfl⟩

end Snapshot
end MergeDecoration
