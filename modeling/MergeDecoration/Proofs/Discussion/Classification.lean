import MergeDecoration.Decoration
import MergeDecoration.Proofs.Value.Reading

/-!
What a discussion is, told by its first note: a summary, or the thread of an issue. It cannot be told
if the note has a link whose address cannot be read.
-/
namespace MergeDecoration

namespace Identity

variable {e : Invalid} {targets : List (List Char)}

theorem exists_of_firstIssue_eq_error (h : firstIssue targets = .error e) :
    ∃ target ∈ targets, Address.read target = .error e := by
  induction targets with
  | nil => cases h
  | cons target rest ih =>
    rw [firstIssue] at h
    rcases bind_eq_error.mp h with hissue | ⟨found, -, hnext⟩
    · rcases bind_eq_error.mp hissue with hread | ⟨address, -, hnone⟩
      · exact ⟨target, List.mem_cons_self .., hread⟩
      · cases hnone
    · cases found with
      | some i => cases hnext
      | none =>
        obtain ⟨t, ht, hread⟩ := ih hnext
        exact ⟨t, List.mem_cons_of_mem _ ht, hread⟩

theorem exists_of_anyDashboard_eq_error {isWanted : String → Bool}
    (h : anyDashboard isWanted targets = .error e) :
    ∃ target ∈ targets, Address.read target = .error e := by
  induction targets with
  | nil => cases h
  | cons target rest ih =>
    have hrest (hrest : anyDashboard isWanted rest = .error e) :
        ∃ t ∈ target :: rest, Address.read t = .error e := by
      obtain ⟨t, ht, hread⟩ := ih hrest
      exact ⟨t, List.mem_cons_of_mem _ ht, hread⟩
    rw [anyDashboard] at h
    rcases bind_eq_error.mp h with hdashboard | ⟨found, -, hnext⟩
    · rcases bind_eq_error.mp hdashboard with hread | ⟨address, -, hnone⟩
      · exact ⟨target, List.mem_cons_self .., hread⟩
      · dsimp only at hnone
        split at hnone <;> cases hnone
    · cases found with
      | none => exact hrest hnext
      | some p =>
        dsimp only at hnext
        split at hnext
        · cases hnext
        · exact hrest hnext

end Identity

namespace Discussion

variable {d : Discussion} {user : Value} {project : Option String} {c : Classified}

/-- The first note is a summary by the machine user. -/
def StartsSummary (d : Discussion) (user : Value) (project : Option String) : Prop :=
  ∃ first rest body, d.notes = first :: rest ∧ first.isBy user = true ∧
    first.linkText = .ok body ∧ Identity.isSummary body project = .ok true

/-- The first note is the machine user's note of an issue. -/
def StartsIssue (d : Discussion) (user : Value) (project : Option String) (i : IssueIdentity) :
    Prop :=
  ∃ first rest body, d.notes = first :: rest ∧ first.isBy user = true ∧ first.resolvable = true ∧
    first.linkText = .ok body ∧ Identity.isSummary body project = .ok false ∧
    Identity.issue? body = .ok (some i)

theorem classify_of_startsSummary (h : d.StartsSummary user project) :
    d.classify user project = .ok ⟨d, .summary, none, d.resolved⟩ := by
  obtain ⟨first, rest, body, hn, hby, hbody, hs⟩ := h
  simp only [classify, hn, hby, hbody, hs, bind, Except.bind, Except.mapError, Bool.not_true,
    Bool.false_eq_true, if_false, if_true]
  rfl

theorem classify_of_startsIssue {i : IssueIdentity} {closed : Bool}
    (h : d.StartsIssue user project i) (hc : d.isClosed user = .ok closed) :
    d.classify user project =
      .ok ⟨d, if d.replies.isEmpty then .singleIdentified else .mixed, some i, closed⟩ := by
  obtain ⟨first, rest, body, hn, hby, hr, hbody, hs, hi⟩ := h
  simp only [classify, hn, hby, hr, hbody, hs, hi, hc, bind, Except.bind, Except.mapError,
    Bool.not_true, Bool.false_eq_true, if_false]
  cases d.replies.isEmpty <;> rfl

/-- A classified discussion is a summary, the thread of an issue, or neither. -/
theorem classify_cases (h : d.classify user project = .ok c) :
    (c = ⟨d, .summary, none, d.resolved⟩ ∧ d.StartsSummary user project) ∨
    (∃ i closed, c = ⟨d, if d.replies.isEmpty then .singleIdentified else .mixed, some i, closed⟩ ∧
      d.StartsIssue user project i ∧ d.isClosed user = .ok closed) ∨
    (c.discussion = d ∧ c.kind ≠ .summary ∧ c.identity = none) := by
  unfold classify at h
  split at h
  next =>
    rw [← Except.ok.inj h]
    exact Or.inr (Or.inr ⟨rfl, nofun, rfl⟩)
  next first rest hn =>
    split at h
    next =>
      rw [← Except.ok.inj h]
      exact Or.inr (Or.inr ⟨rfl, nofun, rfl⟩)
    next hby =>
      rw [Bool.not_eq_true', Bool.not_eq_false] at hby
      obtain ⟨body, hbody, h⟩ := bind_eq_ok.mp h
      obtain ⟨summary, hs, h⟩ := bind_eq_ok.mp h
      rw [mapError_eq_ok] at hs
      cases summary with
      | true =>
        rw [← Except.ok.inj h]
        exact Or.inl ⟨rfl, first, rest, body, hn, hby, hbody, hs⟩
      | false =>
        rw [if_neg Bool.false_ne_true] at h
        split at h
        next =>
          rw [← Except.ok.inj h]
          exact Or.inr (Or.inr ⟨rfl, nofun, rfl⟩)
        next hr =>
          rw [Bool.not_eq_true', Bool.not_eq_false] at hr
          obtain ⟨identity, hi, h⟩ := bind_eq_ok.mp h
          obtain ⟨closed, hc, h⟩ := bind_eq_ok.mp h
          rw [mapError_eq_ok] at hi
          rw [← Except.ok.inj h]
          cases identity with
          | none =>
            refine Or.inr (Or.inr ⟨rfl, ?_, rfl⟩)
            cases d.replies.isEmpty <;> nofun
          | some i =>
            refine Or.inr (Or.inl ⟨i, closed, ?_, ⟨first, rest, body, hn, hby, hr, hbody, hs, hi⟩,
              hc⟩)
            cases d.replies.isEmpty <;> rfl

theorem discussion_of_classify (h : d.classify user project = .ok c) : c.discussion = d := by
  rcases classify_cases h with ⟨rfl, -⟩ | ⟨i, closed, rfl, -, -⟩ | ⟨hd, -, -⟩
  · rfl
  · rfl
  · exact hd

theorem startsSummary_of_kind (h : d.classify user project = .ok c) (hk : c.kind = .summary) :
    d.StartsSummary user project := by
  rcases classify_cases h with ⟨-, hs⟩ | ⟨i, closed, rfl, -, -⟩ | ⟨-, hne, -⟩
  · exact hs
  · cases hempty : d.replies.isEmpty <;> simp [hempty] at hk
  · exact absurd hk hne

/-- A live issue discussion is an open thread of an issue of the project. -/
theorem startsIssue_of_isLiveIssue {key : String} (h : d.classify user project = .ok c)
    (hl : c.isLiveIssue key = true) :
    ∃ i, c = ⟨d, if d.replies.isEmpty then .singleIdentified else .mixed, some i, false⟩ ∧
      i.project = some key ∧ d.StartsIssue user project i ∧ d.isClosed user = .ok false := by
  unfold Classified.isLiveIssue at hl
  simp only [Bool.and_eq_true, Bool.not_eq_true', beq_iff_eq] at hl
  obtain ⟨⟨hkind, hopen⟩, hproject⟩ := hl
  rcases classify_cases h with ⟨rfl, -⟩ | ⟨i, closed, rfl, hi, hc⟩ | ⟨-, -, hnone⟩
  · simp at hproject
  · subst hopen
    exact ⟨i, rfl, by simpa using hproject, hi, hc⟩
  · rw [hnone] at hproject
    simp at hproject

theorem linkText_text {n : Note} {text : String} (h : n.body = .text text) :
    n.linkText = .ok text := by
  rw [Note.linkText, h, Value.orElse]
  by_cases ht : text = ""
  · rw [ht]
    rfl
  · rw [if_pos (by rw [Value.holds, bne_iff_ne]; exact ht)]
    rfl

/-- Whether the user wrote a later note can be told if all that the user wrote can be read. -/
theorem exists_hasLaterNote
    (h : ∀ n ∈ d.notes.tail, n.isBy user = true → ∃ text, n.body.textOperand = .ok text)
    (q : String → Bool) : ∃ found, d.hasLaterNote user q = .ok found := by
  unfold hasLaterNote
  generalize d.notes.tail = later at h
  induction later with
  | nil => exact ⟨false, rfl⟩
  | cons n ns ih =>
    obtain ⟨hn, hns⟩ := List.forall_mem_cons.mp h
    obtain ⟨found, hfound⟩ := ih hns
    rw [List.anyM_cons, hfound]
    split
    · next hby =>
      obtain ⟨text, htext⟩ := hn hby
      rw [htext]
      refine ⟨q (Text.trim text) || found, ?_⟩
      cases hq : q (Text.trim text) <;> simp [hq, bind, Except.bind, pure, Except.pure]
    · exact ⟨found, rfl⟩

theorem hasLaterNote_of_texts (h : ∀ n ∈ d.notes.tail, n.body.IsText) (user : Value)
    (q : String → Bool) : ∃ found, d.hasLaterNote user q = .ok found := by
  refine exists_hasLaterNote (fun n hn _ => ?_) q
  obtain ⟨text, hbody⟩ := h n hn
  rw [hbody]
  exact ⟨text, rfl⟩

/-- What was looked for in vain is none of the later notes of the user, and these can be read. -/
theorem of_hasLaterNote_eq_false {q : String → Bool} (h : d.hasLaterNote user q = .ok false) :
    ∀ n ∈ d.notes.tail, n.isBy user = true →
      ∃ text, n.body.textOperand = .ok text ∧ q (Text.trim text) = false := by
  unfold hasLaterNote at h
  generalize d.notes.tail = later at h
  induction later with
  | nil => simp
  | cons n ns ih =>
    rw [List.anyM_cons] at h
    obtain ⟨b, hb, hrest⟩ := bind_eq_ok.mp h
    cases b with
    | true => cases hrest
    | false =>
      refine List.forall_mem_cons.mpr ⟨fun hby => ?_, ih hrest⟩
      rw [if_pos hby] at hb
      obtain ⟨text, htext, hq⟩ := bind_eq_ok.mp hb
      exact ⟨text, htext, Except.ok.inj hq⟩

/-- The first note is the user's and has a link whose address cannot be read. -/
def HasBadLink (d : Discussion) (user : Value) (e : Invalid) : Prop :=
  ∃ first rest body, d.notes = first :: rest ∧ first.isBy user = true ∧ first.body = .text body ∧
    ∃ target ∈ ViewLink.targets body.toList, Address.read target = .error e

/-- A discussion of texts is classified, unless it has a bad link. -/
theorem hasBadLink_of_classify_eq_error {f : Fault} (htexts : ∀ n ∈ d.notes, n.body.IsText)
    (h : d.classify user project = .error f) : ∃ e, f = .invalid e ∧ d.HasBadLink user e := by
  unfold classify at h
  split at h
  next => cases h
  next first rest hn =>
    split at h
    next => cases h
    next hby =>
      rw [Bool.not_eq_true', Bool.not_eq_false] at hby
      obtain ⟨body, hbody⟩ := htexts first (by rw [hn]; exact List.mem_cons_self ..)
      have hbad : ∀ e, (∃ target ∈ ViewLink.targets body.toList, Address.read target = .error e) →
          d.HasBadLink user e := fun e he => ⟨first, rest, body, hn, hby, hbody, he⟩
      rcases bind_eq_error.mp h with hlink | ⟨text, hlink, hread⟩
      · rw [linkText_text hbody] at hlink
        cases hlink
      rw [linkText_text hbody] at hlink
      obtain rfl := Except.ok.inj hlink
      rcases bind_eq_error.mp hread with hsummary | ⟨summary, -, hrest⟩
      · obtain ⟨e, he, rfl⟩ := mapError_eq_error.mp hsummary
        exact ⟨e, rfl, hbad e (Identity.exists_of_anyDashboard_eq_error he)⟩
      split at hrest
      next => cases hrest
      next =>
        split at hrest
        next => cases hrest
        next =>
          rcases bind_eq_error.mp hrest with hissue | ⟨identity, -, hkind⟩
          · obtain ⟨e, he, rfl⟩ := mapError_eq_error.mp hissue
            exact ⟨e, rfl, hbad e (Identity.exists_of_firstIssue_eq_error he)⟩
          rcases bind_eq_error.mp hkind with hclosed | ⟨closed, -, hdone⟩
          · unfold isClosed at hclosed
            split at hclosed
            · cases hclosed
            · obtain ⟨found, hfound⟩ := hasLaterNote_of_texts
                (fun n hmem => htexts n (List.mem_of_mem_tail hmem)) user isAcknowledgement
              rw [hfound] at hclosed
              cases hclosed
          · cases hdone

end Discussion
end MergeDecoration
