import MergeDecoration.Proofs.Decoration.Sight
import MergeDecoration.Proofs.Discussion.Change

/-!
Whose a discussion is. What leads to one project alone is left alone by the runs on all others, and
what a run makes of it still leads to that project alone.
-/
namespace MergeDecoration

namespace Identity

variable {body project : String}

/-- Among projects the text concerns at most the given one: it is the summary of no other, and the
note of no issue of another. -/
structure IsOf (body project : String) : Prop where
  summary : ∀ other, other ≠ project → isSummary body (some other) = .ok false
  issue : ∃ found, issue? body = .ok found ∧ ∀ i, found = some i → i.project = some project

theorem isOf_empty (project : String) : IsOf "" project := by
  constructor
  · intro other _
    rw [isSummary, String.toList_empty, ViewLink.targets_nil, anyDashboard]
  · rw [issue?, String.toList_empty, ViewLink.targets_nil, firstIssue]
    refine ⟨none, rfl, fun i hi => ?_⟩
    cases hi

/-- A text with a single link, which leads to one project, leads to no other. -/
theorem isOf_of_single {target : List Char} {address : Address}
    (htargets : ViewLink.targets body.toList = [target]) (hread : Address.read target = .ok address)
    (hid : (Query.lookup? address.query "id").map String.ofList = some project) :
    IsOf body project := by
  constructor
  · intro other hne
    have hwanted : (some other).all (· == project) = false := beq_eq_false_iff_ne.mpr hne
    simp only [isSummary, htargets, anyDashboard, linkedDashboard?, hread, bind, Except.bind,
      pure, Except.pure]
    split_ifs
    · rw [hid]
      simp only [hwanted, Bool.false_eq_true, if_false]
    · rfl
  · simp only [issue?, htargets, firstIssue, linkedIssue?, hread, hid, bind, Except.bind, pure,
      Except.pure]
    cases Query.lookup? address.query "issues" with
    | none =>
      refine ⟨none, rfl, fun i hi => ?_⟩
      cases hi
    | some issue =>
      refine ⟨_, rfl, fun i hi => ?_⟩
      rw [← Option.some.inj hi]

/-- A summary with one link leads to its project alone. -/
theorem isOf_of_isSummary (hone : (ViewLink.targets body.toList).length ≤ 1)
    (h : isSummary body (some project) = .ok true) : IsOf body project := by
  cases htargets : ViewLink.targets body.toList with
  | nil =>
    rw [isSummary, htargets, anyDashboard] at h
    cases h
  | cons target rest =>
    rw [htargets, List.length_cons] at hone
    obtain rfl : rest = [] := List.eq_nil_of_length_eq_zero (by omega)
    cases hread : Address.read target with
    | error e =>
      simp only [isSummary, htargets, anyDashboard, linkedDashboard?, hread, bind,
        Except.bind] at h
      cases h
    | ok address =>
      refine isOf_of_single htargets hread ?_
      simp only [isSummary, htargets, anyDashboard, linkedDashboard?, hread, bind, Except.bind,
        pure, Except.pure] at h
      split_ifs at h
      · cases hid : (Query.lookup? address.query "id").map String.ofList with
        | none =>
          rw [hid] at h
          cases h
        | some p =>
          rw [hid] at h
          dsimp only at h
          split_ifs at h with hp
          · rw [Option.all_some, beq_iff_eq] at hp
            rw [hp]
          · cases h
      · cases h

/-- The note of an issue with one link leads to its project alone. -/
theorem isOf_of_issue {i : IssueIdentity} (hone : (ViewLink.targets body.toList).length ≤ 1)
    (h : issue? body = .ok (some i)) (hproject : i.project = some project) : IsOf body project := by
  cases htargets : ViewLink.targets body.toList with
  | nil =>
    rw [issue?, htargets, firstIssue] at h
    cases h
  | cons target rest =>
    rw [htargets, List.length_cons] at hone
    obtain rfl : rest = [] := List.eq_nil_of_length_eq_zero (by omega)
    cases hread : Address.read target with
    | error e =>
      simp only [issue?, htargets, firstIssue, linkedIssue?, hread, bind, Except.bind] at h
      cases h
    | ok address =>
      refine isOf_of_single htargets hread ?_
      simp only [issue?, htargets, firstIssue, linkedIssue?, hread, bind, Except.bind, pure,
        Except.pure] at h
      cases hissue : Query.lookup? address.query "issues" with
      | none =>
        rw [hissue] at h
        cases h
      | some issue =>
        rw [hissue] at h
        rw [← hproject, ← Option.some.inj (Except.ok.inj h)]

end Identity

namespace Discussion

variable {d e : Discussion} {user : Value} {project : String}

/-- The first note, if it is the user's, has at most one link. -/
def HasOneLink (d : Discussion) (user : Value) : Prop :=
  ∀ first rest body, d.notes = first :: rest → first.isBy user = true →
    first.linkText = .ok body → (ViewLink.targets body.toList).length ≤ 1

/-- The discussion is the user's, of the given project at most, and all the user's later notes can be
read. -/
structure IsOf (d : Discussion) (user : Value) (project : String) : Prop where
  starts : ∃ first rest body, d.notes = first :: rest ∧ first.isBy user = true ∧
    first.linkText = .ok body ∧ Identity.IsOf body project
  legible : ∀ q, ∃ found, d.hasLaterNote user q = .ok found

/-- Notes that were all read, because none of them was what was looked for, can be read. -/
theorem legible_of_hasLaterNote {q : String → Bool} (h : d.hasLaterNote user q = .ok false)
    (q' : String → Bool) : ∃ found, d.hasLaterNote user q' = .ok found := by
  refine exists_hasLaterNote (fun n hn hby => ?_) q'
  obtain ⟨text, htext, -⟩ := of_hasLaterNote_eq_false h n hn hby
  exact ⟨text, htext⟩

theorem legible_of_hasNote {text : String} (h : d.hasNote user text = .ok false)
    (q : String → Bool) : ∃ found, d.hasLaterNote user q = .ok found := by
  rw [hasNote] at h
  exact legible_of_hasLaterNote h q

/-- A summary with one link is its project's. -/
theorem isOf_of_kind {c : Classified} (hone : d.HasOneLink user)
    (h : d.classify user (some project) = .ok c) (hkind : c.kind = .summary)
    (hlegible : ∀ q, ∃ found, d.hasLaterNote user q = .ok found) : d.IsOf user project := by
  obtain ⟨first, rest, body, hn, hby, hbody, hs⟩ := startsSummary_of_kind h hkind
  exact ⟨⟨first, rest, body, hn, hby, hbody,
    Identity.isOf_of_isSummary (hone first rest body hn hby hbody) hs⟩, hlegible⟩

/-- An open thread with one link is its project's. -/
theorem isOf_of_isLiveIssue {c : Classified} (hone : d.HasOneLink user)
    (h : d.classify user (some project) = .ok c) (hlive : c.isLiveIssue project = true) :
    d.IsOf user project := by
  obtain ⟨i, -, hproject, ⟨first, rest, body, hn, hby, -, hbody, -, hi⟩, hopen⟩ :=
    startsIssue_of_isLiveIssue h hlive
  refine ⟨⟨first, rest, body, hn, hby, hbody,
    Identity.isOf_of_issue (hone first rest body hn hby hbody) hi hproject⟩, ?_⟩
  rw [isClosed] at hopen
  split at hopen
  · cases hopen
  · exact legible_of_hasLaterNote hopen

namespace IsOf

variable {other : String}

/-- A run on another project leaves the discussion alone. -/
theorem isIdle (h : d.IsOf user project) (hne : other ≠ project) : d.isIdle user other = true := by
  obtain ⟨⟨first, rest, body, hn, hby, hbody, hof⟩, hlegible⟩ := h
  obtain ⟨found, hfound, hproject⟩ := hof.issue
  obtain ⟨closed, hclosed⟩ : ∃ closed, d.isClosed user = .ok closed := by
    rw [isClosed]
    split
    · exact ⟨true, rfl⟩
    · exact hlegible _
  have hforeign : (found.map (·.project) == some (some other)) = false := by
    rw [beq_eq_false_iff_ne]
    cases found with
    | none => exact (Option.some_ne_none _).symm
    | some i =>
      rw [Option.map_some, hproject i rfl]
      exact fun h => hne (Option.some.inj (Option.some.inj h)).symm
  have hidle : ∀ kind, kind ≠ .summary →
      (⟨d, kind, found, closed⟩ : Classified).isIdle other = true := by
    intro kind hkind
    rw [Classified.isIdle_iff]
    refine ⟨hkind, ?_⟩
    rw [Classified.isLiveIssue, hforeign, Bool.and_false]
  unfold Discussion.isIdle classify
  simp only [hn, hby, hbody, hof.summary other hne, hfound, hclosed, bind, Except.bind,
    Except.mapError, Bool.not_true, Bool.false_eq_true, if_false]
  cases first.resolvable with
  | false => rfl
  | true =>
    apply hidle
    split_ifs <;> decide

theorem congr (h : d.IsOf user project) (hface : e.face = d.face)
    (hlegible : ∀ q, ∃ found, e.hasLaterNote user q = .ok found) : e.IsOf user project := by
  obtain ⟨⟨first, rest, body, hn, hby, hbody, hof⟩, -⟩ := h
  obtain ⟨n, ns, hnotes, hauthor, htext, -⟩ := notes_of_face hface hn
  refine ⟨⟨n, ns, body, hnotes, ?_, ?_, hof⟩, hlegible⟩
  · rwa [Note.isBy, hauthor]
  · rwa [Note.linkText, htext]

/-- A reply leaves the discussion its project's. -/
theorem addNote (h : d.IsOf user project) (hsame : user.same user = true) (note : Value)
    (text : String) : (d.addNote user note text).IsOf user project := by
  have hne : d.notes ≠ [] := by
    obtain ⟨first, rest, -, hn, -⟩ := h.starts
    rw [hn]
    exact List.cons_ne_nil _ _
  refine h.congr (face_addNote user note hne text) fun q => ?_
  obtain ⟨found, hfound⟩ := h.legible q
  exact ⟨_, hasLaterNote_addNote hne hsame hfound text⟩

theorem resolve (h : d.IsOf user project) : d.resolve.IsOf user project := by
  refine h.congr face_resolve fun q => ?_
  rw [hasLaterNote_resolve]
  exact h.legible q

/-- So does a new text of its project. -/
theorem editNote {first : Note} {rest : List Note} {next : Nat → Value} {count : Nat}
    {text : String} (h : d.IsOf user project) (hn : d.notes = first :: rest)
    (hids : Value.Numbered next count d.noteIds) (htext : Identity.IsOf text project) :
    (d.editNote first.id text).IsOf user project := by
  obtain ⟨⟨_, _, body, hstarts, hby, -⟩, hlegible⟩ := h
  obtain ⟨rfl, rfl⟩ := List.cons.inj (hn.symm.trans hstarts)
  constructor
  · rw [editNote_first hn hids]
    exact ⟨_, rest, text, rfl, hby, linkText_text rfl, htext⟩
  · intro q
    rw [hasLaterNote_editNote hn hids]
    exact hlegible q

end IsOf
end Discussion

/-- A discussion that is opened with a text of a project is the project's. -/
theorem Platform.IsNew.isOf {p : Platform} {body project : String} {resolved : Bool}
    {d : Discussion} (h : p.IsNew body resolved d) (hsame : p.username.same p.username = true)
    (hof : Identity.IsOf body project) : d.IsOf p.username project := by
  obtain ⟨k, m, -, -, rfl⟩ := h
  exact ⟨⟨_, [], body, rfl, hsame, Discussion.linkText_text rfl, hof⟩, fun _ => ⟨false, rfl⟩⟩

end MergeDecoration
