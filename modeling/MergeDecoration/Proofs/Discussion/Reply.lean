import MergeDecoration.Proofs.Discussion.Change

/-!
A reply below a discussion. It makes a thread one with replies, and that is all that it does to what
the discussion is to the program.
-/
namespace MergeDecoration

/-- The discussion with one more note. -/
def Discussion.append (d : Discussion) (n : Note) : Discussion := { d with notes := d.notes ++ [n] }

/-- What a discussion is once somebody has replied. -/
def DiscussionKind.answered : DiscussionKind → DiscussionKind
  | singleIdentified | singleUnidentified => mixed
  | kind => kind

def Classified.answered (c : Classified) (n : Note) : Classified :=
  { c with discussion := c.discussion.append n, kind := c.kind.answered }

namespace Discussion

variable {d : Discussion} {n : Note} {user : Value} {project : Option String}

theorem notes_append {first : Note} {rest : List Note} (hn : d.notes = first :: rest) :
    (d.append n).notes = first :: (rest ++ [n]) := by
  rw [append, hn]
  rfl

theorem replies_append (hn : d.notes ≠ []) (hsystem : n.system = false) :
    (d.append n).replies = d.replies ++ [n] := by
  obtain ⟨first, rest, hn⟩ := List.exists_cons_of_ne_nil hn
  rw [replies, replies, notes_append hn, hn, List.tail_cons, List.tail_cons, List.filter_append]
  congr 1
  exact List.filter_cons_of_pos (by rw [hsystem]; rfl)

theorem isEmpty_replies_append (hn : d.notes ≠ []) (hsystem : n.system = false) :
    (d.append n).replies.isEmpty = false := by
  rw [replies_append hn hsystem]
  exact List.isEmpty_eq_false_iff.mpr (List.append_ne_nil_of_right_ne_nil _ nofun)

theorem resolved_append (hn : d.notes ≠ []) : (d.append n).resolved = d.resolved := by
  obtain ⟨first, rest, hn⟩ := List.exists_cons_of_ne_nil hn
  rw [resolved, resolved, notes_append hn, hn]

/-- Nothing is looked for in the notes of others. -/
theorem hasLaterNote_append (hby : n.isBy user = false) (q : String → Bool) :
    (d.append n).hasLaterNote user q = d.hasLaterNote user q := by
  cases hn : d.notes with
  | nil =>
    rw [hasLaterNote, hasLaterNote, append, hn]
    rfl
  | cons first rest =>
    rw [hasLaterNote, hasLaterNote, notes_append hn, hn, List.tail_cons, List.tail_cons,
      anyM_append, List.anyM_cons, hby]
    cases rest.anyM fun n => do
        if n.isBy user then return q (Text.trim (← n.body.textOperand)) else return false with
    | error e => rfl
    | ok found => cases found <;> rfl

theorem isClosed_append (hn : d.notes ≠ []) (hby : n.isBy user = false) :
    (d.append n).isClosed user = d.isClosed user := by
  rw [isClosed, isClosed, resolved_append hn, hasLaterNote_append hby]

/-- With a reply, a discussion is classified as before, except that it has replies. -/
theorem classify_append (hby : n.isBy user = false) (hsystem : n.system = false) :
    (d.append n).classify user project = (·.answered n) <$> d.classify user project := by
  cases hn : d.notes with
  | nil =>
    have hnotes : (d.append n).notes = [n] := by rw [append, hn]; rfl
    rw [classify, classify, hnotes, hn]
    simp only [hby, Bool.not_false, if_true]
    rfl
  | cons first rest =>
    have hne : d.notes ≠ [] := hn ▸ List.cons_ne_nil first rest
    rw [classify, classify, notes_append hn, hn]
    simp only [resolved_append hne, isClosed_append hne hby,
      isEmpty_replies_append hne hsystem]
    generalize d.isClosed user = closed?
    cases first.isBy user with
    | false => rfl
    | true =>
      cases first.linkText with
      | error e => rfl
      | ok body =>
        dsimp only [Bind.bind, Except.bind]
        cases (Identity.isSummary body project).mapError Fault.invalid with
        | error e => rfl
        | ok summary =>
          cases summary with
          | true => rfl
          | false =>
            cases first.resolvable with
            | false => rfl
            | true =>
              cases (Identity.issue? body).mapError Fault.invalid with
              | error e => rfl
              | ok identity =>
                cases closed? with
                | error e => rfl
                | ok closed =>
                  -- A thread was one with replies, or is one now.
                  cases d.replies.isEmpty with
                  | true => cases identity <;> rfl
                  | false => rfl

end Discussion
end MergeDecoration
