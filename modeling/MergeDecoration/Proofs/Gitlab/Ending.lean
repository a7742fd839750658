import MergeDecoration.Proofs.Gitlab.Payload
import MergeDecoration.Proofs.Gitlab.Request

/-!
How a request to GitLab can end. Most of what can go wrong is told as a transport fault. What is not
is a field looked up in a value that has none, a page that cannot be run over, a body nested too
deep, and a number too long for a path.
-/
namespace MergeDecoration

/-- Requests that are answered with a JSON value. -/
def Request.readsJson : Request → Bool
  | .mergeRequest .. | .currentUser | .commits .. | .discussions .. | .createDiscussion .. => true
  | _ => false

/-- Requests that are answered in pages. -/
def Request.isPaged : Request → Bool
  | .commits .. | .discussions .. => true
  | _ => false

namespace Gitlab

variable {α : Type} {v : Value} {f : Fault} {thing : String}

/-- A response that was received has a body that is nested too deep. -/
def HeardNested (heard : List Web.Reply) : Prop :=
  ∃ a, .response a ∈ heard ∧ a.json = .error .tooDeep

/-- A response that was received has this value. -/
def HeardValue (heard : List Web.Reply) (v : Value) : Prop :=
  ∃ a, .response a ∈ heard ∧ a.json = .ok v

/-- A response that was received has this value among those that it runs over. -/
def HeardItem (heard : List Web.Reply) (v : Value) : Prop :=
  ∃ page ws, HeardValue heard page ∧ page.items = .ok ws ∧ v ∈ ws

/-- What reading the pages of a listing can end with besides a transport fault. -/
def IsPageFault (heard : List Web.Reply) (f : Fault) : Prop :=
  (f = .tooDeep ∧ HeardNested heard) ∨ ∃ page, HeardValue heard page ∧ page.items = .error f

section

variable {heard more : List Web.Reply}

theorem HeardNested.mono (h : HeardNested heard) (hsub : heard ⊆ more) : HeardNested more := by
  obtain ⟨a, ha, hjson⟩ := h
  exact ⟨a, hsub ha, hjson⟩

theorem HeardValue.mono (h : HeardValue heard v) (hsub : heard ⊆ more) : HeardValue more v := by
  obtain ⟨a, ha, hjson⟩ := h
  exact ⟨a, hsub ha, hjson⟩

theorem HeardItem.mono (h : HeardItem heard v) (hsub : heard ⊆ more) : HeardItem more v := by
  obtain ⟨page, ws, hpage, hitems, hv⟩ := h
  exact ⟨page, ws, hpage.mono hsub, hitems, hv⟩

theorem IsPageFault.mono (h : IsPageFault heard f) (hsub : heard ⊆ more) : IsPageFault more f := by
  rcases h with ⟨rfl, hdeep⟩ | ⟨page, hpage, hitems⟩
  · exact Or.inl ⟨rfl, hdeep.mono hsub⟩
  · exact Or.inr ⟨page, hpage.mono hsub, hitems⟩

end

namespace Client

variable {c : Client} {method path page : String} {params data : Fields} {fuel : Nat}
  {s s' : Web.Session} {a : Web.Response} {items : List Value}

theorem bodyOf_eq_ok (h : (bodyOf method path a).over s = (.ok v, s')) :
    a.json = .ok v ∧ s' = s := by
  obtain ⟨hjson, rfl⟩ := Prod.mk.inj ((bodyOf_over ..).symm.trans h)
  exact ⟨mapError_eq_ok.mp hjson, rfl⟩

theorem bodyOf_eq_error (h : (bodyOf method path a).over s = (.error f, s')) :
    ((∃ m, f = .transport m) ∨ f = .tooDeep ∧ a.json = .error .tooDeep) ∧ s' = s := by
  obtain ⟨hjson, rfl⟩ := Prod.mk.inj ((bodyOf_over ..).symm.trans h)
  obtain ⟨cause, hcause, rfl⟩ := mapError_eq_error.mp hjson
  rcases noBody_cases method path cause with ⟨rfl, hdeep⟩ | htransport
  · exact ⟨Or.inr ⟨hdeep, hcause⟩, rfl⟩
  · exact ⟨Or.inl htransport, rfl⟩

theorem sendJson_eq_ok (h : (c.sendJson method path data).over s = (.ok v, s')) :
    ∃ heard, s.Hears heard s' ∧ HeardValue heard v := by
  obtain ⟨a, t, hsend, hbody⟩ := Exchange.over_bind_eq_ok.mp h
  obtain ⟨hjson, rfl⟩ := bodyOf_eq_ok hbody
  exact ⟨[.response a], (send_eq_ok hsend).1, a, by simp, hjson⟩

theorem sendJson_eq_error (h : (c.sendJson method path data).over s = (.error f, s')) :
    (∃ m, f = .transport m) ∨ ∃ heard, s.Hears heard s' ∧ f = .tooDeep ∧ HeardNested heard := by
  rcases Exchange.over_bind_eq_error.mp h with hsend | ⟨a, t, hsend, hbody⟩
  · exact Or.inl (send_eq_error hsend)
  · obtain ⟨htransport | ⟨rfl, hjson⟩, rfl⟩ := bodyOf_eq_error hbody
    · exact Or.inl htransport
    · exact Or.inr ⟨[.response a], (send_eq_ok hsend).1, rfl, a, by simp, hjson⟩

theorem readPage_eq_ok {next : String}
    (h : (c.readPage path page).over s = (.ok (items, next), s')) :
    ∃ heard, s.Hears heard s' ∧ ∀ v ∈ items, HeardItem heard v := by
  obtain ⟨a, t, hsend, hrest⟩ := Exchange.over_bind_eq_ok.mp h
  obtain ⟨v, t', hbody, hread⟩ := Exchange.over_bind_eq_ok.mp hrest
  obtain ⟨hjson, rfl⟩ := bodyOf_eq_ok hbody
  obtain ⟨ws, t, hlift, hpure⟩ := Exchange.over_bind_eq_ok.mp hread
  cases hpure
  obtain ⟨hitems, rfl⟩ := Exchange.over_lift_eq.mp hlift
  exact ⟨[.response a], (send_eq_ok hsend).1, fun w hw =>
    ⟨v, items, ⟨a, by simp, hjson⟩, hitems, hw⟩⟩

theorem readPage_eq_error (h : (c.readPage path page).over s = (.error f, s')) :
    (∃ m, f = .transport m) ∨ ∃ heard, s.Hears heard s' ∧ IsPageFault heard f := by
  rcases Exchange.over_bind_eq_error.mp h with hsend | ⟨a, t, hsend, hrest⟩
  · exact Or.inl (send_eq_error hsend)
  obtain ⟨hhears, -⟩ := send_eq_ok hsend
  rcases Exchange.over_bind_eq_error.mp hrest with hbody | ⟨v, t', hbody, hread⟩
  · obtain ⟨htransport | ⟨rfl, hjson⟩, rfl⟩ := bodyOf_eq_error hbody
    · exact Or.inl htransport
    · exact Or.inr ⟨_, hhears, Or.inl ⟨rfl, a, by simp, hjson⟩⟩
  obtain ⟨hjson, rfl⟩ := bodyOf_eq_ok hbody
  rcases Exchange.over_bind_eq_error.mp hread with hlift | ⟨ws, t, -, hpure⟩
  · obtain ⟨hitems, rfl⟩ := Exchange.over_lift_eq.mp hlift
    exact Or.inr ⟨_, hhears, Or.inr ⟨v, ⟨a, by simp, hjson⟩, hitems⟩⟩
  · cases hpure

theorem readPages_eq_ok (h : (c.readPages path fuel page).over s = (.ok items, s')) :
    ∃ heard, s.Hears heard s' ∧ ∀ v ∈ items, HeardItem heard v := by
  induction fuel generalizing page s items with
  | zero =>
    cases h
    exact ⟨[], Web.Session.hears_nil _, by simp⟩
  | succ fuel ih =>
    obtain ⟨⟨first, next⟩, t, hpage, h⟩ := Exchange.over_bind_eq_ok.mp h
    obtain ⟨heard, hheard, hfirst⟩ := readPage_eq_ok hpage
    by_cases hnext : next = ""
    · simp only [hnext, if_true] at h
      cases h
      exact ⟨heard, hheard, hfirst⟩
    · simp only [hnext, if_false] at h
      obtain ⟨more, t', hmore, hpure⟩ := Exchange.over_bind_eq_ok.mp h
      cases hpure
      obtain ⟨later, hlater, hitems⟩ := ih hmore
      refine ⟨heard ++ later, hheard.append hlater, fun v hv => ?_⟩
      rcases List.mem_append.mp hv with hv | hv
      · exact (hfirst v hv).mono (List.subset_append_left ..)
      · exact (hitems v hv).mono (List.subset_append_right ..)

/-- The pages before the one that fails play no part in the fault. -/
theorem readPages_eq_error (h : (c.readPages path fuel page).over s = (.error f, s')) :
    (∃ m, f = .transport m) ∨ ∃ heard, s.Hears heard s' ∧ IsPageFault heard f := by
  induction fuel generalizing page s with
  | zero => cases h
  | succ fuel ih =>
    rcases Exchange.over_bind_eq_error.mp h with hpage | ⟨⟨first, next⟩, t, hpage, h⟩
    · exact readPage_eq_error hpage
    obtain ⟨heard, hheard, -⟩ := readPage_eq_ok hpage
    by_cases hnext : next = ""
    · simp only [hnext, if_true] at h
      cases h
    · simp only [hnext, if_false] at h
      rcases Exchange.over_bind_eq_error.mp h with hmore | ⟨more, t', -, hpure⟩
      · refine (ih hmore).imp_right ?_
        rintro ⟨later, hlater, hfault⟩
        exact ⟨heard ++ later, hheard.append hlater, hfault.mono (List.subset_append_right ..)⟩
      · cases hpure

/-- A request that reads one value ends as the reading does. -/
theorem sendJson_read_eq_error {read : Value → Except Fault α}
    (h : (do read (← c.sendJson method path data) : Exchange α).over s = (.error f, s')) :
    (∃ m, f = .transport m) ∨ ∃ heard, s.Hears heard s' ∧
      (f = .tooDeep ∧ HeardNested heard ∨ ∃ v, HeardValue heard v ∧ read v = .error f) := by
  rcases Exchange.over_bind_eq_error.mp h with hsend | ⟨v, t, hsend, hlift⟩
  · refine (sendJson_eq_error hsend).imp_right ?_
    rintro ⟨heard, hheard, hdeep⟩
    exact ⟨heard, hheard, Or.inl hdeep⟩
  · obtain ⟨heard, hheard, hv⟩ := sendJson_eq_ok hsend
    obtain ⟨hread, rfl⟩ := Exchange.over_lift_eq.mp hlift
    exact Or.inr ⟨heard, hheard, Or.inr ⟨v, hv, hread⟩⟩

theorem sendJson_refuse_eq_error {read : Value → Except Fault α} {thing : String}
    (h : (do refusePayload thing (read (← c.sendJson method path data)) : Exchange α).over s =
      (.error f, s')) :
    (∃ m, f = .transport m) ∨ ∃ heard, s.Hears heard s' ∧
      (f = .tooDeep ∧ HeardNested heard ∨
        ∃ v, HeardValue heard v ∧ read v = .error f ∧ ¬IsRefusal f) := by
  rcases sendJson_read_eq_error h with htransport | ⟨heard, hheard, hdeep | ⟨v, hv, hread⟩⟩
  · exact Or.inl htransport
  · exact Or.inr ⟨heard, hheard, Or.inl hdeep⟩
  · refine (refusePayload_eq_error hread).imp_right ?_
    rintro ⟨hread, hrefusal⟩
    exact ⟨heard, hheard, Or.inr ⟨v, hv, hread, hrefusal⟩⟩

/-- A request that lists something ends as the listing does, or with the reading of an item. -/
theorem paginate_read_eq_error {read : Value → Except Fault α} {thing : String}
    (h : (do refusePayload thing ((← c.paginate path).mapM read) : Exchange (List α)).over s =
      (.error f, s')) :
    (∃ m, f = .transport m) ∨ ∃ heard, s.Hears heard s' ∧
      (IsPageFault heard f ∨ ∃ v, HeardItem heard v ∧ read v = .error f ∧ ¬IsRefusal f) := by
  rcases Exchange.over_bind_eq_error.mp h with hpages | ⟨items, t, hpages, hlift⟩
  · refine (readPages_eq_error hpages).imp_right ?_
    rintro ⟨heard, hheard, hfault⟩
    exact ⟨heard, hheard, Or.inl hfault⟩
  · obtain ⟨heard, hheard, hitems⟩ := readPages_eq_ok hpages
    obtain ⟨hread, rfl⟩ := Exchange.over_lift_eq.mp hlift
    refine (refusePayload_eq_error hread).imp_right ?_
    rintro ⟨hread, hrefusal⟩
    obtain ⟨before, v, after, rfl, -, hv⟩ := mapM_eq_error.mp hread
    exact ⟨heard, hheard, Or.inr ⟨v, hitems v (by simp), hv, hrefusal⟩⟩

/-- What a request can end with besides a transport fault, and what it is due to: the number in its
path, or what was received. -/
inductive Escapes : Request → List Web.Reply → Fault → Prop
  | number {r : Request} (h : pathOf r = .error (.invalid .unwritable)) :
    Escapes r [] (.invalid .unwritable)
  | nested {r : Request} {heard : List Web.Reply} (hr : r.readsJson = true)
    (h : HeardNested heard) : Escapes r heard .tooDeep
  | page {r : Request} {heard : List Web.Reply} {v : Value} (hr : r.isPaged = true)
    (hv : HeardValue heard v) (h : v.items = .error (.misuse (.itemsOf v.kind))) :
    Escapes r heard (.misuse (.itemsOf v.kind))
  | mergeRequest {project : String} {iid v : Value} {heard : List Web.Reply}
    (hv : HeardValue heard v) (h : HasOddRevisions v) :
    Escapes (.mergeRequest project iid) heard .noOperation
  | currentUser {v : Value} {heard : List Web.Reply} (hv : HeardValue heard v) (h : IsOddUser v) :
    Escapes .currentUser heard .noOperation
  | discussions {project iid v : Value} {heard : List Web.Reply} (hv : HeardItem heard v)
    (h : HasOddNote v) : Escapes (.discussions project iid) heard .noOperation
  | createDiscussion {project iid v : Value} {note : NewNote} {heard : List Web.Reply}
    (hv : HeardValue heard v) (h : HasOddNote v) :
    Escapes (.createDiscussion project iid note) heard .noOperation

theorem Escapes.of_isPageFault {r : Request} {heard : List Web.Reply} (hr : r.isPaged = true)
    (h : IsPageFault heard f) : Escapes r heard f := by
  rcases h with ⟨rfl, hdeep⟩ | ⟨v, hv, hitems⟩
  · refine .nested ?_ hdeep
    cases r <;> trivial
  · obtain rfl := Value.items_eq_error hitems
    exact .page hr hv hitems

theorem askAt_eq_error {r : Request} (h : (c.askAt path r).over s = (.error f, s')) :
    (∃ m, f = .transport m) ∨ ∃ heard, s.Hears heard s' ∧ Escapes r heard f := by
  cases r with
  | mergeRequest project iid =>
    rcases sendJson_refuse_eq_error h with
      htransport | ⟨heard, hheard, ⟨rfl, hdeep⟩ | ⟨v, hv, hread, hrefusal⟩⟩
    · exact Or.inl htransport
    · exact Or.inr ⟨heard, hheard, .nested rfl hdeep⟩
    · obtain ⟨rfl, hodd⟩ := (readMergeRequest_eq_error hread).resolve_left hrefusal
      exact Or.inr ⟨heard, hheard, .mergeRequest hv hodd⟩
  | currentUser =>
    rcases sendJson_read_eq_error h with htransport | ⟨heard, hheard, ⟨rfl, hdeep⟩ | ⟨v, hv, hread⟩⟩
    · exact Or.inl htransport
    · exact Or.inr ⟨heard, hheard, .nested rfl hdeep⟩
    · obtain ⟨rfl, hodd⟩ := readUser_eq_error hread
      exact Or.inr ⟨heard, hheard, .currentUser hv hodd⟩
  | commits project iid =>
    rcases paginate_read_eq_error h with
      htransport | ⟨heard, hheard, hfault | ⟨v, -, hread, hrefusal⟩⟩
    · exact Or.inl htransport
    · exact Or.inr ⟨heard, hheard, .of_isPageFault rfl hfault⟩
    · exact absurd (isRefusal_of_require hread) hrefusal
  | discussions project iid =>
    rcases paginate_read_eq_error h with
      htransport | ⟨heard, hheard, hfault | ⟨v, hv, hread, hrefusal⟩⟩
    · exact Or.inl htransport
    · exact Or.inr ⟨heard, hheard, .of_isPageFault rfl hfault⟩
    · obtain ⟨rfl, hodd⟩ := (readDiscussion_eq_error hread).resolve_left hrefusal
      exact Or.inr ⟨heard, hheard, .discussions hv hodd⟩
  | createDiscussion project iid note =>
    rcases sendJson_refuse_eq_error h with
      htransport | ⟨heard, hheard, ⟨rfl, hdeep⟩ | ⟨v, hv, hread, hrefusal⟩⟩
    · exact Or.inl htransport
    · exact Or.inr ⟨heard, hheard, .nested rfl hdeep⟩
    · obtain ⟨rfl, hodd⟩ := (readDiscussion_eq_error hread).resolve_left hrefusal
      exact Or.inr ⟨heard, hheard, .createDiscussion hv hodd⟩
  | addNote | editNote | deleteNote | resolve | pushStatus =>
    exact Or.inl (discard_send_eq_error h)
  | close => cases h
  | changeset => cases h

/-- A request is answered, or it ends with a transport fault, unless a number in its path cannot be
written or what was received escapes the reading. -/
theorem ask_ends (c : Client) (r : Request) (s : Web.Session) :
    (∃ reply, ((c.ask r).over s).1 = .ok reply) ∨
      (∃ m, ((c.ask r).over s).1 = .error (.transport m)) ∨
      ∃ f heard, ((c.ask r).over s).1 = .error f ∧ s.Hears heard ((c.ask r).over s).2 ∧
        Escapes r heard f := by
  rcases hask : (c.ask r).over s with ⟨f | reply, s'⟩
  · right
    rcases Exchange.over_bind_eq_error.mp hask with hlift | ⟨path, t, hlift, hat⟩
    · obtain ⟨hpath, rfl⟩ := Exchange.over_lift_eq.mp hlift
      obtain rfl := pathOf_eq_error hpath
      exact Or.inr ⟨_, [], rfl, Web.Session.hears_nil _, .number hpath⟩
    · obtain ⟨-, rfl⟩ := Exchange.over_lift_eq.mp hlift
      rcases askAt_eq_error hat with ⟨m, rfl⟩ | ⟨heard, hheard, hescapes⟩
      · exact Or.inl ⟨m, rfl⟩
      · exact Or.inr ⟨f, heard, rfl, hheard, hescapes⟩
  · exact Or.inl ⟨reply, rfl⟩

/-- A list in the place of a merge request escapes the reading. -/
theorem ask_mergeRequest_of_list :
    ((sampleClient.ask (.mergeRequest "g/r" (.int 5))).over ⟨[.response { body := "[]" }], []⟩).1 =
      .error .noOperation := by
  have hiid : pathPart (.int 5) = .ok "5" := if_pos (by decide +kernel)
  have hpath : pathOf (.mergeRequest "g/r" (.int 5)) = .ok "/projects/g%2Fr/merge_requests/5" := by
    rw [pathOf, hiid]
    cbv
  have hjson : ({ body := "[]" } : Web.Response).json = .ok (.list []) := by cbv
  have haccepted : ({ body := "[]" } : Web.Response).IsAccepted := Or.inl (by decide)
  have hread : refusePayload "merge request" (readMergeRequest (.list [])) =
      .error .noOperation := rfl
  rw [ask_of_pathOf hpath, askAt,
    Exchange.over_bind_of_ok (sendJson_of_accepted rfl haccepted hjson ..), hread]
  rfl

end Client

end Gitlab

end MergeDecoration
