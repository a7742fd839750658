import MergeDecoration.Proofs.Gitlab.Payload
import MergeDecoration.Proofs.Gitlab.Request
import MergeDecoration.Proofs.Json.Depth

/-!
Listings that come in pages. Each page names the one that follows it, and the listing is over with
a page that names none.
-/
namespace MergeDecoration

namespace Gitlab

/-- A response that is a page of a listing: a list of items. -/
structure IsPage (a : Web.Response) (items : List Value) : Prop where
  accepted : a.IsAccepted
  json : a.json = .ok (.list items)

/-- Pages that are each followed by another one, with their items in order. -/
inductive Leading : List Web.Response → List Value → Prop
  | nil : Leading [] []
  | cons {a : Web.Response} {items more : List Value} {pages : List Web.Response} :
    IsPage a items → Client.nextPage a ≠ "" → Leading pages more →
      Leading (a :: pages) (items ++ more)

namespace Client

variable {c : Client} {path page : String} {fuel : Nat} {s : Web.Session} {a : Web.Response}
  {items : List Value} {rest : List Web.Reply}

/-- What is sent for one page. -/
def pageRequest (c : Client) (path page : String) : Web.Sent :=
  .request (c.requestAt "GET" path (some [("per_page", .int perPage), ("page", .text page)]) none)

/-- A reply that ends a listing, and the fault that it ends with. -/
inductive Spoils (c : Client) (path : String) : Web.Reply → Fault → Prop
  | broken (message : String) :
    Spoils c path (.broken message) (.transport s!"GET {path} failed: {message}")
  | refused {a : Web.Response} {message : String} (h : a.refusal? (c.root ++ path) = some message) :
    Spoils c path (.response a) (.transport s!"GET {path} failed: {message}")
  | unreadable {a : Web.Response} {f : Fault} (haccepted : a.IsAccepted)
    (hjson : a.json = .error f) : Spoils c path (.response a) (noBody "GET" path f)

theorem Spoils.cases {x : Web.Reply} {f : Fault} (h : c.Spoils path x f) :
    (∃ m, f = .transport m) ∨ f = .tooDeep ∧ ∃ a, x = .response a ∧ a.json = .error .tooDeep := by
  cases h with
  | broken message => exact Or.inl ⟨_, rfl⟩
  | refused _ => exact Or.inl ⟨_, rfl⟩
  | @unreadable a f _ hjson =>
    rcases noBody_cases "GET" path f with ⟨rfl, hdeep⟩ | htransport
    · exact Or.inr ⟨hdeep, a, rfl, hjson⟩
    · exact Or.inl htransport

theorem readPage_of_page (hpending : s.pending = .response a :: rest) (h : IsPage a items) :
    (c.readPage path page).over s =
      (.ok (items, nextPage a), ⟨rest, s.sent ++ [c.pageRequest path page]⟩) := by
  refine (Exchange.over_bind_of_ok (send_of_accepted hpending h.accepted ..)).trans ?_
  have hbody := bodyOf_over "GET" path a ⟨rest, s.sent ++ [c.pageRequest path page]⟩
  rw [h.json] at hbody
  exact Exchange.over_bind_of_ok hbody

/-- The listing is over with a reply that spoils it. -/
theorem readPage_of_spoils {x : Web.Reply} {f : Fault} (hpending : s.pending = x :: rest)
    (h : c.Spoils path x f) :
    (c.readPage path page).over s = (.error f, ⟨rest, s.sent ++ [c.pageRequest path page]⟩) := by
  cases h with
  | broken message => exact Exchange.over_bind_of_error (send_of_pending hpending)
  | @refused a message hrefused =>
    have hresult : (Web.Reply.response a).result (c.root ++ path) = .error message := by
      simp [Web.Reply.result, hrefused]
    refine Exchange.over_bind_of_error ((send_of_pending hpending).trans ?_)
    rw [hresult]
    rfl
  | @unreadable a f haccepted hjson =>
    refine (Exchange.over_bind_of_ok (send_of_accepted hpending haccepted ..)).trans ?_
    have hbody := bodyOf_over "GET" path a ⟨rest, s.sent ++ [c.pageRequest path page]⟩
    rw [hjson] at hbody
    exact Exchange.over_bind_of_error hbody

theorem readPages_of_last (hpending : s.pending = .response a :: rest) (h : IsPage a items)
    (hnext : nextPage a = "") (fuel : Nat) (page : String) :
    (c.readPages path (fuel + 1) page).over s =
      (.ok items, ⟨rest, s.sent ++ [c.pageRequest path page]⟩) := by
  rw [readPages, Exchange.over_bind_of_ok (readPage_of_page hpending h)]
  simp only [hnext, if_true]
  rfl

theorem readPages_of_spoils {x : Web.Reply} {f : Fault} (hpending : s.pending = x :: rest)
    (h : c.Spoils path x f) (fuel : Nat) (page : String) :
    (c.readPages path (fuel + 1) page).over s =
      (.error f, ⟨rest, s.sent ++ [c.pageRequest path page]⟩) := by
  rw [readPages, Exchange.over_bind_of_error (readPage_of_spoils hpending h)]

theorem readPages_of_next {o : Except Fault (List Value)} {s' : Web.Session}
    (hpending : s.pending = .response a :: rest) (h : IsPage a items) (hnext : nextPage a ≠ "")
    (hmore : (c.readPages path fuel (nextPage a)).over
      ⟨rest, s.sent ++ [c.pageRequest path page]⟩ = (o, s')) :
    (c.readPages path (fuel + 1) page).over s = (o.map (items ++ ·), s') := by
  rw [readPages, Exchange.over_bind_of_ok (readPage_of_page hpending h)]
  simp only [hnext, if_false]
  cases o with
  | ok more => exact Exchange.over_bind_of_ok hmore
  | error f => exact Exchange.over_bind_of_error hmore

/-- What is sent for a page and for those that the earlier ones name. -/
def pageRequests (c : Client) (path page : String) (earlier : List Web.Response) : List Web.Sent :=
  (page :: earlier.map nextPage).map (c.pageRequest path)

/-- A listing goes through the earlier pages and ends as it does on the last one. -/
theorem readPages_of_leading {earlier : List Web.Response} {before : List Value} {last : Web.Reply}
    {o : Except Fault (List Value)} (h : Leading earlier before)
    (hlast : ∀ {t : Web.Session}, t.pending = last :: rest → ∀ fuel page,
      (c.readPages path (fuel + 1) page).over t =
        (o, ⟨rest, t.sent ++ [c.pageRequest path page]⟩))
    (hpending : s.pending = earlier.map .response ++ last :: rest)
    (hfuel : earlier.length < fuel) :
    (c.readPages path fuel page).over s =
      (o.map (before ++ ·), ⟨rest, s.sent ++ c.pageRequests path page earlier⟩) := by
  obtain ⟨fuel, rfl⟩ : ∃ n, fuel = n + 1 := ⟨fuel - 1, by omega⟩
  induction h generalizing fuel page s with
  | nil =>
    rw [hlast hpending]
    cases o <;> rfl
  | @cons a items more earlier ha hnext _ ih =>
    have hlength : earlier.length < fuel := by simpa using hfuel
    obtain ⟨fuel, rfl⟩ : ∃ n, fuel = n + 1 := ⟨fuel - 1, by omega⟩
    rw [readPages_of_next hpending ha hnext (ih rfl fuel hlength)]
    cases o <;> simp [pageRequests, Except.map]

/-- What is left of a listing after its last reply. -/
theorem paginate_of_leading {earlier : List Web.Response} {before : List Value} {last : Web.Reply}
    {o : Except Fault (List Value)} (h : Leading earlier before)
    (hlast : ∀ {t : Web.Session}, t.pending = last :: rest → ∀ fuel page,
      (c.readPages path (fuel + 1) page).over t =
        (o, ⟨rest, t.sent ++ [c.pageRequest path page]⟩))
    (hpending : s.pending = earlier.map .response ++ last :: rest) :
    (c.paginate path).over s =
      (o.map (before ++ ·), ⟨rest, s.sent ++ c.pageRequests path "1" earlier⟩) := by
  have hfuel : earlier.length < s.pending.length + 1 := by
    simp [hpending]
  exact readPages_of_leading h hlast hpending hfuel

section

variable {project iid : Value} (hproject : project.isWritable = true) (hiid : iid.isWritable = true)
include hproject hiid

theorem pathOf_discussions :
    pathOf (.discussions project iid) = .ok (basePath project iid ++ "/discussions") := by
  simp [pathOf, mergeRequestPath_of_isWritable hproject hiid, pure, Except.pure]

theorem pathOf_commits :
    pathOf (.commits project iid) = .ok (basePath project iid ++ "/commits") := by
  simp [pathOf, mergeRequestPath_of_isWritable hproject hiid, pure, Except.pure]

end

/-- Items that can all be read are read in order. -/
theorem refuse_mapM_over {α : Type} {read : Value → Except Fault α} {x : Exchange (List Value)}
    {s' : Web.Session} {ys : List α} (thing : String) (hx : x.over s = (.ok items, s'))
    (hread : List.Forall₂ (fun v y => read v = .ok y) items ys) :
    (do refusePayload thing ((← x).mapM read) : Exchange (List α)).over s = (.ok ys, s') := by
  refine (Exchange.over_bind_of_ok hx).trans ?_
  rw [mapM_eq_ok.mpr hread]
  rfl

end Client

def sampleNote : Note := ⟨.int 7, ⟨.text "ann", .int 1⟩, .text "x", true, false, false⟩

def sampleDiscussion : Discussion := ⟨.text "d", [sampleNote]⟩

def samplePage : Web.Response where
  headers := [("X-Next-Page", " 2 ")]
  body := "[\x7b\"id\":\"d\",\"notes\":[\x7b\"id\":7," ++
    "\"author\":\x7b\"username\":\"ann\",\"id\":1\x7d,\"body\":\"x\"," ++
    "\"resolvable\":true,\"system\":false,\"resolved\":false\x7d]\x7d]"

/-- An object with fields that are stored one after the other. -/
def objectOf (fields : List (String × Value)) : Value :=
  .map (fields.foldl (fun es e => Value.store es (.text e.1) e.2) [])

def sampleItem : Value :=
  objectOf [("id", .text "d"), ("notes", .list [objectOf [("id", .int 7),
    ("author", objectOf [("username", .text "ann"), ("id", .int 1)]), ("body", .text "x"),
    ("resolvable", .bool true), ("system", .bool false), ("resolved", .bool false)]])]

-- The reader is run over the body character by character.
set_option maxRecDepth 2000 in
theorem isPage_samplePage : IsPage samplePage [sampleItem] := by
  refine ⟨Or.inl (by decide), Web.Response.json_of_readWhole ?_⟩
  simp only [samplePage, String.reduceAppend, String.reduceToList]
  exact rfl

theorem showsDiscussion_sampleItem : ShowsDiscussion sampleItem sampleDiscussion := by
  have hauthor : ShowsUser (objectOf [("username", .text "ann"), ("id", .int 1)])
      sampleNote.author := ⟨⟨_, rfl, by cbv⟩, ⟨_, rfl, by cbv⟩⟩
  refine ⟨⟨_, rfl, by cbv⟩, _, ⟨_, rfl, by cbv⟩, .cons ?_ .nil⟩
  constructor
  case author => exact ⟨_, ⟨_, rfl, by cbv⟩, hauthor⟩
  case text => exact ⟨_, rfl⟩
  all_goals exact ⟨_, rfl, by cbv⟩

namespace Client

/-- A listing that comes in pages is answered with the items of all pages in order. Each page is
asked for once, by the name that the page before it gave. A reply that is no page ends the listing
at once with a transport fault, unless it is a body that is nested too deep to be read. Where the
numbers cannot be written, nothing is sent. -/
theorem ask_listing (c : Client) {project iid : Value} {earlier : List Web.Response}
    {before : List Value} {last : Web.Reply} {rest : List Web.Reply} {s : Web.Session}
    (hearlier : Leading earlier before)
    (hpending : s.pending = earlier.map .response ++ last :: rest) :
    let after (name : String) : Web.Session :=
      ⟨rest, s.sent ++ c.pageRequests (basePath project iid ++ name) "1" earlier⟩
    (project.isWritable = true → iid.isWritable = true →
      (∀ a items, last = .response a → IsPage a items → nextPage a = "" →
        (∀ ds, List.Forall₂ ShowsDiscussion (before ++ items) ds →
          (c.ask (.discussions project iid)).over s = (.ok ds, after "/discussions")) ∧
        ∀ ids, List.Forall₂ (·.HasField "id" ·) (before ++ items) ids →
          (c.ask (.commits project iid)).over s = (.ok ids, after "/commits")) ∧
      (∀ f, c.Spoils (basePath project iid ++ "/discussions") last f →
        (c.ask (.discussions project iid)).over s = (.error f, after "/discussions")) ∧
      ∀ f, c.Spoils (basePath project iid ++ "/commits") last f →
        (c.ask (.commits project iid)).over s = (.error f, after "/commits")) ∧
    (∀ path f, c.Spoils path last f → (∃ m, f = .transport m) ∨
      f = .tooDeep ∧ ∃ a, last = .response a ∧ a.json = .error .tooDeep) ∧
    ((project.isWritable && iid.isWritable) = false →
      (c.ask (.discussions project iid)).over s = (.error (.invalid .unwritable), s) ∧
      (c.ask (.commits project iid)).over s = (.error (.invalid .unwritable), s)) := by
  intro after
  refine ⟨?_, fun path f hf => hf.cases, ?_⟩
  · intro hproject hiid
    have hdiscussions := pathOf_discussions hproject hiid
    have hcommits := pathOf_commits hproject hiid
    refine ⟨?_, ?_, ?_⟩
    · rintro a items rfl hpage hnext
      have hpages (name : String) : (c.paginate (basePath project iid ++ name)).over s =
          (.ok (before ++ items), after name) :=
        paginate_of_leading hearlier (fun h => readPages_of_last h hpage hnext) hpending
      constructor
      · intro ds hds
        exact (ask_of_pathOf hdiscussions).trans (refuse_mapM_over "discussion" (hpages _)
          (hds.imp fun _ _ => readDiscussion_of_shows))
      · intro ids hids
        exact (ask_of_pathOf hcommits).trans (refuse_mapM_over "commit" (hpages _)
          (hids.imp fun _ _ => Value.require_of_hasField))
    · intro f hf
      exact (ask_of_pathOf hdiscussions).trans (Exchange.over_bind_of_error
        (paginate_of_leading hearlier (fun h => readPages_of_spoils h hf) hpending))
    · intro f hf
      exact (ask_of_pathOf hcommits).trans (Exchange.over_bind_of_error
        (paginate_of_leading hearlier (fun h => readPages_of_spoils h hf) hpending))
  · intro h
    have hpath := mergeRequestPath_of_unwritable h
    constructor
    · exact ask_of_pathOf_error (by simp [pathOf, hpath, bind, Except.bind])
    · exact ask_of_pathOf_error (by simp [pathOf, hpath, bind, Except.bind])

/-- A page is followed by an empty one, and then by a broken exchange. -/
theorem ask_listing_two_pages :
    let path := "/projects/101/merge_requests/5/discussions"
    let sent := sampleClient.pageRequests path "1" [samplePage]
    (sampleClient.ask (.discussions (.int 101) (.int 5))).over
        ⟨[.response samplePage, .response { body := "[]" }], []⟩ =
      (.ok [sampleDiscussion], ⟨[], sent⟩) ∧
    (sampleClient.ask (.discussions (.int 101) (.int 5))).over
        ⟨[.response samplePage, .broken "boom"], []⟩ =
      (.error (.transport "GET /projects/101/merge_requests/5/discussions failed: boom"),
        ⟨[], sent⟩) := by
  intro path sent
  have hleading : Leading [samplePage] [sampleItem] :=
    .cons isPage_samplePage (by decide +kernel) .nil
  have hproject : (Value.int 101).isWritable = true := by decide +kernel
  have hiid : (Value.int 5).isWritable = true := by decide +kernel
  have hbase : basePath (.int 101) (.int 5) = "/projects/101/merge_requests/5" := by decide +kernel
  have hempty : IsPage { body := "[]" } [] := ⟨Or.inl (by decide), by cbv⟩
  constructor
  · obtain ⟨hpages, -⟩ := (ask_listing sampleClient hleading
      (s := ⟨[.response samplePage, .response { body := "[]" }], []⟩) rfl).1 hproject hiid
    obtain ⟨hdiscussions, -⟩ := hpages _ _ rfl hempty (by decide +kernel)
    have hask := hdiscussions [sampleDiscussion] (.cons showsDiscussion_sampleItem .nil)
    rwa [hbase] at hask
  · obtain ⟨-, hspoils, -⟩ := (ask_listing sampleClient hleading
      (s := ⟨[.response samplePage, .broken "boom"], []⟩) rfl).1 hproject hiid
    have hask := hspoils _ (.broken "boom")
    rwa [hbase] at hask

/-- A hundred thousand brackets are no JSON, and what they end a listing with is no transport fault. -/
theorem ask_discussions_of_brackets :
    let a : Web.Response := { body := String.ofList (List.replicate 100000 '[') }
    (∀ v, a.json ≠ .ok v) ∧ ∀ m,
      ((sampleClient.ask (.discussions (.int 101) (.int 5))).over ⟨[.response a], []⟩).1 ≠
        .error (.transport m) := by
  intro a
  have hjson : a.json = .error .tooDeep := Web.Response.json_replicate (by decide)
  have hspoils : sampleClient.Spoils (basePath (.int 101) (.int 5) ++ "/discussions") (.response a)
      .tooDeep := .unreadable (Or.inl (by decide)) hjson
  have hask : (sampleClient.ask (.discussions (.int 101) (.int 5))).over ⟨[.response a], []⟩ =
      (.error .tooDeep, ⟨[], _⟩) :=
    (ask_of_pathOf (pathOf_discussions (by decide +kernel) (by decide +kernel))).trans
      (Exchange.over_bind_of_error
        (paginate_of_leading .nil (fun h => readPages_of_spoils h hspoils) rfl))
  constructor
  · intro v hv
    cases hjson.symm.trans hv
  · intro m hm
    rw [hask] at hm
    cases hm

end Client

end Gitlab

end MergeDecoration
