import Mathlib
import MergeDecoration.Gitlab.Client
import MergeDecoration.Proofs.Stateful
import MergeDecoration.Proofs.Value.Reading

/-!
How a request to GitLab is answered. It takes one reply of the session, and all that becomes of the
request is told by that reply.
-/
namespace MergeDecoration

namespace Web

/-- A response whose status says nothing against it. -/
def Response.IsAccepted (r : Response) : Prop := r.status < 400 ∨ 600 ≤ r.status

theorem Response.refusal?_eq_none (r : Response) (url : String) :
    r.refusal? url = none ↔ r.IsAccepted := by
  unfold refusal? IsAccepted
  split_ifs <;> simp <;> omega

/-- What a body is read as; one with a byte order mark is not read as it is. -/
theorem Response.json_of_readWhole {r : Response} {v : Value}
    (h : Json.readWhole r.body.toList = .ok v) : r.json = .ok v := by
  unfold json
  split
  · next heq =>
    rw [heq] at h
    cases h
  · simp [Json.read, h, Except.mapError]

/-- The response that a reply is, or why it is none. -/
def Reply.result (url : String) : Reply → Except String Response
  | .broken message => .error message
  | .response a => match a.refusal? url with
    | some message => .error message
    | none => .ok a

theorem Reply.result_eq_ok {x : Reply} {url : String} {a : Response} :
    x.result url = .ok a ↔ x = .response a ∧ a.IsAccepted := by
  cases x with
  | broken message => simp [result]
  | response b =>
    have hrefusal := b.refusal?_eq_none url
    cases hurl : b.refusal? url with
    | none => grind [result]
    | some message => grind [result]

namespace Session

/-- What the next request is answered with. -/
def answer (s : Session) (url : String) : Except String Response :=
  match s.pending with
  | [] => .error "script exhausted"
  | x :: _ => x.result url

theorem send_eq (s : Session) (r : Request) :
    s.send r = (s.answer r.url, ⟨s.pending.tail, s.sent ++ [.request r]⟩) := by
  unfold send answer Reply.result
  cases s.pending with
  | nil => rfl
  | cons x rest => cases x <;> rfl

/-- The replies taken between two states of a session. -/
def Hears (s : Session) (heard : List Reply) (s' : Session) : Prop :=
  s.pending = heard ++ s'.pending

theorem hears_nil (s : Session) : s.Hears [] s := List.nil_append _

theorem Hears.append {s t s' : Session} {heard more : List Reply} (h : s.Hears heard t)
    (hmore : t.Hears more s') : s.Hears (heard ++ more) s' := by
  simp only [Hears] at h hmore ⊢
  simp [h, hmore]

end Session

end Web

namespace Gitlab

/-- How an exchange ends over a session, and what the session is then. -/
def Exchange.over {α : Type} (x : Exchange α) (s : Web.Session) : Except Fault α × Web.Session :=
  x s

namespace Exchange

variable {α β : Type} {x : Exchange α} {next : α → Exchange β} {s s' : Web.Session} {a : α}
  {f : Fault}

theorem over_bind (x : Exchange α) (next : α → Exchange β) (s : Web.Session) :
    (x >>= next).over s = match x.over s with
      | (.ok a, t) => (next a).over t
      | (.error f, t) => (.error f, t) := by
  rcases hx : x.over s with ⟨f | a, t⟩
  · exact Stateful.bind_of_error hx
  · exact Stateful.bind_of_ok hx

theorem over_lift (y : Except Fault α) (s : Web.Session) :
    (liftM y : Exchange α).over s = (y, s) := rfl

theorem over_lift_eq {y o : Except Fault α} :
    (liftM y : Exchange α).over s = (o, s') ↔ y = o ∧ s' = s := by
  simp [over_lift, eq_comm]

theorem over_modifyGet (g : Web.Session → α × Web.Session) (s : Web.Session) :
    (modifyGet g : Exchange α).over s = (.ok (g s).1, (g s).2) := rfl

theorem over_discard (x : Exchange α) (s : Web.Session) :
    (discard x).over s = match x.over s with
      | (.ok _, t) => (.ok ⟨⟩, t)
      | (.error f, t) => (.error f, t) := by
  have hmap : (discard x).over s = (x >>= fun _ => pure ⟨⟩).over s := rfl
  rw [hmap, over_bind]
  rfl

theorem over_bind_of_ok (h : x.over s = (.ok a, s')) : (x >>= next).over s = (next a).over s' :=
  Stateful.bind_of_ok h

theorem over_bind_of_error (h : x.over s = (.error f, s')) :
    (x >>= next).over s = (.error f, s') := Stateful.bind_of_error h

theorem over_bind_eq_ok {b : β} : (x >>= next).over s = (.ok b, s') ↔
    ∃ a t, x.over s = (.ok a, t) ∧ (next a).over t = (.ok b, s') := by
  rcases hx : x.over s with ⟨e | a, t⟩
  · simp [over_bind_of_error hx]
  · simp [over_bind_of_ok hx]

theorem over_bind_eq_error : (x >>= next).over s = (.error f, s') ↔
    x.over s = (.error f, s') ∨
      ∃ a t, x.over s = (.ok a, t) ∧ (next a).over t = (.error f, s') := by
  rcases hx : x.over s with ⟨e | a, t⟩
  · simp [over_bind_of_error hx]
  · simp [over_bind_of_ok hx]

end Exchange

namespace Client

variable {c : Client} {method path : String} {params data : Fields} {s s' : Web.Session}
  {f : Fault}

/-- What is sent at a path. -/
def requestAt (c : Client) (method path : String) (params data : Fields) : Web.Request :=
  ⟨method, c.root ++ path, c.token, c.timeout, params, data⟩

theorem send_over (c : Client) (method path : String) (params data : Fields) (s : Web.Session) :
    (c.send method path params data).over s =
      ((s.answer (c.root ++ path)).mapError fun m => .transport s!"{method} {path} failed: {m}",
        ⟨s.pending.tail, s.sent ++ [.request (c.requestAt method path params data)]⟩) := by
  have hsend := Exchange.over_modifyGet (·.send (c.requestAt method path params data)) s
  rw [Web.Session.send_eq] at hsend
  refine (Exchange.over_bind_of_ok hsend).trans ?_
  have hurl : (c.requestAt method path params data).url = c.root ++ path := rfl
  rw [hurl]
  cases s.answer (c.root ++ path) <;> rfl

/-- The fault of a body that cannot be read: it is no JSON, or nested too deep to tell. -/
def noBody (method path : String) : Fault → Fault
  | .tooDeep => .tooDeep
  | _ => .transport s!"{method} {path} returned a non-JSON body"

theorem bodyOf_over (method path : String) (a : Web.Response) (s : Web.Session) :
    (bodyOf method path a).over s = (a.json.mapError (noBody method path), s) := by
  unfold bodyOf
  cases a.json with
  | ok v => rfl
  | error f => cases f <;> rfl

theorem noBody_cases (method path : String) (f : Fault) :
    f = .tooDeep ∧ noBody method path f = .tooDeep ∨
      ∃ m, noBody method path f = .transport m := by
  cases f <;> simp [noBody]

theorem send_eq_ok {a : Web.Response}
    (h : (c.send method path params data).over s = (.ok a, s')) :
    s.Hears [.response a] s' ∧ a.IsAccepted := by
  obtain ⟨hanswer, rfl⟩ := Prod.mk.inj ((send_over ..).symm.trans h)
  rw [mapError_eq_ok] at hanswer
  unfold Web.Session.answer at hanswer
  cases hpending : s.pending with
  | nil => simp [hpending] at hanswer
  | cons x rest =>
    simp only [hpending, Web.Reply.result_eq_ok] at hanswer
    obtain ⟨rfl, haccepted⟩ := hanswer
    exact ⟨by simp [Web.Session.Hears, hpending], haccepted⟩

theorem send_eq_error (h : (c.send method path params data).over s = (.error f, s')) :
    ∃ m, f = .transport m := by
  obtain ⟨hanswer, -⟩ := Prod.mk.inj ((send_over ..).symm.trans h)
  obtain ⟨m, -, rfl⟩ := mapError_eq_error.mp hanswer
  exact ⟨_, rfl⟩

theorem discard_send_eq_error
    (h : (discard (c.send method path params data)).over s = (.error f, s')) :
    ∃ m, f = .transport m := by
  rw [Exchange.over_discard] at h
  split at h
  · cases h
  · next hsend =>
    cases h
    exact send_eq_error hsend

/-- The next reply settles a request. -/
theorem send_of_pending {x : Web.Reply} {rest : List Web.Reply} (h : s.pending = x :: rest) :
    (c.send method path params data).over s =
      ((x.result (c.root ++ path)).mapError fun m => .transport s!"{method} {path} failed: {m}",
        ⟨rest, s.sent ++ [.request (c.requestAt method path params data)]⟩) := by
  simp [send_over, Web.Session.answer, h]

/-- The path of a merge request. -/
def basePath (project iid : Value) : String :=
  s!"/projects/{project.shown}/merge_requests/{iid.shown}"

theorem mergeRequestPath_of_isWritable {project iid : Value} (hproject : project.isWritable = true)
    (hiid : iid.isWritable = true) : mergeRequestPath project iid = .ok (basePath project iid) := by
  simp [mergeRequestPath, pathPart, hproject, hiid, basePath, pure, Except.pure]

theorem mergeRequestPath_of_unwritable {project iid : Value}
    (h : (project.isWritable && iid.isWritable) = false) :
    mergeRequestPath project iid = .error (.invalid .unwritable) := by
  by_cases hproject : project.isWritable = true
  · have hiid : iid.isWritable = false := by simpa [hproject] using h
    simp [mergeRequestPath, pathPart, hproject, hiid, bind, Except.bind]
  · simp [mergeRequestPath, pathPart, hproject, bind, Except.bind]

theorem pathPart_eq_error {v : Value} (h : pathPart v = .error f) : f = .invalid .unwritable := by
  unfold pathPart at h
  split_ifs at h
  exact (Except.error.inj h).symm

theorem mergeRequestPath_eq_error {project iid : Value}
    (h : mergeRequestPath project iid = .error f) : f = .invalid .unwritable := by
  rcases bind_eq_error.mp h with hproject | ⟨name, -, h⟩
  · exact pathPart_eq_error hproject
  rcases bind_eq_error.mp h with hiid | ⟨number, -, hpure⟩
  · exact pathPart_eq_error hiid
  · cases hpure

theorem discussionPath_eq_error {project iid discussion : Value}
    (h : discussionPath project iid discussion = .error f) : f = .invalid .unwritable := by
  rcases bind_eq_error.mp h with hbase | ⟨base, -, h⟩
  · exact mergeRequestPath_eq_error hbase
  rcases bind_eq_error.mp h with hid | ⟨id, -, hpure⟩
  · exact pathPart_eq_error hid
  · cases hpure

theorem pathOf_eq_error {r : Request} (h : pathOf r = .error f) : f = .invalid .unwritable := by
  cases r with
  | currentUser | close | changeset => cases h
  | mergeRequest project iid =>
    rcases bind_eq_error.mp h with hiid | ⟨number, -, hpure⟩
    · exact pathPart_eq_error hiid
    · cases hpure
  | commits | discussions | createDiscussion =>
    rcases bind_eq_error.mp h with hbase | ⟨base, -, hpure⟩
    · exact mergeRequestPath_eq_error hbase
    · cases hpure
  | addNote =>
    rcases bind_eq_error.mp h with hbase | ⟨base, -, hpure⟩
    · exact discussionPath_eq_error hbase
    · cases hpure
  | editNote | deleteNote =>
    rcases bind_eq_error.mp h with hbase | ⟨base, -, h⟩
    · exact discussionPath_eq_error hbase
    rcases bind_eq_error.mp h with hid | ⟨id, -, hpure⟩
    · exact pathPart_eq_error hid
    · cases hpure
  | resolve => exact discussionPath_eq_error h
  | pushStatus =>
    rcases bind_eq_error.mp h with hproject | ⟨name, -, hpure⟩
    · exact pathPart_eq_error hproject
    · cases hpure

/-- Without a path nothing is sent. -/
theorem ask_of_pathOf_error {r : Request} (h : pathOf r = .error f) :
    (c.ask r).over s = (.error f, s) :=
  Exchange.over_bind_of_error (congrArg (·, s) h)

theorem ask_of_pathOf {r : Request} (h : pathOf r = .ok path) :
    (c.ask r).over s = (c.askAt path r).over s :=
  Exchange.over_bind_of_ok (congrArg (·, s) h)

theorem send_of_accepted {a : Web.Response} {rest : List Web.Reply}
    (hpending : s.pending = .response a :: rest) (h : a.IsAccepted) (method path : String)
    (params data : Fields) :
    (c.send method path params data).over s =
      (.ok a, ⟨rest, s.sent ++ [.request (c.requestAt method path params data)]⟩) := by
  have hresult : (Web.Reply.response a).result (c.root ++ path) = .ok a :=
    Web.Reply.result_eq_ok.mpr ⟨rfl, h⟩
  simp [send_of_pending hpending, hresult, Except.mapError]

theorem sendJson_of_accepted {a : Web.Response} {v : Value} {rest : List Web.Reply}
    (hpending : s.pending = .response a :: rest) (h : a.IsAccepted) (hjson : a.json = .ok v)
    (method path : String) (data : Fields) :
    (c.sendJson method path data).over s =
      (.ok v, ⟨rest, s.sent ++ [.request (c.requestAt method path none data)]⟩) := by
  refine (Exchange.over_bind_of_ok (send_of_accepted hpending h ..)).trans ?_
  rw [bodyOf_over, hjson]
  rfl

def sampleClient : Client := ⟨"https://gitlab.example.com/api/v4", "tok", .int 30⟩

end Client

end Gitlab

end MergeDecoration
