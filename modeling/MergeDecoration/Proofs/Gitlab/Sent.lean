import MergeDecoration.Proofs.Gitlab.Request

/-!
What goes out over the session of a client. Only the end of a conversation closes it, and what reads
sends requests that read.
-/
namespace MergeDecoration

open Stateful

/-- Between the two states requests of one kind went out, and nothing else. -/
def Web.Session.Sends (P : Web.Request → Prop) (s s' : Web.Session) : Prop :=
  ∃ rs : List Web.Request, s'.sent = s.sent ++ rs.map .request ∧ ∀ r ∈ rs, P r

instance {P : Web.Request → Prop} : IsPreorder Web.Session (Web.Session.Sends P) where
  refl s := ⟨[], (List.append_nil _).symm, nofun⟩
  trans := by
    rintro s t u ⟨rs, hs, hrs⟩ ⟨qs, ht, hqs⟩
    refine ⟨rs ++ qs, ?_, ?_⟩
    · rw [ht, hs, List.map_append, List.append_assoc]
    · simpa only [List.forall_mem_append] using And.intro hrs hqs

theorem Web.Session.Sends.mono {P Q : Web.Request → Prop} {s s' : Web.Session} (h : s.Sends P s')
    (hsub : ∀ r, P r → Q r) : s.Sends Q s' := by
  obtain ⟨rs, hs, hrs⟩ := h
  exact ⟨rs, hs, fun r hr => hsub r (hrs r hr)⟩

namespace Gitlab.Client

open Web.Session (Sends)

variable {P : Web.Request → Prop} {c : Client} {method path : String} {params data : Fields}

theorem leads_send (h : P (c.requestAt method path params data)) :
    Leads (Sends P) (c.send method path params data) := by
  intro s
  refine ⟨[c.requestAt method path params data], ?_, by simpa using h⟩
  exact congrArg (fun x => x.2.sent) (send_over c method path params data s)

theorem leads_bodyOf (method path : String) (r : Web.Response) :
    Leads (Sends P) (bodyOf method path r) := by
  intro s
  rw [show (bodyOf method path r s).2 = s from congrArg Prod.snd (bodyOf_over method path r s)]
  exact refl_of _ s

theorem leads_sendJson (h : P (c.requestAt method path none data)) :
    Leads (Sends P) (c.sendJson method path data) :=
  (leads_send h).bind (leads_bodyOf method path)

section

variable (hget : ∀ r : Web.Request, r.method = "GET" → P r)
include hget

theorem leads_readPage (path page : String) : Leads (Sends P) (c.readPage path page) := by
  refine .bind (leads_send (hget _ rfl)) fun r => ?_
  refine .bind (leads_bodyOf "GET" path r) fun v => ?_
  exact .bind (.lift v.items) fun items => .pure _

theorem leads_readPages (path : String) (fuel : Nat) (page : String) :
    Leads (Sends P) (c.readPages path fuel page) := by
  induction fuel generalizing page with
  | zero => exact .pure _
  | succ fuel ih =>
    refine .bind (leads_readPage hget path page) fun r => ?_
    dsimp only
    split
    · exact .pure _
    · exact .bind (ih r.2) fun _ => .pure _

theorem leads_paginate (path : String) : Leads (Sends P) (c.paginate path) :=
  .bind .get fun _ => leads_readPages hget path _ _

end

/-- A request over the session is one that reads if it is made for a request that writes nothing. -/
def MadeFor (r : Request) (q : Web.Request) : Prop := r.isWrite = false → q.method = "GET"

theorem leads_askAt (c : Client) (path : String) {r : Request} (hr : r ≠ .close) :
    Leads (Sends (MadeFor r)) (c.askAt path r) := by
  cases r with
  | close => exact absurd rfl hr
  | changeset => exact .pure _
  | mergeRequest | currentUser => exact .bind (leads_sendJson fun _ => rfl) fun v => .lift _
  | commits | discussions =>
    exact .bind (leads_paginate (fun _ h _ => h) path) fun items => .lift _
  | createDiscussion => exact .bind (leads_sendJson nofun) fun v => .lift _
  | addNote | editNote | deleteNote | resolve | pushStatus => exact .discard (leads_send nofun)

/-- What is asked of a client does not close its session, and sends no more than requests. -/
theorem leads_ask (c : Client) {r : Request} (hr : r ≠ .close) :
    Leads (Sends (MadeFor r)) (c.ask r) :=
  .bind (.lift _) fun path => leads_askAt c path hr

end Gitlab.Client
end MergeDecoration
