import MergeDecoration.Json.Reader

/-!
Talking to a server over a session. What the server will answer is a list of replies, taken one by
one; what is sent is kept.
-/
namespace MergeDecoration.Web

structure Request where
  method : String
  url : String
  token : String
  timeout : Value
  params : Option (List (String × Value)) := none
  data : Option (List (String × Value)) := none

structure Response where
  status : Int := 200
  reason : String := ""
  headers : List (String × String) := []
  body : String := ""

inductive Reply
  /-- The exchange failed before there was a response. -/
  | broken (message : String)
  | response (r : Response)

/-- What goes out over a session. -/
inductive Sent
  | request (r : Request)
  | close

structure Session where
  pending : List Reply := []
  sent : List Sent := []

namespace Response

/-- The value of a header, whose name may be in any case; of two the later counts. -/
def header? (r : Response) (name : String) : Option String :=
  (r.headers.reverse.find? fun h => h.1.toLower == name.toLower).map (·.2)

/-- What a status says against a response, if it does. -/
def refusal? (r : Response) (url : String) : Option String :=
  let kind? := if 400 ≤ r.status ∧ r.status < 500 then some "Client"
    else if 500 ≤ r.status ∧ r.status < 600 then some "Server" else none
  kind?.map fun kind => s!"{r.status} {kind} Error: {r.reason} for url: {url}"

/-- The JSON value of the body; a byte order mark in front of one is skipped. -/
def json (r : Response) : Except Fault Value :=
  let text := match r.body.toList with
    | '\ufeff' :: c :: rest => String.ofList (c :: rest)
    | _ => r.body
  Json.read text

end Response

namespace Session

/-- Send a request and take the next reply: the response, or why there is none. -/
def send (s : Session) (r : Request) : Except String Response × Session :=
  let sent := s.sent ++ [.request r]
  match s.pending with
  | [] => (.error "script exhausted", ⟨[], sent⟩)
  | .broken message :: rest => (.error message, ⟨rest, sent⟩)
  | .response a :: rest =>
    (match a.refusal? r.url with
      | some message => .error message
      | none => .ok a, ⟨rest, sent⟩)

def close (s : Session) : Session := { s with sent := s.sent ++ [.close] }

end Session
end MergeDecoration.Web
