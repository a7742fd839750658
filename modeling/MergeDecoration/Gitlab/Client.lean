import MergeDecoration.Gitlab.Payload
import MergeDecoration.Link.PercentCode
import MergeDecoration.Web

/-!
Requests answered by GitLab's interface for programs, version 4. Nothing is tried twice: a broken
exchange, a refusal or a body that is no JSON is a transport fault.
-/
namespace MergeDecoration.Gitlab

/-- What is done over a session. -/
abbrev Exchange := ExceptT Fault (StateM Web.Session)

structure Client where
  root : String
  token : String
  timeout : Value := .int 30

namespace Client

/-- The client for the instance at an address. -/
def connect (url : Value) (token : String) (timeout : Value) : Except Fault Client := do
  return ⟨Text.dropTailSlashes (← url.textOperand) ++ "/api/v4", token, timeout⟩

def perPage : Nat := 100

/-- Fields of a query or of a form. -/
abbrev Fields := Option (List (String × Value))

def send (c : Client) (method path : String) (params data : Fields := none) :
    Exchange Web.Response := do
  let request : Web.Request := ⟨method, c.root ++ path, c.token, c.timeout, params, data⟩
  match ← modifyGet (·.send request) with
  | .ok r => return r
  | .error message => throw (.transport s!"{method} {path} failed: {message}")

/-- The JSON value of a response. -/
def bodyOf (method path : String) (r : Web.Response) : Exchange Value :=
  match r.json with
  | .ok v => return v
  | .error .tooDeep => throw .tooDeep
  | .error _ => throw (.transport s!"{method} {path} returned a non-JSON body")

def sendJson (c : Client) (method path : String) (data : Fields := none) :
    Exchange Value := do
  bodyOf method path (← c.send method path none data)

/-- The name of the page that follows, empty after the last one. -/
def nextPage (r : Web.Response) : String := Text.trim ((r.header? "X-Next-Page").getD "")

/-- The items of a page, and the name of the page that follows. -/
def readPage (c : Client) (path page : String) : Exchange (List Value × String) := do
  let r ← c.send "GET" path (some [("per_page", .int perPage), ("page", .text page)])
  let items ← (← bodyOf "GET" path r).items
  return (items, nextPage r)

/-- The items of all pages from a page on. Every page takes a reply, so the fuel lasts if it is more
than there are replies. -/
def readPages (c : Client) (path : String) : Nat → String → Exchange (List Value)
  | 0, _ => return []
  | fuel + 1, page => do
    let (items, next) ← c.readPage path page
    if next = "" then return items else return items ++ (← c.readPages path fuel next)

/-- The items of all pages. -/
def paginate (c : Client) (path : String) : Exchange (List Value) := do
  c.readPages path ((← get).pending.length + 1) "1"

/-- A payload that could not be read as the thing it should be; a missing operation stays what it
is. -/
def refusePayload {α : Type} (thing : String) : Except Fault α → Except Fault α
  | .error (.misuse cause) =>
    .error (.transport s!"Unexpected {thing} payload: {cause.message}")
  | .error (.missingField name) =>
    .error (.transport (s!"Unexpected {thing} payload: " ++ Text.quoted name))
  | r => r

/-- A value as a part of a path; a number with too many digits cannot be one. -/
def pathPart (v : Value) : Except Fault String :=
  if v.isWritable then .ok v.shown else .error (.invalid .unwritable)

def mergeRequestPath (project iid : Value) : Except Fault String := do
  return s!"/projects/{← pathPart project}/merge_requests/{← pathPart iid}"

def discussionPath (project iid discussion : Value) : Except Fault String := do
  return (← mergeRequestPath project iid) ++ s!"/discussions/{← pathPart discussion}"

def notePath (project iid discussion note : Value) : Except Fault String := do
  return (← discussionPath project iid discussion) ++ s!"/notes/{← pathPart note}"

/-- Where a request goes. -/
def pathOf : Request → Except Fault String
  | .mergeRequest project iid => do
    let name := String.ofList (PercentCode.encode project.toList)
    return s!"/projects/{name}/merge_requests/{← pathPart iid}"
  | .currentUser => return "/user"
  | .commits project iid => return (← mergeRequestPath project iid) ++ "/commits"
  | .discussions project iid | .createDiscussion project iid _ =>
    return (← mergeRequestPath project iid) ++ "/discussions"
  | .addNote project iid discussion _ =>
    return (← discussionPath project iid discussion) ++ "/notes"
  | .editNote project iid discussion note _ | .deleteNote project iid discussion note =>
    notePath project iid discussion note
  | .resolve project iid discussion => discussionPath project iid discussion
  | .pushStatus project revision _ =>
    return s!"/projects/{← pathPart project}/statuses/{revision}"
  | .close | .changeset .. => return ""

/-- Make a request at its path, and read what it is answered with. -/
def askAt (c : Client) (path : String) : (r : Request) → Exchange r.Reply
  | .mergeRequest .. => do
    refusePayload "merge request" (readMergeRequest (← c.sendJson "GET" path))
  | .currentUser => do readUser (← c.sendJson "GET" path)
  | .commits .. => do
    refusePayload "commit" ((← c.paginate path).mapM (·.require "id"))
  | .discussions .. => do
    refusePayload "discussion" ((← c.paginate path).mapM readDiscussion)
  | .createDiscussion _ _ note => do
    refusePayload "discussion" (readDiscussion (← c.sendJson "POST" path (some (writeNote note))))
  | .addNote _ _ _ text => discard <| c.send "POST" path none (some [("body", .text text)])
  | .editNote _ _ _ _ text => discard <| c.send "PUT" path none (some [("body", .text text)])
  | .deleteNote .. => discard <| c.send "DELETE" path
  | .resolve .. => discard <| c.send "PUT" path (some [("resolved", .text "true")])
  | .pushStatus _ _ status => discard <| c.send "POST" path none (some (writeStatus status))
  | .close => modify (·.close)
  | .changeset .. => return none

def ask (c : Client) (r : Request) : Exchange r.Reply := do c.askAt (← pathOf r) r

end Client
end MergeDecoration.Gitlab
