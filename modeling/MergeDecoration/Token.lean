import MergeDecoration.Host
import MergeDecoration.Link.Address

/-!
Finding the access token: first in the environment, then with the `glab` command.
-/
namespace MergeDecoration.Token

def variableName : String := "GITLAB_TOKEN"

/-- The host that a token is for: that of the address, or the value itself if it has none. -/
def host (url : Value) : Except Fault Value := do
  match url with
  | .text s => return ((← named? s).map .text).getD url
  | .bytes bs => match asciiText? bs with
    | some s => return ((← named? s).map fun h => .bytes (Text.Utf8.encode h.toList)).getD url
    | none => throw .nonAscii
  | v => if v.holds then throw .noOperation else return v
where
  named? (s : String) : Except Fault (Option String) := do
    let address ← (Address.read s.toList).mapError Fault.invalid
    return address.host?.filter (· != "")

def invocation (host : Value) : Invocation where
  words := ["glab", "config", "get", "token", "--host"].map .text ++ [host]
  seconds := 5

/-- The token printed by a command that went well. -/
def printed? (f : Finished) : Option String :=
  if f.code == 0 then some (Text.trim f.output) |>.filter (· != "") else none

/-- The token for an instance, none if there is none. -/
def resolve (url : Value) : Action (Option String) := do
  if let some token ← Host.filled? variableName then return some token
  let host ← Token.host url
  match ← Host.start (invocation host) with
  | .error .missing | .error (.timedOut _) => return none
  | .error cause => throw (.start cause "glab")
  | .ok f =>
    match printed? f with
    | none => return none
    | some token =>
      Host.debug s!"Resolved GitLab token via glab CLI for {host.shown}."
      return some token

end MergeDecoration.Token
