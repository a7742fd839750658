import MergeDecoration.Host
import MergeDecoration.Link.Address

/-!
The project that a working copy belongs to, read off the address of its remote repository.
-/
namespace MergeDecoration

/-- The address of an instance and the path of a project on it. -/
structure Project where
  url : String
  path : String
  deriving DecidableEq

namespace Remote

/-- A text without slashes around it and without the ending `.git`. -/
def projectPath (path : List Char) : List Char :=
  let trimmed := Text.trimWhile (· == '/') path
  let ending := ".git".toList
  if ending.isSuffixOf trimmed then trimmed.take (trimmed.length - ending.length) else trimmed

/-- The host and the path of an address with a scheme. -/
def ofAddress (url : List Char) : Except Invalid (Option String × List Char) := do
  let address ← Address.read url
  return (address.host?, address.path)

/-- The host and the path of `user@host:path`. -/
def ofShort (url : List Char) : Except Invalid (Option String × List Char) :=
  match Text.cutFirst ':' ((Text.cutFirst '@' url).2.getD []) with
  | (host, some path) => .ok (some (String.ofList host), path)
  | (_, none) => .error .remoteParts

/-- Whether the text occurs. -/
def contains (part : List Char) : List Char → Bool
  | [] => part.isEmpty
  | c :: rest => part.isPrefixOf (c :: rest) || contains part rest

/-- The project of a remote address. -/
def project? (url : String) : Except Invalid (Option Project) := do
  let cs := url.toList
  let (host?, path) ←
    if contains "://".toList cs then ofAddress cs
    else if cs.contains '@' && cs.contains ':' then ofShort cs
    else return none
  let path := projectPath path
  match host?.filter (· != "") with
  | some host =>
    return if path.contains '/' then some ⟨"https://" ++ host, String.ofList path⟩ else none
  | none => return none

def invocation : Invocation where
  words := ["git", "remote", "get-url", "origin"].map .text
  seconds := 5

/-- The project of the remote called `origin`, if there is one. -/
def detect : Action (Option Project) := do
  match ← Host.start invocation with
  | .error .missing | .error (.timedOut _) => return none
  | .error cause => throw (.start cause "git")
  | .ok f =>
    if f.code != 0 then return none
    else (project? (Text.trim f.output)).mapError Fault.invalid

end Remote
end MergeDecoration
