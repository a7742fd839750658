import MergeDecoration.Fault
import MergeDecoration.Link.HostLiteral
import MergeDecoration.Text.Case

/-!
The parts of an address: scheme, authority, path, parameters of the last path segment, query and
fragment. Leading controls and spaces are dropped, and so are tabs and line breaks anywhere.
-/
namespace MergeDecoration

structure Address where
  scheme : List Char
  authority : List Char
  path : List Char
  params : List Char
  query : List Char
  fragment : List Char
  deriving DecidableEq

namespace Address

/-- Schemes whose last path segment may carry parameters; no scheme at all is one of them. -/
def schemesWithParams : List String :=
  ["", "ftp", "hdl", "prospero", "http", "imap", "https", "shttp", "rtsp", "rtspu", "sip", "sips",
    "mms", "sftp", "tel"]

def isSchemeChar (c : Char) : Bool := c.isAlphanum || c == '+' || c == '-' || c == '.'

/-- The scheme in lower case, and what follows its colon. -/
def splitScheme (s : List Char) : List Char × List Char :=
  match Text.cutFirst ':' s with
  | (c :: name, some rest) =>
    if c.isAlpha && name.all isSchemeChar then ((c :: name).map Char.toLower, rest) else ([], s)
  | _ => ([], s)

def endsAuthority (c : Char) : Bool := c == '/' || c == '?' || c == '#'

/-- The authority after two slashes, and the rest. -/
def splitAuthority (s : List Char) : List Char × List Char :=
  match s with
  | '/' :: '/' :: rest => (rest.takeWhile (!endsAuthority ·), rest.dropWhile (!endsAuthority ·))
  | _ => ([], s)

/-- The host and what its colon adds: what follows the last `@` of an authority. -/
def place (authority : List Char) : List Char := Text.afterLast '@' authority

/-- The host of an authority that has brackets. If they surround the host, nothing may stand
before them, and after them only what a colon starts. -/
def bracketedHost (authority : List Char) : Except Invalid (List Char) :=
  match Text.cutFirst '[' (place authority) with
  | (before, some inner) =>
    let (host, rest) := Text.cutFirst ']' inner
    let tail := rest.getD []
    if before.isEmpty && (tail.isEmpty || tail.head? == some ':') then .ok host
    else .error .address
  | (host, none) => .ok (Text.cutFirst ':' host).1

/-- Characters with a compatibility decomposition that holds one of `/?#@:`. -/
def hidesDelimiter (c : Char) : Bool :=
  [0x2047, 0x2048, 0x2049, 0x2100, 0x2101, 0x2105, 0x2106, 0x2a74, 0xfe13, 0xfe16, 0xfe55, 0xfe56,
    0xfe5f, 0xfe6b, 0xff03, 0xff0f, 0xff1a, 0xff1f, 0xff20].contains c.toNat

def checkBrackets (authority : List Char) : Except Invalid PUnit := do
  if !authority.contains '[' && !authority.contains ']' then return
  if !(authority.contains '[' && authority.contains ']') then throw .address
  let host ← bracketedHost authority
  if host.head? == some 'v' then
    if !HostLiteral.isVersioned host then throw .bracketedVersion
  else if HostLiteral.isDotted host then throw .bracketedDotted
  else if !HostLiteral.isColoned host then throw (.bracketedHost (String.ofList host))

def checkAuthority (authority : List Char) : Except Invalid PUnit :=
  if authority.any hidesDelimiter then .error (.authority (String.ofList authority)) else .ok ⟨⟩

/-- Cut the parameters off the last segment of a path. -/
def splitParams (path : List Char) : List Char × List Char :=
  let segment := Text.afterLast '/' path
  match Text.cutFirst ';' segment with
  | (_, none) => (path, [])
  | (before, some params) => (path.take (path.length - segment.length) ++ before, params)

/-- What reading an address drops before anything else. -/
def clean (s : List Char) : List Char :=
  (s.dropWhile (·.toNat ≤ 32)).filter fun c => c != '\t' && c != '\r' && c != '\n'

def read (text : List Char) : Except Invalid Address := do
  let (scheme, rest) := splitScheme (clean text)
  let (authority, rest) := splitAuthority rest
  checkBrackets authority
  let (rest, fragment) := Text.cutFirst '#' rest
  let (path, query) := Text.cutFirst '?' rest
  checkAuthority authority
  let (path, params) :=
    if schemesWithParams.contains (String.ofList scheme) then splitParams path else (path, [])
  return ⟨scheme, authority, path, params, query.getD [], fragment.getD []⟩

/-- The host of the authority, in lower case up to a zone, without user and number. -/
def host? (a : Address) : Option String :=
  let host := match Text.cutFirst '[' (place a.authority) with
    | (_, some inner) => (Text.cutFirst ']' inner).1
    | (host, none) => (Text.cutFirst ':' host).1
  if host.isEmpty then none
  else
    let (name, zone) := Text.cutFirst '%' host
    some (Text.lower (String.ofList name) ++
      String.ofList (match zone with
        | none => []
        | some z => '%' :: z))

end Address
end MergeDecoration
