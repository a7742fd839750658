import MergeDecoration.Folder
import MergeDecoration.Log
import MergeDecoration.Web

/-!
The machine that a command runs on, as far as the command can tell: variables, files, what is
typed, what other commands answer and what servers reply. What the command leaves there is kept
beside it.
-/
namespace MergeDecoration

/-- A command as it is started: its words, the seconds it may take, and its folder if one is
given. -/
structure Invocation where
  words : List Value
  seconds : Nat
  folder : Option String := none

/-- What a command that ran to its end left. -/
structure Finished where
  output : String := ""
  errors : String := ""
  code : Int := 0

structure Table where
  title : String
  columns : List String
  rows : List (List String)

/-- What the user gets to see: the dialogue, and styled lines and tables on the console. -/
inductive Shown
  | said (text : String)
  | line (text : String)
  | table (t : Table)

structure Host where
  environment : List (String × String) := []
  folder : Folder := {}
  answers : Invocation → Except StartFault Finished := fun _ => .error .missing
  /-- The commands that cannot be called as they are, or print what cannot be read. -/
  miscalls : Invocation → Option CallFault := fun _ => none
  /-- The lines still to be typed. -/
  typed : List String := []
  session : Web.Session := {}
  started : List Invocation := []
  shown : List Shown := []
  records : List LogRecord := []
  /-- Whether records of all levels are shown. -/
  verbose : Bool := false

/-- What is done on a host; what was done before a fault stays. -/
abbrev Action := ExceptT Fault (StateM Host)

namespace Host

/-- The dialogue with the user, without what is printed on the console. -/
def dialogue (h : Host) : String :=
  String.join (h.shown.map fun
    | .said text => text
    | _ => "")

/-- The records that are shown: all of them, or the warnings alone. -/
def reported (h : Host) : List LogRecord :=
  h.records.filter fun r => h.verbose || r.level == .warning

def lookup? (name : String) : Action (Option String) := do return (← get).environment.lookup name

/-- A variable that is set to more than nothing. -/
def filled? (name : String) : Action (Option String) := do
  return (← lookup? name).filter (· != "")

def record (r : LogRecord) : Action PUnit :=
  modify fun h => { h with records := h.records ++ [r] }

def debug (message : String) : Action PUnit := record ⟨.debug, message⟩

/-- How a command ends, if nothing goes wrong around it. -/
def ending (h : Host) (i : Invocation) : Except Fault (Except StartFault Finished) :=
  match h.miscalls i with
  | some cause => .error cause.fault
  | none => .ok (h.answers i)

/-- Start a command and wait for its end. -/
def start (i : Invocation) : Action (Except StartFault Finished) := do
  modify fun h => { h with started := h.started ++ [i] }
  (← get).ending i

def readText (path : String) : Action (Option String) := do (← get).folder.readText path

def writeText (path : List String) (text : String) : Action PUnit := do
  let folder ← (← get).folder.writeText path text
  modify fun h => { h with folder }

def display (s : Shown) : Action PUnit := modify fun h => { h with shown := h.shown ++ [s] }

def print (line : String) : Action PUnit := display (.line line)

/-- Print lines up to the first that is a fault. -/
def printAll : List (Except Fault String) → Action PUnit
  | [] => return
  | line :: rest => do
    print (← line)
    printAll rest

def say (text : String) : Action PUnit := display (.said text)

/-- The next line that is typed; without one the command is aborted. -/
def readLine : Action String := do
  match (← get).typed with
  | [] => throw .aborted
  | line :: typed => do
    modify fun h => { h with typed }
    say (line ++ "\n")
    return line

/-- Do one thing and then another, whatever came of the first. -/
def ensure {α : Type} (first : Action α) (last : Action PUnit) : Action α :=
  ExceptT.mk do
    let result ← first.run
    return (← last.run).bind fun _ => result

end Host
end MergeDecoration
