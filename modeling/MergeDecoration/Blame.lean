import MergeDecoration.Host

/-!
The commit that last touched a line of a working copy, as `git blame` tells it.
-/
namespace MergeDecoration.Blame

/-- What stands for changes that are not committed. -/
def uncommitted : String := String.ofList (List.replicate 40 '0')

def seconds : Nat := 30

def invocation (root : String) (path : Value) (line : Int) : Invocation where
  words := ["git", "blame", "--porcelain", "-L", s!"{line},{line}", "--"].map .text ++ [path]
  seconds
  folder := some root

/-- The commit named first in the output; none for uncommitted changes. -/
def changeset? (output : String) : Option String :=
  match Text.firstWord (String.ofList (output.toList.takeWhile (· != '\n'))) with
  | "" => none
  | sha => if sha == uncommitted then none else some sha

/-- The commit that last touched a line, none if that cannot be told. -/
def find (root : String) (path : Value) (line : Int) : Action (Option String) := do
  match ← Host.start (invocation root path line) with
  | .error cause =>
    let reason := (Fault.start cause "git").message
    Host.debug s!"git blame failed for {path.shown}:{line}: {reason}"
    return none
  | .ok f =>
    if f.code != 0 then
      Host.debug s!"git blame exited {f.code} for {path.shown}:{line}: {Text.trim f.errors}"
      return none
    else return changeset? f.output

end MergeDecoration.Blame
