import MergeDecoration.Value.Convert

/-!
Discussions of a merge request as the review platform reports them. Ids, names and bodies are the
values it sent; the program compares, shows and hands them back.
-/
namespace MergeDecoration

structure User where
  username : Value
  id : Value := .null

structure Note where
  id : Value
  author : User
  body : Value
  resolvable : Bool := false
  system : Bool := false
  resolved : Bool := false

/-- A discussion with its notes in the order of their creation. -/
structure Discussion where
  id : Value
  notes : List Note := []

namespace Note

def isBy (n : Note) (username : Value) : Bool := n.author.username.same username

end Note

namespace Discussion

/-- A discussion is resolved if its first note is: that one stands for the thread. -/
def resolved (d : Discussion) : Bool :=
  match d.notes with
  | [] => false
  | first :: _ => first.resolvable && first.resolved

/-- Notes after the first that are no system messages. -/
def replies (d : Discussion) : List Note := d.notes.tail.filter (!·.system)

/-- Whether the user wrote, after the first note, one whose trimmed body satisfies `p`. -/
def hasLaterNote (d : Discussion) (username : Value) (p : String → Bool) : Except Fault Bool :=
  d.notes.tail.anyM fun n => do
    if n.isBy username then return p (Text.trim (← n.body.textOperand)) else return false

/-- Whether the user wrote the text as a later note. -/
def hasNote (d : Discussion) (username : Value) (text : String) : Except Fault Bool :=
  d.hasLaterNote username (· == text)

end Discussion
end MergeDecoration
