import MergeDecoration.Host
import MergeDecoration.Text.Case

/-!
Questions to the user, answered with a line each.
-/
namespace MergeDecoration.CommandLine

/-- Ask once; an empty answer stands for the fallback, if there is one. -/
def askOnce (question : String) (fallback : Option String) : Action (Option String) := do
  Host.say question
  match ← Host.readLine with
  | "" => return fallback
  | answer => return some answer

/-- Ask until there is an answer. -/
def askUntil (question : String) (fallback : Option String) : Nat → Action String
  | 0 => do
    match ← askOnce question fallback with
    | some answer => return answer
    | none => throw .aborted
  | fuel + 1 => do
    match ← askOnce question fallback with
    | some answer => return answer
    | none => askUntil question fallback fuel

/-- Ask for a text. -/
def ask (question : String) (fallback : Option String := none) : Action String := do
  let shown := (fallback.map fun f => " [" ++ f ++ "]").getD ""
  askUntil (question ++ shown ++ ": ") fallback (← get).typed.length

/-- What an answer means: yes, no, the fallback, or nothing. -/
def decision? (answer : String) (fallback : Bool) : Option Bool :=
  let word := Text.trim (Text.lower answer)
  if word == "y" || word == "yes" then some true
  else if word == "n" || word == "no" then some false
  else if word == "" then some fallback
  else none

/-- Ask once for yes or no. -/
def confirmOnce (question : String) (fallback : Bool) : Action (Option Bool) := do
  Host.say question
  return decision? (← Host.readLine) fallback

/-- Ask for yes or no until the answer is one of them. -/
def confirmUntil (question : String) (fallback : Bool) : Nat → Action Bool
  | 0 => do
    match ← confirmOnce question fallback with
    | some b => return b
    | none => throw .aborted
  | fuel + 1 => do
    match ← confirmOnce question fallback with
    | some b => return b
    | none => do
      Host.say "Error: invalid input\n"
      confirmUntil question fallback fuel

/-- Ask for yes or no. -/
def confirm (question : String) (fallback : Bool) : Action Bool := do
  let choice := if fallback then "Y/n" else "y/N"
  confirmUntil (question ++ " [" ++ choice ++ "]: ") fallback (← get).typed.length

end MergeDecoration.CommandLine
