import MergeDecoration.CommandLine.Similar
import MergeDecoration.Fault

/-!
The options of a command line. A long option may have its value behind an equals sign, flags of
one letter may share a hyphen, and nothing is an option behind `--`.
-/
namespace MergeDecoration.CommandLine

/-- Whether an option takes a value or sets a flag. -/
inductive Form
  | value
  | flag (b : Bool)

/-- An option under all its names. -/
structure Param where
  key : String
  forms : List (String × Form)

/-- A long option of the given name. -/
def Param.long (name : String) (form : Form := .value) : Param := ⟨name, [(name, form)]⟩

inductive Given
  | value (text : String)
  | flag (b : Bool)

/-- The options that were given, in order, and the words that are none. -/
structure Parsed where
  given : List (String × Given) := []
  rest : List String := []

namespace Parsed

def has (p : Parsed) (key : String) : Bool := p.given.any (·.1 == key)

/-- The last value given for an option. -/
def value? (p : Parsed) (key : String) : Option String :=
  match p.given.reverse.lookup key with
  | some (.value text) => some text
  | _ => none

/-- The last setting of a flag. -/
def flag? (p : Parsed) (key : String) : Option Bool :=
  match p.given.reverse.lookup key with
  | some (.flag b) => some b
  | _ => none

end Parsed

private def allForms (params : List Param) : List (String × String × Form) :=
  params.flatMap fun p => p.forms.map fun (name, form) => (name, p.key, form)

/-- A name of one hyphen and one letter. -/
def isShort (name : String) : Bool := name.length == 2

private def needsValue {α : Type} (name : String) : Except Usage α :=
  .error (.badOption ("Option '" ++ name ++ "' requires an argument."))

/-- A long option with its value, and whether that is the next word. -/
private def readLong (name key : String) (form : Form) (attached next : Option String) :
    Except Usage (List (String × Given) × Bool) :=
  match form, attached, next with
  | .value, some text, _ => .ok ([(key, .value text)], false)
  | .value, none, some text => .ok ([(key, .value text)], true)
  | .value, none, none => needsValue name
  | .flag _, some _, _ => .error (.badOption ("Option '" ++ name ++ "' does not take a value."))
  | .flag b, none, _ => .ok ([(key, .flag b)], false)

/-- The letters behind one hyphen; one that takes a value takes the rest or the next word. -/
private def readLetters (params : List Param) (next : Option String) :
    List Char → Except Usage (List (String × Given) × Bool)
  | [] => .ok ([], false)
  | c :: rest => do
    let name := String.ofList ['-', c]
    match (allForms params).lookup name with
    | none => throw (.noSuchOption name [])
    | some (key, .flag b) =>
      let (given, usesNext) ← readLetters params next rest
      return ((key, .flag b) :: given, usesNext)
    | some (key, .value) =>
      match rest, next with
      | _ :: _, _ => return ([(key, .value (String.ofList rest))], false)
      | [], some text => return ([(key, .value text)], true)
      | [], none => needsValue name

private def readOption (params : List Param) (word : String) (next : Option String) :
    Except Usage (List (String × Given) × Bool) :=
  let cs := word.toList
  let name := String.ofList (cs.takeWhile (· != '='))
  let attached := if cs.contains '=' then some (String.ofList ((cs.dropWhile (· != '=')).drop 1))
    else none
  let forms := (allForms params).filter fun f => !isShort f.1
  match forms.lookup name with
  | some (key, form) => readLong name key form attached next
  | none =>
    if word.startsWith "--" then
      .error (.noSuchOption name (Similar.among (forms.map (·.1)) name))
    else readLetters params next (cs.drop 1)

/-- Read the words of a command line. Without `interspersed` the first word that is no option ends
the options. -/
def parse (params : List Param) (interspersed : Bool) (words : List String) :
    Except Usage Parsed :=
  match words with
  | [] => .ok {}
  | word :: rest =>
    if word == "--" then .ok { rest }
    else if word.startsWith "-" && word != "-" then do
      let (given, usesNext) ← readOption params word rest.head?
      let more ← parse params interspersed (rest.drop (cond usesNext 1 0))
      return { more with given := given ++ more.given }
    else if interspersed then do
      let more ← parse params interspersed rest
      return { more with rest := word :: more.rest }
    else .ok { rest := word :: rest }
termination_by words.length
decreasing_by all_goals simp only [List.length_cons, List.length_drop]; omega

/-- The value of an option that has to be given. -/
def Parsed.require (p : Parsed) (key : String) : Except Usage String :=
  match p.value? key with
  | some text => .ok text
  | none => .error (.missingOption key)

/-- There may be no words beside the options. -/
def Parsed.checkRest (p : Parsed) : Except Usage PUnit :=
  if p.rest.isEmpty then .ok ⟨⟩ else .error (.extraArguments p.rest)

end MergeDecoration.CommandLine
