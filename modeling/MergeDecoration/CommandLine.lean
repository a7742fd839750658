import MergeDecoration.CommandLine.Discussions
import MergeDecoration.CommandLine.Init

/-!
The command line as a whole. The options in front of the command are read first, then the settings
and the token, and then the options of the command.
-/
namespace MergeDecoration.CommandLine

def params : List Param :=
  [.long "--version" (.flag true), .long "--config",
    ⟨"--verbose", [("--verbose", .flag true), ("-v", .flag true)]⟩, .long "--help" (.flag true)]

def commands : List (String × (Config → List String → Action PUnit)) :=
  [("decorate", Decorate.run), ("discussions", Discussions.run), ("init", fun _ => Init.run)]

def usageLine : String := "Usage: mrdecor [OPTIONS] COMMAND [ARGS]...\n"

/-- The settings with the token that was found. -/
def settings (path : String) : Action Config := do
  let c ← Config.load path
  match ← Token.resolve (c.get "gitlab_url") with
  | some token => return c.set "gitlab_token" (.text token)
  | none => return c

/-- Options that end the command when they are read; true if there was one. -/
def answersAtOnce (p : Parsed) : Action Bool := do
  match p.given.find? fun g => g.1 == "--version" || g.1 == "--help" with
  | none => return false
  | some (key, _) => do
    Host.say (if key == "--version" then "mrdecor, version " ++ Init.version ++ "\n" else usageLine)
    return true

/-- A word that looks like an option where the command should be. -/
def looksLikeOption (word : String) : Bool :=
  match word.toList with
  | c :: _ => !c.isAlphanum
  | [] => false

def run (words : List String) : Action PUnit := do
  if words.isEmpty then throw (.usage .noArguments)
  let given ← (parse params false words).mapError Fault.usage
  if ← answersAtOnce given then return
  match given.rest with
  | [] => throw (.usage .missingCommand)
  | name :: rest =>
    match commands.lookup name with
    | none =>
      if looksLikeOption name then
        let again ← (parse params false given.rest).mapError Fault.usage
        if ← answersAtOnce again then return
      throw (.usage (.noSuchCommand name (Similar.among (commands.map (·.1)) name)))
    | some command =>
      modify fun h => { h with verbose := given.has "--verbose" }
      let named ← Host.filled? "MRDECOR_CONFIG"
      let path := ((given.value? "--config").or named).getD Config.fileName
      command (← settings path) rest

end MergeDecoration.CommandLine
