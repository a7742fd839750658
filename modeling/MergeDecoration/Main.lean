import MergeDecoration.CommandLine

/-!
The program. It hands its words, its variables, the lines typed and the files within reach to the
command line, and shows and writes what comes of it. No other command is started and no server is
reached from here: whatever asks for one gets no answer.
-/
namespace MergeDecoration.CommandLine

def variableNames : List String := [Token.variableName, "MRDECOR_GITLAB_URL", "MRDECOR_CONFIG"]

/-- The paths that a run may read: those among its words, behind an equals sign or not, and in its
variables, and the files that it may replace. -/
def pathsWithin (words : List String) (environment : List (String × String)) : List String :=
  let named := words.flatMap fun w =>
    [w, String.ofList ((w.toList.dropWhile (· != '=')).drop 1)]
  ([Config.fileName, "/".intercalate (Init.jobFolder ++ ["mrdecor.yml"])] ++ named ++
    environment.map (·.2)).map Folder.tidy |>.eraseDups

/-- Text of what the user gets to see. -/
def textOf : Shown → String
  | .said text => text
  | .line text => text ++ "\n"
  | .table t => String.join (([t.title] :: t.columns :: t.rows).map fun cells =>
      "  ".intercalate cells ++ "\n")

/-- Wrong command lines end with 2, other faults with 1. -/
def exitCode : Fault → UInt32
  | .usage _ => 2
  | _ => 1

private partial def readLines (stream : IO.FS.Stream) : IO (List String) := do
  let line ← stream.getLine
  if line.isEmpty then return []
  return String.ofList (Text.dropTailWhile (fun c => c == '\n' || c == '\r') line.toList) ::
    (← readLines stream)

private def readBytes? (path : String) : IO (Option (List UInt8)) := do
  try
    return some (← IO.FS.readBinFile path).toList
  catch _ => return none

private def writeBytes (place : List String) (content : List UInt8) : IO Unit := do
  if 1 < place.length then IO.FS.createDirAll ("/".intercalate place.dropLast)
  IO.FS.writeBinFile ("/".intercalate place) ⟨content.toArray⟩

/-- Run a command line on this machine. -/
def execute (words : List String) : IO UInt32 := do
  let environment ← variableNames.filterMapM fun name => do
    return (← IO.getEnv name).map fun value => (name, value)
  let files ← (pathsWithin words environment).filterMapM fun path => do
    return (← readBytes? path).map fun content => (path, content)
  let typed ← if words.contains "init" then readLines (← IO.getStdin) else pure []
  let folder := Folder.ofTexts files
  let (result, host) := run words { environment, folder, typed }
  for shown in host.shown do IO.print (textOf shown)
  for r in host.reported do IO.eprintln r.message
  for (place, content) in host.folder.files do
    if !folder.files.contains (place, content) then writeBytes place content
  match result with
  | .ok _ => return 0
  | .error f =>
    IO.eprintln ("Error: " ++ f.message)
    return exitCode f

end MergeDecoration.CommandLine

def main (words : List String) : IO UInt32 := MergeDecoration.CommandLine.execute words
