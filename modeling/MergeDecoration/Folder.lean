import MergeDecoration.Fault
import MergeDecoration.Text.Blank
import MergeDecoration.Text.Cut

/-!
The files of a folder and of the folders in it. A folder exists as long as a file is in it.
-/
namespace MergeDecoration

inductive Entry
  | missing
  | folder
  | file (content : List UInt8)
  deriving DecidableEq

/-- Files by the names on the way to them. -/
structure Folder where
  files : List (List String × List UInt8) := []

namespace Folder

def ofTexts (files : List (String × List UInt8)) : Folder :=
  ⟨files.map fun (path, content) =>
    ((Text.pieces '/' path.toList).map String.ofList, content)⟩

def entry (f : Folder) (place : List String) : Entry :=
  match f.files.lookup place with
  | some content => .file content
  | none => if place.isEmpty || f.files.any (place.isPrefixOf ·.1) then .folder else .missing

/-- Names that lead nowhere else, or back. -/
def isStep (name : String) : Bool := name == "" || name == "." || name == ".."

/-- Where names lead from a place. Nothing is known of what lies outside the folder. -/
def walk (f : Folder) (place : List String) : List String → Except FileFault Entry
  | [] => .ok (f.entry place)
  | name :: rest =>
    if f.entry place != .folder then .ok .missing
    else if name == "" || name == "." then f.walk place rest
    else if name == ".." then
      if place.isEmpty then .ok (if rest.all isStep then .folder else .missing)
      else f.walk place.dropLast rest
    else if 255 < name.utf8ByteSize then .error .nameTooLong
    else f.walk (place ++ [name]) rest

def names (path : String) : List String := (Text.pieces '/' path.toList).map String.ofList

/-- What a path names, slash by slash. -/
def at? (f : Folder) (path : String) : Except FileFault Entry :=
  if path = "" then .ok .missing
  else if path.front = '/' then .ok (if (names path).all isStep then .folder else .missing)
  else f.walk [] (names path)

/-- A path without empty names and names of the same place, which may lead to a file as well. -/
def tidy (path : String) : String :=
  let ns := (names path).filter fun n => n != "" && n != "."
  let body := "/".intercalate ns
  if path.startsWith "/" then "/" ++ body else if body = "" then "." else body

/-- The text of a file, in UTF-8 with any kind of line ends; none if there is no such file. -/
def readText (f : Folder) (path : String) : Except Fault (Option String) := do
  match ← (f.at? (tidy path)).mapError Fault.file with
  | .missing => return none
  | .folder => throw (.file .isFolder)
  | .file content =>
    let cs ← (Text.Utf8.decode content).mapError Fault.malformedText
    return some (String.ofList (Text.unifyNewlines cs))

/-- Put a text into a file. -/
def writeText (f : Folder) (path : List String) (text : String) : Except Fault Folder :=
  let content := Text.Utf8.encode text.toList
  match f.entry path with
  | .folder => .error (.file .isFolder)
  | .file _ => .ok ⟨f.files.map fun e => if e.1 == path then (path, content) else e⟩
  | .missing => .ok ⟨f.files ++ [(path, content)]⟩

/-- Whether files can be put into the folder of the given names, made where it is missing. -/
def checkFolder (f : Folder) (place : List String) : Except Fault PUnit :=
  if f.files.any fun e => e.1.isPrefixOf place && e.1 != place then .error (.file .notFolder)
  else match f.entry place with
    | .file _ => .error (.file .exists)
    | _ => .ok ⟨⟩

end Folder
end MergeDecoration
