import MergeDecoration.Log
import MergeDecoration.Value.Convert

/-!
Settings. The built-in ones come first, then those of a file, those of the command line and those
of the environment; later ones win.
-/
namespace MergeDecoration

/-- Settings by name, in the order in which they came. -/
abbrev Config := List (Value × Value)

namespace Config

def defaultUrl : String := "https://gitlab.com"

def defaults : Config :=
  [(.text "gitlab_url", .text defaultUrl),
    (.text "summary_note_first", .bool false),
    (.text "summary_note_edit", .bool false),
    (.text "pipeline_id", .null),
    (.text "project_url", .null),
    (.text "server_url", .null),
    (.text "request_timeout", .int 30)]

def set (c : Config) (name : String) (v : Value) : Config := Value.store c (.text name) v

def get (c : Config) (name : String) : Value := Value.field c name

/-- The key and the value that the item at an index of a list of pairs stands for. -/
def entryOf (index : Nat) (item : Value) : Except Fault (Value × Value) := do
  match ← item.items with
  | [k, v] => if k.isKey then return (k, v) else throw (.misuse (.keyFrom k.kind))
  | xs => throw (.invalid (.pairLength index xs.length))

/-- Store what a file holds: the entries of a mapping, or the pairs of a list. -/
def update (c : Config) (file : Value) : Except Fault Config :=
  match file with
  | .map es => .ok (Value.storeAll c es)
  | v => do
    let entries ← (← v.items).zipIdx.mapM fun (item, index) => entryOf index item
    return Value.storeAll c entries

/-- Store the entries whose values are not null. -/
def applyOverrides (c : Config) (overrides : List (Value × Value)) : Config :=
  Value.storeAll c (overrides.filter fun e => !e.2.isNull)

def badPipeline (v : Value) : LogRecord :=
  ⟨.warning, "Ignoring non-numeric pipeline_id " ++ v.quoted⟩

/-- The warning that a value is ignored, if the value can be written out. -/
def ignored (v : Value) : Except Fault (Value × List LogRecord) :=
  if v.isWritable then .ok (.null, [badPipeline v]) else .error (.invalid .unwritable)

/-- The pipeline a value names, null for none, and the warning if the value is ignored. -/
def readPipeline (v : Value) : Except Fault (Value × List LogRecord) :=
  match v with
  | .null | .text "" => .ok (.null, [])
  | .bool _ => ignored v
  | v => match v.toInt with
    | .ok i => .ok (.int i, [])
    | .error (.misuse _) | .error (.invalid _) => ignored v
    | .error e => .error e

end Config
end MergeDecoration
