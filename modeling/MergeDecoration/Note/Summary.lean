import MergeDecoration.Note.Issue
import MergeDecoration.Number.Decimal

/-!
The summary note of a merge request: the gate, the counts of open issues by type and severity, and
the issues that no line discussion can show.
-/
namespace MergeDecoration

def severities : List String := ["BLOCKER", "CRITICAL", "MAJOR", "MINOR", "INFO"]

/-- What is kept under names, in the order in which the names came up. -/
abbrev Tally (α : Type) := List (String × α)

/-- Change what is kept under a name. A new name comes last, with the change of `start`. -/
def Tally.alter {α : Type} (start : α) (change : α → α) (name : String) : Tally α → Tally α
  | [] => [(name, change start)]
  | (other, x) :: rest =>
    if other = name then (name, change x) :: rest
    else (other, x) :: Tally.alter start change name rest

namespace Tally

/-- Nothing counted yet under the severities of the table. -/
def noCounts : Tally Nat := severities.map (·, 0)

/-- Nothing counted yet under the four known types. -/
def noTypes : Tally (Tally Nat) := typeLabels.map fun e => (e.1, noCounts)

/-- Count one issue more of a severity. -/
def addSeverity (counts : Tally Nat) (i : Issue) : Tally Nat :=
  alter 0 (· + 1) (Text.upper i.severity) counts

/-- Count an issue under its type. -/
def add (types : Tally (Tally Nat)) (i : Issue) : Tally (Tally Nat) :=
  alter noCounts (addSeverity · i) i.type types

/-- The issues counted by type and severity. -/
def ofIssues (issues : List Issue) : Tally (Tally Nat) := issues.foldl add noTypes

def total (counts : Tally Nat) : Nat := counts.foldr (fun e n => e.2 + n) 0

end Tally

/-- One row of the table of counts. Severities outside the table count in the total alone. -/
structure CountRow where
  type : String
  cells : List Nat
  total : Nat
  deriving DecidableEq

namespace CountRow

def ofCounts (type : String) (counts : Tally Nat) : CountRow :=
  { type
    cells := severities.map fun s => (counts.lookup s).getD 0
    total := counts.total }

/-- The rows of the types under which something was counted. -/
def table (issues : List Issue) : List CountRow :=
  ((Tally.ofIssues issues).filter fun e => e.2.total != 0).map fun e => ofCounts e.1 e.2

def cell (n : Nat) : String := if n = 0 then "—" else toString n

def line (r : CountRow) : String :=
  "| " ++ typeLabel r.type ++ " | " ++ " | ".intercalate (r.cells.map cell) ++ " | " ++
    toString r.total ++ " |"

end CountRow

namespace Analysis

def statistics (a : Analysis) (issues : List Issue) : String :=
  let anchored := (issues.filter fun i => i.anchor?.isSome).length
  s!"**{issues.length}** issue(s)" ++
    (if anchored = 0 then "" else s!" · **{anchored}** on changed lines") ++
    match a.newCoverage with
    | none => ""
    | some x => " · coverage on new code **" ++ x.toFixed 1 ++ "%**"

def tableLines (rows : List CountRow) : List String :=
  if rows.isEmpty then []
  else "| Type | Blocker | Critical | Major | Minor | Info | Total |" ::
    "|------|:-------:|:--------:|:-----:|:-----:|:----:|:-----:|" :: rows.map (·.line)

/-- The list entry of an issue without a line. -/
def unanchoredLine (i : Issue) : String :=
  let place := if i.path.holds then "`" ++ i.path.shown ++ "`: " else ""
  "- " ++ place ++ (i.message.orElse (.text i.key)).shown ++ " (" ++ Text.lower i.severity ++ ")"

def unanchoredLines (issues : List Issue) : List String :=
  match issues.filter (·.line.isNone) with
  | [] => []
  | is => "\n**Issues without a line number:**" :: is.map unanchoredLine

def summaryLines (a : Analysis) : List String :=
  let issues := a.openIssues
  ["## Analysis summary\n",
    if a.passed then "> **Quality Gate passed**\n" else "> **Quality Gate failed**\n",
    a.statistics issues ++ "\n"] ++
    tableLines (CountRow.table issues) ++ unanchoredLines issues ++ [""]

/-- The body of the summary note. -/
def summaryNote (a : Analysis) : Except Fault String := do
  return "\n".intercalate (a.summaryLines ++ [ViewLink.write (← a.dashboard)])

end Analysis
end MergeDecoration
