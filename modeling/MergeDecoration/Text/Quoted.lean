import MergeDecoration.Text.Edges
import MergeDecoration.Text.Hex
import MergeDecoration.Text.PrintableTable

/-!
Texts in quotes, as messages show them: single quotes unless only double ones save escapes,
and an escape for every character that cannot be printed.
-/
namespace MergeDecoration.Text

def isPrintable (c : Char) : Bool :=
  if c.toNat < 0x80 then 32 ≤ c.toNat && c.toNat < 127 else withinEdges printableEdges c.toNat

/-- One character between quotes `q`. -/
def escapeIn (q c : Char) : List Char :=
  if c = q ∨ c = '\\' then ['\\', c]
  else if c = '\t' then ['\\', 't']
  else if c = '\n' then ['\\', 'n']
  else if c = '\r' then ['\\', 'r']
  else if isPrintable c then [c]
  else if c.toNat < 0x100 then '\\' :: 'x' :: hexDigits 2 c.toNat
  else if c.toNat < 0x10000 then '\\' :: 'u' :: hexDigits 4 c.toNat
  else '\\' :: 'U' :: hexDigits 8 c.toNat

def quotedChars (s : List Char) : List Char :=
  let q := if s.contains '\'' && !s.contains '"' then '"' else '\''
  q :: s.flatMap (escapeIn q) ++ [q]

def quoted (s : String) : String := String.ofList (quotedChars s.toList)

end MergeDecoration.Text
