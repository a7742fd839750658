import MergeDecoration.Value.Shown

/-!
Writing JSON in ASCII. Values that JSON does not have are written as texts, and so are keys.
-/
namespace MergeDecoration.Json

private def unitEscape (n : Nat) : List Char := '\\' :: 'u' :: Text.hexDigits 4 n

private def escape (c : Char) : List Char :=
  let n := c.toNat
  if c = '"' ∨ c = '\\' then ['\\', c]
  else if c = '\n' then ['\\', 'n']
  else if 32 ≤ n ∧ n < 127 then [c]
  else if n < 0x10000 then unitEscape n
  else unitEscape (0xd800 + (n - 0x10000) / 0x400) ++ unitEscape (0xdc00 + (n - 0x10000) % 0x400)

def writeText (s : String) : String := String.ofList ('"' :: s.toList.flatMap escape ++ ['"'])

mutual

def write : Value → String
  | .null => "null"
  | .bool b => toString b
  | .int i => toString i
  | .float x => if x.isFinite then x.toText else if x.isNaN then "NaN"
      else if x.isNegative then "-Infinity" else "Infinity"
  | .list xs | .set xs => "[" ++ ", ".intercalate (writeItems xs) ++ "]"
  | .pair a b => "[" ++ write a ++ ", " ++ write b ++ "]"
  | .map es => "\x7b" ++ ", ".intercalate (writeEntries es) ++ "\x7d"
  | .text s => writeText s
  | v => writeText v.shown

def writeItems : List Value → List String
  | [] => []
  | x :: xs => write x :: writeItems xs

def writeEntries : List (Value × Value) → List String
  | [] => []
  | (k, v) :: es => (writeText k.shown ++ ": " ++ write v) :: writeEntries es

end

end MergeDecoration.Json
