import MergeDecoration.Text.Blank

/-!
Text for a console that takes words in square brackets for styles.
-/
namespace MergeDecoration.Text

/-- Whether a bracket before this character opens a style. -/
def opensStyle (c : Char) : Bool := ('a' ≤ c && c ≤ 'z') || c == '#' || c == '/' || c == '@'

/-- Whether what follows a bracket makes it the start of a style: a first character that opens one
and a closing bracket behind it, before any other bracket opens. -/
def isStyle : List Char → Bool
  | [] => false
  | c :: rest => opensStyle c && (rest.dropWhile fun d => d != '[' && d != ']').head? == some ']'

/-- Put a backslash before each bracket that starts a style, and double those already there;
`slashes` counts the backslashes just read. -/
def escapeStyles (slashes : Nat) : List Char → List Char
  | [] => List.replicate slashes '\\'
  | '\\' :: rest => escapeStyles (slashes + 1) rest
  | '[' :: rest =>
    List.replicate (if isStyle rest then 2 * slashes + 1 else slashes) '\\' ++
      '[' :: escapeStyles 0 rest
  | c :: rest => List.replicate slashes '\\' ++ c :: escapeStyles 0 rest

/-- The text with no style in it; a single backslash at the end is doubled. -/
def escapeMarkup (s : String) : String :=
  let cs := escapeStyles 0 s.toList
  String.ofList (match cs.reverse with
    | '\\' :: '\\' :: _ => cs
    | '\\' :: _ => cs ++ ['\\']
    | _ => cs)

end MergeDecoration.Text
