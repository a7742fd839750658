import MergeDecoration.Text.Utf8

/-!
Percent coding of texts. Letters, digits and `_.-~` stand for themselves; every other character is
written as its UTF-8 bytes, or, in a query, as `+` if it is the space.
-/
namespace MergeDecoration.PercentCode

def isUnreserved (c : Char) : Bool := c.isAlphanum || c == '_' || c == '.' || c == '-' || c == '~'

def escapeByte (b : UInt8) : List Char :=
  ['%', Text.hexDigit (b.toNat / 16), Text.hexDigit (b.toNat % 16)]

def encodeChar (c : Char) : List Char :=
  if isUnreserved c then [c] else (Text.Utf8.encodeChar c).flatMap escapeByte

/-- A text as one segment of a path. -/
def encode (s : List Char) : List Char := s.flatMap encodeChar

/-- A text as a name or a value in a query. -/
def encodeField (s : List Char) : List Char :=
  s.flatMap fun c => if c = ' ' then ['+'] else encodeChar c

/-- A character as it stands, or an escaped byte. -/
inductive Unit
  | char (c : Char)
  | byte (b : UInt8)
  deriving DecidableEq

/-- Read the escapes; a percent sign without two hexadecimal digits stands for itself. -/
def units : List Char → List Unit
  | [] => []
  | '%' :: a :: b :: rest =>
    match Text.hexValue? a, Text.hexValue? b with
    | some h, some l => .byte (UInt8.ofNat (16 * h + l)) :: units rest
    | _, _ => .char '%' :: units (a :: b :: rest)
  | c :: rest => .char c :: units rest

/-- Decode runs of escaped bytes; `run` is the run that has begun, last byte first. -/
def joinRuns (run : List UInt8) : List Unit → List Char
  | [] => Text.Utf8.decodeLossy run.reverse
  | .byte b :: rest => joinRuns (b :: run) rest
  | .char c :: rest => Text.Utf8.decodeLossy run.reverse ++ c :: joinRuns [] rest

def decode (s : List Char) : List Char := joinRuns [] (units s)

/-- Decode a name or a value of a query. -/
def decodeField (s : List Char) : List Char :=
  decode (s.map fun c => if c = '+' then ' ' else c)

end MergeDecoration.PercentCode
