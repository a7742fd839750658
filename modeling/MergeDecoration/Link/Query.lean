import MergeDecoration.Link.PercentCode
import MergeDecoration.Text.Cut

/-!
Queries of addresses: fields `name=value` joined by `&`. Fields with an empty value are not read.
-/
namespace MergeDecoration.Query

def writeField (name value : List Char) : List Char :=
  PercentCode.encodeField name ++ '=' :: PercentCode.encodeField value

def write (fields : List (String × String)) : List Char :=
  ['&'].intercalate (fields.map fun f => writeField f.1.toList f.2.toList)

def readField? (piece : List Char) : Option (List Char × List Char) :=
  match Text.cutFirst '=' piece with
  | (_, none) | (_, some []) => none
  | (name, some value) => some (PercentCode.decodeField name, PercentCode.decodeField value)

def read (query : List Char) : List (List Char × List Char) :=
  (Text.pieces '&' query).filterMap readField?

/-- The first value that a query has for a name. -/
def lookup? (query : List Char) (name : String) : Option (List Char) :=
  ((read query).find? (·.1 == name.toList)).map (·.2)

end MergeDecoration.Query
