import MergeDecoration.Step
import MergeDecoration.Text.Utf8
import MergeDecoration.Value.Shown

/-!
Everything that can stop the program, as causes; the wording of each is in `message`.
-/
namespace MergeDecoration

/-- What a value of the wrong kind was asked for. -/
inductive Misuse
  | fieldOf (kind : String)
  | fieldOfText
  | fieldOfList
  | itemsOf (kind : String)
  | textOf (kind : String)
  | keyFrom (kind : String)
  | numberFrom (kind : String)
  | textFromBytes
  | timestampFrom (kind : String)
  | headOf (kind : String)
  | wordOf (kind : String)
  deriving DecidableEq

def Misuse.message : Misuse → String
  | .fieldOf kind => s!"'{kind}' object is not subscriptable"
  | .fieldOfText => "string indices must be integers, not 'str'"
  | .fieldOfList => "list indices must be integers or slices, not str"
  | .itemsOf kind => s!"'{kind}' object is not iterable"
  | .textOf kind => s!"expected str instance, {kind} found"
  | .keyFrom kind => s!"unhashable type: '{kind}'"
  | .numberFrom kind => s!"a number is needed, not '{kind}'"
  | .textFromBytes => "a bytes-like object is required, not 'str'"
  | .timestampFrom kind => s!"a text is needed for a timestamp, not '{kind}'"
  | .headOf kind => s!"'{kind}' object is not subscriptable"
  | .wordOf kind => s!"expected str, bytes or os.PathLike object, not {kind}"

/-- Where and why a text is no JSON. -/
inductive JsonSyntax
  | byteOrderMark
  | value
  | propertyName
  | colon
  | comma
  | extraData
  | unterminatedString
  | controlCharacter
  | escape
  | unicodeEscape
  deriving DecidableEq

def JsonSyntax.message : JsonSyntax → String
  | .byteOrderMark => "Unexpected UTF-8 BOM (decode using utf-8-sig)"
  | .value => "Expecting value"
  | .propertyName => "Expecting property name enclosed in double quotes"
  | .colon => "Expecting ':' delimiter"
  | .comma => "Expecting ',' delimiter"
  | .extraData => "Extra data"
  | .unterminatedString => "Unterminated string starting at"
  | .controlCharacter => "Invalid control character at"
  | .escape => "Invalid \\escape"
  | .unicodeEscape => "Invalid \\uXXXX escape"

structure JsonFault where
  problem : JsonSyntax
  line : Nat
  column : Nat
  offset : Nat
  deriving DecidableEq

def JsonFault.message (f : JsonFault) : String :=
  s!"{f.problem.message}: line {f.line} column {f.column} (char {f.offset})"

/-- A part of a date or of a time that is out of range. -/
inductive CalendarFault
  | year (n : Nat)
  | month
  | day
  | hour
  | minute
  | second
  | offset (days seconds : Int)
  deriving DecidableEq

def CalendarFault.message : CalendarFault → String
  | .year n => s!"year {n} is out of range"
  | .month => "month must be in 1..12"
  | .day => "day is out of range for month"
  | .hour => "hour must be in 0..23"
  | .minute => "minute must be in 0..59"
  | .second => "second must be in 0..59"
  | .offset days seconds =>
    let parts := (if days = 0 then [] else [s!"days={days}"]) ++
      (if seconds = 0 then [] else [s!"seconds={seconds}"])
    "offset must be a timedelta strictly between -timedelta(hours=24) and timedelta(hours=24), " ++
      "not datetime.timedelta(" ++ ", ".intercalate parts ++ ")."

/-- Input of the right kind with an unusable value. -/
inductive Invalid
  | integer (text : String)
  | real (text : String)
  | tooManyDigits (count : Nat)
  | unwritable
  | notANumber
  | address
  | bracketedHost (host : String)
  | bracketedVersion
  | bracketedDotted
  | authority (text : String)
  | pairLength (index length : Nat)
  | remoteParts
  | codePoint
  | nullInWord
  | basedInteger (base : Nat) (text : String)
  | json (fault : JsonFault)
  | reportJson (fault : JsonFault)
  | reportKind
  | projectKey
  | qualityGate (value : Value)
  | coverage (value : Value)
  | issueKey (entry : Value)
  | issueStatus (key value : Value)
  | issueLine (value : Value)
  | calendar (fault : CalendarFault)

def Invalid.message : Invalid → String
  | .integer text =>
    let shown := Text.quoted text
    "invalid literal for int() with base 10: " ++ String.ofList (shown.toList.take 200)
  | .real text => "could not convert string to float: " ++ Text.quoted text
  | .tooManyDigits count =>
    "Exceeds the limit (4300 digits) for integer string conversion: value has " ++ toString count ++
      " digits; use sys.set_int_max_str_digits() to increase the limit"
  | .unwritable =>
    "Exceeds the limit (4300 digits) for integer string conversion; " ++
      "use sys.set_int_max_str_digits() to increase the limit"
  | .notANumber => "cannot convert float NaN to integer"
  | .address => "Invalid IPv6 URL"
  | .bracketedHost host => Text.quoted host ++ " does not appear to be an IPv4 or IPv6 address"
  | .bracketedVersion => "IPvFuture address is invalid"
  | .bracketedDotted => "An IPv4 address cannot be in brackets"
  | .authority text =>
    s!"netloc '{text}' contains invalid characters under NFKC normalization"
  | .pairLength index length =>
    s!"dictionary update sequence element #{index} has length {length}; 2 is required"
  | .remoteParts => "not enough values to unpack (expected 2, got 1)"
  | .codePoint => "chr() arg not in range(0x110000)"
  | .nullInWord => "embedded null byte"
  | .basedInteger base text =>
    s!"invalid literal for int() with base {base}: " ++
      String.ofList ((Text.quoted text).toList.take 200)
  | .json fault => fault.message
  | .reportJson fault => "Analysis report is not valid JSON: " ++ fault.message
  | .reportKind => "Analysis report must be a JSON object."
  | .projectKey => "Analysis report is missing 'project_key'."
  | .qualityGate value => "Unknown quality_gate: " ++ value.quoted
  | .coverage value => "Invalid new_coverage: " ++ value.quoted
  | .issueKey given => "Issue entry without a key: " ++ given.quoted
  | .issueStatus key value => s!"Unknown status for issue {key.shown}: {value.quoted}"
  | .issueLine value => "Invalid line: " ++ value.quoted
  | .calendar fault => fault.message

/-- How a command line can be wrong. -/
inductive Usage
  | noArguments
  | noSuchOption (name : String) (similar : List String)
  | noSuchCommand (name : String) (similar : List String)
  | missingCommand
  | missingOption (name : String)
  | badValue (option : String) (reason : String)
  | badOption (reason : String)
  | extraArguments (arguments : List String)
  | noToken
  deriving DecidableEq

/-- What was perhaps meant instead. -/
private def suggestion : List String → String
  | [] => ""
  | [one] => " Did you mean '" ++ one ++ "'?"
  | many =>
    let names := (many.mergeSort (fun a b => decide (a ≤ b))).map fun n => "'" ++ n ++ "'"
    " (Did you mean one of: " ++ ", ".intercalate names ++ "?)"

def Usage.message : Usage → String
  | .noArguments => "Usage: mrdecor [OPTIONS] COMMAND [ARGS]..."
  | .noSuchOption name similar =>
    "No such option " ++ Text.quoted name ++ "." ++ suggestion similar
  | .noSuchCommand name similar =>
    "No such command " ++ Text.quoted name ++ "." ++ suggestion similar
  | .missingCommand => "Missing command."
  | .missingOption name => "Missing option '" ++ name ++ "'."
  | .badValue option reason => "Invalid value for '" ++ option ++ "': " ++ reason
  | .badOption reason => reason
  | .extraArguments [one] => "Got unexpected extra argument (" ++ one ++ ")"
  | .extraArguments arguments =>
    "Got unexpected extra arguments (" ++ " ".intercalate arguments ++ ")"
  | .noToken =>
    "No GitLab token found. Set GITLAB_TOKEN or run `glab auth login` first.\n" ++
      "Create a token with the 'api' scope under User Settings → Access Tokens."

/-- Why a command did not run to its end. -/
inductive StartFault
  | missing
  | forbidden
  | failed
  | timedOut (seconds : Nat)
  deriving DecidableEq

/-- What goes wrong around a command, whatever the command does. -/
inductive CallFault
  /-- A word is of a kind that is no text. -/
  | word (kind : String)
  /-- A word holds the null character. -/
  | null
  /-- What the command printed is no text. -/
  | output (cause : Text.Utf8.Fault)
  deriving DecidableEq

/-- What stands in the way of reading or writing a file. -/
inductive FileFault
  | isFolder
  | notFolder
  | exists
  | nameTooLong
  deriving DecidableEq

inductive Fault
  /-- A value has the wrong kind for what is done with it. -/
  | misuse (cause : Misuse)
  /-- A value of its kind has no such operation. -/
  | noOperation
  | missingField (name : String)
  /-- There is no first character. -/
  | outOfBounds
  | outOfRange
  | invalid (cause : Invalid)
  | malformedText (cause : Text.Utf8.Fault)
  /-- Bytes beyond ASCII stand where text is needed. -/
  | nonAscii
  /-- Collections lie too deep inside each other, or go round in a circle. -/
  | tooDeep
  | missingReport (path : String)
  | file (cause : FileFault)
  /-- A command of this name was started. -/
  | start (cause : StartFault) (command : String)
  /-- The review platform did not answer as it should. -/
  | transport (message : String)
  /-- The run was given up at a step; what it wrote before stays. -/
  | decoration (step : Step) (cause : Fault)
  | yaml
  | usage (cause : Usage)
  /-- The run was given up with a message for the user. -/
  | givenUp (message : String)
  | aborted

def CallFault.fault : CallFault → Fault
  | .word kind => .misuse (.wordOf kind)
  | .null => .invalid .nullInWord
  | .output cause => .malformedText cause

/-- The text of a fault as part of a larger message. -/
def Fault.message : Fault → String
  | .misuse cause => cause.message
  | .missingField name => Text.quoted name
  | .invalid cause => cause.message
  | .malformedText cause => cause.message
  | .missingReport path => "Analysis report not found: " ++ path
  | .start (.timedOut seconds) name => s!"Command '{name}' timed out after {seconds} seconds"
  | .start _ name => name
  | .transport message => message
  | .decoration step _ => step.message
  | .usage cause => cause.message
  | .givenUp message => message
  | _ => ""

end MergeDecoration
