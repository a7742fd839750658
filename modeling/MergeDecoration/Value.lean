import MergeDecoration.Number.Binary64

/-!
Values of data files. Reports are JSON, configuration is YAML; what either holds is a `Value`, and
fields that the program only passes on stay values.
-/
namespace MergeDecoration

structure Date where
  year : Nat
  month : Nat
  day : Nat
  deriving DecidableEq

/-- A date with a time of day, and the offset from universal time in seconds if it has one. -/
structure Moment where
  date : Date
  hour : Nat
  minute : Nat
  second : Nat
  microsecond : Nat
  offset : Option Int
  deriving DecidableEq

/-- The days from the first day of the year 1 to a date. -/
def Date.dayNumber (d : Date) : Nat :=
  let isLeap := d.year % 4 = 0 ∧ (d.year % 100 ≠ 0 ∨ d.year % 400 = 0)
  let before := [0, 31, 59, 90, 120, 151, 181, 212, 243, 273, 304, 334].getD (d.month - 1) 0
  let y := d.year - 1
  365 * y + y / 4 - y / 100 + y / 400 + before + (if isLeap ∧ 2 < d.month then 1 else 0) +
    (d.day - 1)

/-- The microseconds from the start of the year 1 to a moment, by the clock of its own zone. -/
def Moment.clock (m : Moment) : Nat :=
  (((m.date.dayNumber * 24 + m.hour) * 60 + m.minute) * 60 + m.second) * 1000000 + m.microsecond

/-- Whether two moments are the same: by universal time if both have an offset. -/
def Moment.same (a b : Moment) : Bool :=
  match a.offset, b.offset with
  | none, none => a.clock == b.clock
  | some x, some y => (a.clock : Int) - 1000000 * x == b.clock - 1000000 * y
  | _, _ => false

/-- Mappings keep the order in which their keys came. Pairs and sets come from YAML alone. -/
inductive Value
  | null
  | bool (b : Bool)
  | int (i : Int)
  | float (x : Binary64)
  | text (s : String)
  | bytes (bs : List UInt8)
  | date (d : Date)
  | moment (m : Moment)
  | list (items : List Value)
  | pair (first second : Value)
  | set (members : List Value)
  | map (entries : List (Value × Value))
  /-- A list or a mapping at a place inside itself. -/
  | itself (isMap : Bool)
  deriving Inhabited

namespace Value

/-- The name messages give to the kind of a value. -/
def kind : Value → String
  | null => "NoneType"
  | bool _ => "bool"
  | int _ => "int"
  | float _ => "float"
  | text _ => "str"
  | bytes _ => "bytes"
  | date _ => "datetime.date"
  | moment _ => "datetime.datetime"
  | list _ => "list"
  | pair .. => "tuple"
  | set _ => "set"
  | map _ => "dict"
  | itself isMap => if isMap then "dict" else "list"

/-- Null, false, zero and whatever is empty do not hold. -/
def holds : Value → Bool
  | null => false
  | bool b => b
  | int i => i != 0
  | float x => !x.isZero
  | text s => s != ""
  | bytes bs => !bs.isEmpty
  | date _ | moment _ | pair .. | itself _ => true
  | list xs | set xs => !xs.isEmpty
  | map es => !es.isEmpty

def isNull : Value → Bool
  | null => true
  | _ => false

/-- The first value if it holds, and the second otherwise. -/
def orElse (v w : Value) : Value := if v.holds then v else w

/-- Numbers as they compare with each other: truth values count as one and zero. -/
private def sameNumber : Value → Value → Option Bool
  | .bool a, .bool b => some (a == b)
  | .bool a, .int j => some (cond a 1 0 == j)
  | .int i, .bool b => some (i == cond b 1 0)
  | .int i, .int j => some (i == j)
  | .float x, .float y => some (x.sameValue y)
  | .float x, .int j => some (x.isInt j)
  | .int i, .float y => some (y.isInt i)
  | .float x, .bool b => some (x.isInt (cond b 1 0))
  | .bool a, .float y => some (y.isInt (cond a 1 0))
  | _, _ => none

mutual

/-- Equality of values: numbers by magnitude, mappings and sets without regard to order. -/
def same : Value → Value → Bool
  | .null, .null => true
  | .text s, .text t => s == t
  | .bytes a, .bytes b => a == b
  | .date a, .date b => a == b
  | .moment a, .moment b => a.same b
  | .list xs, .list ys => sameItems xs ys
  | .pair a b, .pair c d => a.same c && b.same d
  | .set xs, .set ys => xs.length == ys.length && allWithin xs ys
  | .map xs, .map ys => xs.length == ys.length && entriesWithin xs ys
  | v, w => (sameNumber v w).getD false

def sameItems : List Value → List Value → Bool
  | [], [] => true
  | x :: xs, y :: ys => x.same y && sameItems xs ys
  | _, _ => false

def allWithin : List Value → List Value → Bool
  | [], _ => true
  | x :: xs, ys => ys.any (fun y => x.same y) && allWithin xs ys

def entriesWithin : List (Value × Value) → List (Value × Value) → Bool
  | [], _ => true
  | (k, v) :: xs, ys => ys.any (fun e => k.same e.1 && v.same e.2) && entriesWithin xs ys

end

@[simp] theorem same_text (s t : String) : same (.text s) (.text t) = (s == t) := by
  simp [same]

/-- Whether two values are the same key. A key without a number is told apart by its bits. -/
def sameKey : Value → Value → Bool
  | .float x, .float y => x.sameValue y || (x.isNaN && x == y)
  | v, w => v.same w

@[simp] theorem sameKey_text (s t : String) : sameKey (.text s) (.text t) = (s == t) := by
  simp [sameKey]

/-- Whether a value may be a key: lists, sets and mappings may not. -/
def isKey : Value → Bool
  | list _ | set _ | map _ | itself _ => false
  | pair a b => a.isKey && b.isKey
  | _ => true

/-- The value stored under a key. -/
def find? (entries : List (Value × Value)) (key : Value) : Option Value :=
  (entries.find? fun e => e.1.sameKey key).map (·.2)

/-- Store a value under a key: in the key's place if it has one, at the end otherwise. -/
def store : List (Value × Value) → Value → Value → List (Value × Value)
  | [], k, v => [(k, v)]
  | (k', v') :: rest, k, v => if k'.sameKey k then (k', v) :: rest else (k', v') :: store rest k v

/-- Store all entries of the second list into the first. -/
def storeAll (entries more : List (Value × Value)) : List (Value × Value) :=
  more.foldl (fun es e => store es e.1 e.2) entries

/-- A field of a mapping. -/
def field? (entries : List (Value × Value)) (name : String) : Option Value :=
  find? entries (.text name)

/-- A field of a mapping, null where it is missing. -/
def field (entries : List (Value × Value)) (name : String) : Value :=
  (field? entries name).getD .null

end Value
end MergeDecoration
