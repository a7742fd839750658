import MergeDecoration.Text.Cut
import MergeDecoration.Text.Hex

/-!
Hosts in brackets: internet addresses of version 6, with a zone after `%` if any, and addresses of
later versions.
-/
namespace MergeDecoration.HostLiteral

private def isDecimalByte (s : List Char) : Bool :=
  !s.isEmpty && s.all Char.isDigit && s.length ≤ 3 && (s.length == 1 || s.head? != some '0') &&
    s.foldl (fun n c => 10 * n + (c.toNat - 48)) 0 ≤ 255

/-- Four decimal bytes. -/
def isDotted (s : List Char) : Bool :=
  let parts := Text.pieces '.' s
  parts.length == 4 && parts.all isDecimalByte

private def isHexGroup (s : List Char) : Bool :=
  !s.isEmpty && s.length ≤ 4 && s.all Text.isHexDigit

/-- The groups between colons, with a dotted tail taken as two groups. -/
private def groups? (s : List Char) : Option (List (List Char)) :=
  let parts := Text.pieces ':' s
  match parts.getLast? with
  | some tail =>
    if parts.length < 3 then none
    else if tail.contains '.' then
      if isDotted tail then some (parts.dropLast ++ [['0'], ['0']]) else none
    else some parts
  | none => none

/-- Eight groups, or fewer around one `::`. -/
private def areGroups (parts : List (List Char)) : Bool :=
  let inner := (parts.drop 1).dropLast
  if parts.length > 9 then false
  else match inner.filter (·.isEmpty) with
    | [] => parts.length == 8 && parts.all isHexGroup
    | [_] =>
      let high := parts.take ((inner.takeWhile (!·.isEmpty)).length + 1)
      let low := parts.drop (high.length + 1)
      let high' := if high.head? == some [] then high.drop 1 else high
      let low' := if low.getLast? == some [] then low.dropLast else low
      (high'.length == high.length || high'.isEmpty) &&
        (low'.length == low.length || low'.isEmpty) &&
        high'.length + low'.length < 8 && high'.all isHexGroup && low'.all isHexGroup
    | _ => false

/-- An address of version 6. -/
def isColoned (s : List Char) : Bool :=
  match Text.cutFirst '%' s with
  | (body, zone) =>
    let zoneOk := match zone with
      | none => true
      | some z => !z.isEmpty && !z.contains '%'
    zoneOk && match groups? body with
      | some parts => areGroups parts
      | none => false

/-- `v`, hexadecimal digits, a point and anything without line feeds. -/
def isVersioned (s : List Char) : Bool :=
  match s with
  | 'v' :: rest =>
    let digits := rest.takeWhile Text.isHexDigit
    match rest.drop digits.length with
    | '.' :: tail => !digits.isEmpty && !tail.isEmpty && !tail.contains '\n'
    | _ => false
  | _ => false

end MergeDecoration.HostLiteral
