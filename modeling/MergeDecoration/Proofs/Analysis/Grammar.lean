import Mathlib
import MergeDecoration.Proofs.Analysis.Reader
import MergeDecoration.Proofs.Number.Real
import MergeDecoration.Proofs.Value.Check

/-!
The grammar of reports. A report is checked for one thing after the other. It is read if it passes
all checks, and it is refused for the first that it fails.
-/
namespace MergeDecoration

namespace Value

variable {v : Value}

/-- Numbers with an integer part, truth values and numerals of integers. -/
def IsIntegral : Value → Prop
  | .bool _ | .int _ => True
  | .float x => x.isNaN = false ∧ x.isInfinite = false
  | .text s => Numeral.IsInteger s.toList
  | .bytes bs => ∃ s, asciiText? bs = some s ∧ Numeral.IsInteger s.toList
  | _ => False

/-- Numbers in the range of doubles, truth values and numerals of doubles. -/
def IsReal : Value → Prop
  | .bool _ | .float _ => True
  | .int i => ∃ x, Binary64.ofInt? i = some x
  | .text s => Numeral.IsReal s.toList
  | _ => False

theorem exists_integerOfText_iff {s : String} :
    (∃ i, integerOfText s = .ok i) ↔ Numeral.IsInteger s.toList := by
  rw [← Numeral.exists_readInt_iff, integerOfText]
  cases Numeral.readInt s.toList <;> simp

theorem exists_toInt_iff : (∃ i, v.toInt = .ok i) ↔ v.IsIntegral := by
  cases v with
  | float x =>
    simp only [toInt, IsIntegral]
    split_ifs with hnan hinfinite
    · simp [hnan]
    · simp [hinfinite]
    · simp [hnan, hinfinite]
  | text s =>
    simp only [toInt, IsIntegral, mapError_eq_ok]
    exact exists_integerOfText_iff
  | bytes bs =>
    simp only [toInt, IsIntegral]
    cases asciiText? bs with
    | none => simp
    | some s =>
      simp only [mapError_eq_ok, Option.some.injEq, exists_eq_left']
      exact exists_integerOfText_iff
  | bool b => exact iff_of_true ⟨_, rfl⟩ trivial
  | int i => exact iff_of_true ⟨_, rfl⟩ trivial
  | _ => simp [toInt, IsIntegral]

theorem exists_toReal_iff : (∃ x, v.toReal = .ok x) ↔ v.IsReal := by
  cases v with
  | bool b => cases b <;> exact iff_of_true ⟨_, rfl⟩ trivial
  | int i =>
    simp only [toReal, IsReal]
    cases Binary64.ofInt? i <;> simp
  | float x => exact iff_of_true ⟨_, rfl⟩ trivial
  | text s =>
    simp only [toReal, IsReal, ← Numeral.readReal?_iff]
    cases Numeral.readReal? s.toList <;> simp
  | _ => simp [toReal, IsReal]

end Value

theorem IssueStatus.ofName?_eq_some_iff {name : String} {status : IssueStatus} :
    ofName? name = some status ↔ name = status.name := by
  constructor
  · intro h
    rw [ofName?] at h
    have hname := List.find?_some h
    exact (eq_of_beq hname).symm
  · rintro rfl
    exact ofName?_name status

theorem QualityGate.ofName?_eq_some_iff {name : String} {gate : QualityGate} :
    ofName? name = some gate ↔ name = gate.name := by
  constructor
  · intro h
    rw [ofName?] at h
    have hname := List.find?_some h
    exact (eq_of_beq hname).symm
  · rintro rfl
    cases gate <;> decide

theorem Value.isNull_iff {v : Value} : v.isNull = true ↔ v = .null := by
  cases v <;> simp [Value.isNull]

theorem orInvalid_eq_ok {α : Type} {cause : Invalid} {r : Except Fault α} {a : α} :
    orInvalid cause r = .ok a ↔ r = .ok a := by
  unfold orInvalid
  split <;> simp

section

variable {α : Type} {cause : Invalid} {read : Value → Except Fault α} {v : Value}

/-- Null, or what a value is read as. -/
theorem optional_eq_ok {r : Option α} (hnull : ∀ a, read .null ≠ .ok a) :
    (if v.isNull then .ok none else (orInvalid cause (read v)).map some) = .ok r ↔
      (v = .null ∧ r = none) ∨ ∃ a, read v = .ok a ∧ r = some a := by
  by_cases hv : v = .null
  · subst hv
    simp [Value.isNull, hnull, eq_comm]
  · rw [if_neg (Value.isNull_iff.not.mpr hv), or_iff_right fun h => hv h.1]
    constructor
    · intro h
      cases hread : orInvalid cause (read v) with
      | ok a =>
        rw [hread] at h
        exact ⟨a, orInvalid_eq_ok.mp hread, (Except.ok.inj h).symm⟩
      | error f =>
        rw [hread] at h
        cases h
    · rintro ⟨a, ha, rfl⟩
      rw [orInvalid_eq_ok.mpr ha]
      rfl

theorem exists_optional_iff (hnull : ∀ a, read .null ≠ .ok a) :
    (∃ r, (if v.isNull then .ok none else (orInvalid cause (read v)).map some) = .ok r) ↔
      v = .null ∨ ∃ a, read v = .ok a := by
  simp only [optional_eq_ok hnull]
  constructor
  · rintro ⟨r, ⟨hv, -⟩ | ⟨a, ha, -⟩⟩
    · exact Or.inl hv
    · exact Or.inr ⟨a, ha⟩
  · rintro (hv | ⟨a, ha⟩)
    · exact ⟨none, Or.inl ⟨hv, rfl⟩⟩
    · exact ⟨some a, Or.inr ⟨a, ha, rfl⟩⟩

end

namespace Issue

/-- A line is missing, or it is the integer that the value stands for. -/
theorem readLine_eq_ok {v : Value} {line : Option Int} : readLine v = .ok line ↔
    (v = .null ∧ line = none) ∨ ∃ i, v.toInt = .ok i ∧ line = some i :=
  optional_eq_ok fun _ h => by cases h

/-- A line is missing or stands for an integer. -/
def lineCheck (v : Value) : Check where
  isMet := v = .null ∨ v.IsIntegral
  cause := .issueLine v

theorem governs_readLine {v : Value} (hfinite : ∀ x, v = .float x → x.isInfinite = false) :
    Governs [lineCheck v] (readLine v) := by
  have hok : (∃ line, readLine v = .ok line) ↔ (lineCheck v).isMet :=
    (exists_optional_iff fun _ h => by cases h).trans (or_congr Iff.rfl Value.exists_toInt_iff)
  refine governs_singleton hok fun f hf => ?_
  rcases readLine_eq_error hf with rfl | ⟨-, x, hx, hinfinite⟩
  · rfl
  · rw [hfinite x hx] at hinfinite
    cases hinfinite

/-- What an entry names as its state, in capitals. -/
def statusText (es : List (Value × Value)) : String :=
  Text.upper ((Value.field? es "status").getD (.text "OPEN")).shown

/-- What an entry is checked for: a key, one of the six states, and a line if there is one. -/
def checks : Value → List Check
  | .map es => [
    { isMet := (Value.field es "key").holds = true
      cause := .issueKey (.map es) },
    { isMet := ∃ status : IssueStatus, statusText es = status.name
      cause := .issueStatus (Value.field es "key") (Value.field es "status") },
    lineCheck (Value.field es "line")]
  | v => [{ isMet := False, cause := .issueKey v }]

theorem statusOf?_eq_some_iff {es : List (Value × Value)} {status : IssueStatus} :
    statusOf? es = some status ↔ statusText es = status.name :=
  IssueStatus.ofName?_eq_some_iff

theorem checks_met_iff {v : Value} : (∀ c ∈ checks v, c.isMet) ↔ ∃ es, v = .map es ∧
    (Value.field es "key").holds = true ∧
    (∃ status : IssueStatus, statusText es = status.name) ∧
    (Value.field es "line" = .null ∨ (Value.field es "line").IsIntegral) := by
  cases v with
  | map es =>
    rw [checks, List.forall_mem_cons, List.forall_mem_cons, List.forall_mem_singleton]
    constructor
    · intro h
      exact ⟨es, rfl, h⟩
    · rintro ⟨es', heq, h⟩
      obtain rfl := Value.map.inj heq
      exact h
  | _ => simp [checks]

theorem governs_ofValue {v : Value} (hfinite : ∀ fields x, v = .map fields →
    Value.field fields "line" = .float x → x.isInfinite = false) :
    Governs (checks v) (ofValue v) := by
  cases v with
  | map es =>
    rw [ofValue_map]
    by_cases hkey : (Value.field es "key").holds = true
    · rw [if_pos hkey]
      refine governs_cons_of_met hkey ?_
      cases hstatus : statusOf? es with
      | none =>
        apply governs_cons_of_unmet
        rintro ⟨status, h⟩
        rw [statusOf?_eq_some_iff.mpr h] at hstatus
        cases hstatus
      | some status =>
        exact governs_cons_of_met ⟨status, statusOf?_eq_some_iff.mp hstatus⟩
          (governs_readLine fun x => hfinite es x rfl).map
    · rw [if_neg hkey]
      exact governs_cons_of_unmet hkey
  | _ => exact governs_cons_of_unmet not_false

/-- How an issue comes from its entry. -/
def Converts (e : Value) (i : Issue) : Prop := ∃ es status line, e = .map es ∧
  statusText es = IssueStatus.name status ∧
  ((Value.field es "line" = .null ∧ line = none) ∨
    ∃ n, (Value.field es "line").toInt = .ok n ∧ line = some n) ∧
  i = ofEntry es status line

theorem converts_of_ofValue {e : Value} {i : Issue} (h : ofValue e = .ok i) : Converts e i := by
  obtain ⟨es, status, line, rfl, -, hstatus, hline, rfl⟩ := ofValue_eq_ok.mp h
  exact ⟨es, status, line, rfl, statusOf?_eq_some_iff.mp hstatus, readLine_eq_ok.mp hline, rfl⟩

end Issue

namespace Analysis

/-- The entries of a report's issues, none if there is no list. -/
def issueEntries (es : List (Value × Value)) : List Value :=
  match Value.field es "issues" with
  | .list xs => xs
  | _ => []

/-- A coverage is missing or stands for a double. -/
def coverageCheck (v : Value) : Check where
  isMet := v = .null ∨ v.IsReal
  cause := .coverage v

/-- What a report names as its gate, in capitals. -/
def gateText (es : List (Value × Value)) : String :=
  Text.upper ((Value.field? es "quality_gate").getD (.text "ERROR")).shown

/-- What a report is checked for: a project, one of the two gates, a coverage if there is one, and
then its issues one by one. -/
def checks (es : List (Value × Value)) : List Check :=
  [{ isMet := (Value.field es "project_key").holds = true
     cause := .projectKey },
    { isMet := ∃ gate : QualityGate, gateText es = gate.name
      cause := .qualityGate (Value.field es "quality_gate") },
    coverageCheck (Value.field es "new_coverage")] ++
  (issueEntries es).flatMap Issue.checks

variable {es : List (Value × Value)}

theorem gateOf?_eq_some_iff {gate : QualityGate} :
    gateOf? es = some gate ↔ gateText es = gate.name :=
  QualityGate.ofName?_eq_some_iff

theorem entriesOf_eq (h : (Value.field es "issues").holds = true →
    ∃ xs, Value.field es "issues" = .list xs) : entriesOf es = .ok (issueEntries es) := by
  rw [entriesOf, Value.orElse, issueEntries]
  cases hissues : Value.field es "issues" with
  | list xs => cases xs <;> rfl
  | _ =>
    have hnot : ¬(Value.field es "issues").holds = true := by
      intro hholds
      obtain ⟨xs, hxs⟩ := h hholds
      rw [hissues] at hxs
      cases hxs
    rw [hissues] at hnot
    rw [if_neg hnot]
    rfl

/-- A coverage is missing, or it is the double that the value stands for. -/
theorem readCoverage_eq_ok {v : Value} {coverage : Option Binary64} :
    readCoverage v = .ok coverage ↔
      (v = .null ∧ coverage = none) ∨ ∃ x, v.toReal = .ok x ∧ coverage = some x :=
  optional_eq_ok fun _ h => by cases h

theorem governs_readCoverage {v : Value}
    (hrange : ∀ i, v = .int i → Binary64.ofInt? i ≠ none) :
    Governs [coverageCheck v] (readCoverage v) := by
  have hok : (∃ coverage, readCoverage v = .ok coverage) ↔ (coverageCheck v).isMet :=
    (exists_optional_iff fun _ h => by cases h).trans (or_congr Iff.rfl Value.exists_toReal_iff)
  refine governs_singleton hok fun f hf => ?_
  rcases readCoverage_eq_error hf with rfl | ⟨-, i, hi, hnone⟩
  · rfl
  · exact absurd hnone (hrange i hi)

/-- A report is governed by its checks, as far as its issues are a list and nothing is out of
range. -/
theorem governs_ofValue
    (hissues : (Value.field es "issues").holds = true →
      ∃ xs, Value.field es "issues" = .list xs)
    (hlines : ∀ fields x, .map fields ∈ issueEntries es → Value.field fields "line" = .float x →
      x.isInfinite = false)
    (hrange : ∀ i, Value.field es "new_coverage" = .int i → Binary64.ofInt? i ≠ none) :
    Governs (checks es) (ofValue (.map es)) := by
  rw [ofValue_map]
  by_cases hkey : (Value.field es "project_key").holds = true
  · rw [if_pos hkey]
    refine governs_cons_of_met hkey ?_
    cases hgate : gateOf? es with
    | none =>
      apply governs_cons_of_unmet
      rintro ⟨gate, h⟩
      rw [gateOf?_eq_some_iff.mpr h] at hgate
      cases hgate
    | some gate =>
      refine governs_cons_of_met ⟨gate, gateOf?_eq_some_iff.mp hgate⟩ ?_
      have hentries : Governs ((issueEntries es).flatMap Issue.checks)
          ((issueEntries es).mapM Issue.ofValue) := by
        apply governs_mapM
        intro e he
        apply Issue.governs_ofValue
        rintro fields x rfl
        exact hlines fields x he
      refine (governs_readCoverage hrange).bind fun coverage _ => ?_
      rw [entriesOf_eq hissues, ok_bind, ← List.append_nil (List.flatMap ..)]
      exact hentries.bind fun issues _ => governs_nil _
  · rw [if_neg hkey]
    exact governs_cons_of_unmet hkey

/-- What an analysis takes from a report that is read. -/
theorem reads_of_ofValue {a : Analysis} (hissues : (Value.field es "issues").holds = true →
      ∃ xs, Value.field es "issues" = .list xs) (h : ofValue (.map es) = .ok a) :
    readCoverage (Value.field es "new_coverage") = .ok a.newCoverage ∧
      (issueEntries es).mapM Issue.ofValue = .ok a.issues := by
  rw [ofValue_map] at h
  split_ifs at h
  split at h
  · obtain ⟨coverage, hcoverage, h⟩ := bind_eq_ok.mp h
    rw [entriesOf_eq hissues, ok_bind] at h
    obtain ⟨issues, hread, h⟩ := bind_eq_ok.mp h
    obtain rfl := Except.ok.inj h
    exact ⟨hcoverage, hread⟩
  · cases h

theorem openIssues_eq_filter (a : Analysis) : a.openIssues =
    a.issues.filter fun i => decide (i.status ∉ [.fixed, .accepted, .falsePositive]) := by
  rw [openIssues]
  congr 1
  funext i
  rw [Issue.isOpen]
  cases i.status <;> rfl

theorem checks_met_iff : (∀ c ∈ checks es, c.isMet) ↔
    (Value.field es "project_key").holds = true ∧
    (∃ gate : QualityGate, gateText es = gate.name) ∧
    (Value.field es "new_coverage" = .null ∨ (Value.field es "new_coverage").IsReal) ∧
    ∀ e ∈ issueEntries es, ∀ c ∈ Issue.checks e, c.isMet := by
  rw [checks, List.forall_mem_append, List.forall_mem_cons, List.forall_mem_cons,
    List.forall_mem_singleton, List.forall_mem_flatMap, and_assoc, and_assoc]
  rfl

/-- A report is read just if it is one of the grammar: its project key and the keys of its issues
hold, its gate and the states of its issues are known, and its coverage and the lines of its issues
are numbers where they are there. The issues of the analysis are then those of the report in order.
What is no report of the grammar is refused for the first check that it fails. -/
theorem ofValue_grammar
    (hissues : (Value.field es "issues").holds = true →
      ∃ xs, Value.field es "issues" = .list xs)
    (hlines : ∀ fields x, .map fields ∈ issueEntries es → Value.field fields "line" = .float x →
      x.isInfinite = false)
    (hrange : ∀ i, Value.field es "new_coverage" = .int i → Binary64.ofInt? i ≠ none) :
    ((∃ a, ofValue (.map es) = .ok a) ↔
      (Value.field es "project_key").holds = true ∧
      (∃ gate : QualityGate, gateText es = gate.name) ∧
      (Value.field es "new_coverage" = .null ∨ (Value.field es "new_coverage").IsReal) ∧
      ∀ e ∈ issueEntries es, ∃ fields, e = .map fields ∧
        (Value.field fields "key").holds = true ∧
        (∃ status : IssueStatus, Issue.statusText fields = status.name) ∧
        (Value.field fields "line" = .null ∨ (Value.field fields "line").IsIntegral)) ∧
    (∀ a, ofValue (.map es) = .ok a →
      List.Forall₂ Issue.Converts (issueEntries es) a.issues ∧
      ((Value.field es "new_coverage" = .null ∧ a.newCoverage = none) ∨
        ∃ x, (Value.field es "new_coverage").toReal = .ok x ∧ a.newCoverage = some x) ∧
      a.openIssues = a.issues.filter
        fun i => decide (i.status ∉ [.fixed, .accepted, .falsePositive])) ∧
    ∀ f, ofValue (.map es) = .error f →
      ∃ cause, f = .invalid cause ∧ IsFirstUnmet (checks es) cause := by
  have hgoverns := governs_ofValue hissues hlines hrange
  refine ⟨?_, fun a ha => ?_, hgoverns.of_error⟩
  · rw [hgoverns.exists_ok_iff, checks_met_iff]
    simp only [Issue.checks_met_iff]
  · obtain ⟨hcoverage, hread⟩ := reads_of_ofValue hissues ha
    exact ⟨(mapM_eq_ok.mp hread).imp fun _ _ => Issue.converts_of_ofValue,
      readCoverage_eq_ok.mp hcoverage, a.openIssues_eq_filter⟩

/-- Numerals with underscores, in digits of another script or with nothing behind the point are
read, and so is a state in small letters. -/
theorem ofValue_grammar_numerals :
    let entry : List (Value × Value) :=
      [(.text "key", .text "K1"), (.text "status", .text "fixed"), (.text "line", .text " +١_٢")]
    let es : List (Value × Value) := [(.text "project_key", .text "p"),
      (.text "quality_gate", .text "ok"), (.text "new_coverage", .text "8_1."),
      (.text "issues", .list [.map entry])]
    ∃ a, ofValue (.map es) = .ok a ∧ a.issues.length = 1 ∧ a.openIssues = [] := by
  intro entry es
  have hentries : issueEntries es = [.map entry] := by cbv
  have hline : Value.field entry "line" = .text " +١_٢" := by cbv
  have hcoverage : Value.field es "new_coverage" = .text "8_1." := by cbv
  have hstatus : Issue.statusText entry = IssueStatus.fixed.name := by cbv
  have hissues : (Value.field es "issues").holds = true →
      ∃ xs, Value.field es "issues" = .list xs := fun _ => ⟨[.map entry], by cbv⟩
  have hlines : ∀ fields x, .map fields ∈ issueEntries es →
      Value.field fields "line" = .float x → x.isInfinite = false := by
    intro fields x hmem hx
    rw [hentries, List.mem_singleton] at hmem
    obtain rfl := Value.map.inj hmem
    rw [hline] at hx
    cases hx
  have hrange : ∀ i, Value.field es "new_coverage" = .int i → Binary64.ofInt? i ≠ none := by
    intro i hi
    rw [hcoverage] at hi
    cases hi
  obtain ⟨hok, hread, -⟩ := ofValue_grammar hissues hlines hrange
  have hinteger : Numeral.IsInteger " +١_٢".toList :=
    ⟨[' '], ['+'], ['١', '_', '٢'], [], rfl, List.forall_mem_singleton.mpr (by decide),
      Or.inr (Or.inl rfl), ⟨.underscore (by decide) (.one (by decide)), by decide⟩,
      List.forall_mem_nil _⟩
  have hdecimal : Numeral.IsDecimal (['8', '_', '1'] ++ '.' :: ([] ++ [])) :=
    .point (Or.inr (.underscore (by decide) (.one (by decide)))) (Or.inl rfl)
      (Or.inl (List.cons_ne_nil _ _)) .missing
  have hreal : Numeral.IsReal "8_1.".toList :=
    ⟨[], [], ['8', '_', '1', '.'], [], rfl, List.forall_mem_nil _, Or.inl rfl, Or.inr hdecimal,
      List.forall_mem_nil _⟩
  have hentry : ∃ fields, Value.map entry = .map fields ∧
      (Value.field fields "key").holds = true ∧
      (∃ status : IssueStatus, Issue.statusText fields = status.name) ∧
      (Value.field fields "line" = .null ∨ (Value.field fields "line").IsIntegral) := by
    refine ⟨entry, rfl, by cbv, ⟨.fixed, hstatus⟩, Or.inr ?_⟩
    rw [hline]
    exact hinteger
  obtain ⟨a, ha⟩ : ∃ a, ofValue (.map es) = .ok a := by
    rw [hok, hentries, List.forall_mem_singleton, hcoverage]
    exact ⟨by cbv, ⟨.ok, by cbv⟩, Or.inr hreal, hentry⟩
  obtain ⟨hconverts, -, hopen⟩ := hread a ha
  rw [hentries] at hconverts
  obtain ⟨i, rest, ⟨fields, status, line, hfields, hname, -, rfl⟩, hrest, hcons⟩ :=
    List.forall₂_cons_left_iff.mp hconverts
  obtain rfl := Value.map.inj hfields
  obtain rfl := List.forall₂_nil_left_iff.mp hrest
  have hfixed : status = .fixed := by
    rw [hstatus] at hname
    cases status <;> first | rfl | exact absurd hname (by decide)
  rw [hfixed] at hcons
  refine ⟨a, ha, congrArg List.length hcons, ?_⟩
  rw [hopen, hcons]
  rfl

end Analysis
end MergeDecoration
