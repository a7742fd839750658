import MergeDecoration.CommandLine.Decorate
import MergeDecoration.Proofs.Value.Reading

/-!
How the reading of report data ends. The conversions of numbers know three faults, of which two
become an invalid report; a number out of range stays what it is, and so does a list of issues that
is none. Paths, messages and rules are not converted at all.
-/
namespace MergeDecoration

namespace Value

variable {v : Value} {f : Fault}

theorem orElse_null_isOptionalText :
    (v.orElse .null).IsOptionalText ↔ (v.holds = true → v.IsText) := by
  by_cases hholds : v.holds = true
  · have hnull : v ≠ .null := by
      rintro rfl
      cases hholds
    simp [orElse, hholds, IsOptionalText, hnull]
  · simp [orElse, hholds, IsOptionalText]

theorem orElse_text_isText {s : String} :
    (v.orElse (.text s)).IsText ↔ (v.holds = true → v.IsText) := by
  by_cases hholds : v.holds = true
  · simp [orElse, hholds]
  · simp [orElse, hholds, IsText]

/-- An infinite number has no integer part. -/
theorem toInt_eq_error (h : v.toInt = .error f) :
    (∃ cause, f = .misuse cause) ∨ (∃ cause, f = .invalid cause) ∨
      (f = .outOfRange ∧ ∃ x, v = .float x ∧ x.isInfinite = true) := by
  cases v with
  | bool b => cases h
  | int i => cases h
  | float x =>
    simp only [toInt] at h
    split_ifs at h with hnan hinfinite
    · exact Or.inr (Or.inl ⟨_, (Except.error.inj h).symm⟩)
    · exact Or.inr (Or.inr ⟨(Except.error.inj h).symm, x, rfl, hinfinite⟩)
  | text s =>
    obtain ⟨cause, -, rfl⟩ := mapError_eq_error.mp h
    exact Or.inr (Or.inl ⟨cause, rfl⟩)
  | bytes bs =>
    simp only [toInt] at h
    split at h
    · obtain ⟨cause, -, rfl⟩ := mapError_eq_error.mp h
      exact Or.inr (Or.inl ⟨cause, rfl⟩)
    · exact Or.inr (Or.inl ⟨_, (Except.error.inj h).symm⟩)
  | _ => exact Or.inl ⟨_, (Except.error.inj h).symm⟩

/-- An integer can be too large for a double. -/
theorem toReal_eq_error (h : v.toReal = .error f) :
    (∃ cause, f = .misuse cause) ∨ (∃ cause, f = .invalid cause) ∨
      (f = .outOfRange ∧ ∃ i, v = .int i ∧ Binary64.ofInt? i = none) := by
  cases v with
  | bool b => cases b <;> cases h
  | int i =>
    simp only [toReal] at h
    split at h
    · cases h
    · next hnone => exact Or.inr (Or.inr ⟨(Except.error.inj h).symm, i, rfl, hnone⟩)
  | float x => cases h
  | text s =>
    simp only [toReal] at h
    split at h
    · cases h
    · exact Or.inr (Or.inl ⟨_, (Except.error.inj h).symm⟩)
  | _ => exact Or.inl ⟨_, (Except.error.inj h).symm⟩

end Value

/-- Of the faults of a conversion a number out of range alone stays what it is. -/
theorem orInvalid_eq_error {α : Type} {cause : Invalid} {x : Except Fault α} {f : Fault}
    (h : orInvalid cause x = .error f) :
    f = .invalid cause ∨ (x = .error f ∧ (∀ c, f ≠ .misuse c) ∧ ∀ c, f ≠ .invalid c) := by
  unfold orInvalid at h
  split at h
  · exact Or.inl (Except.error.inj h).symm
  · exact Or.inl (Except.error.inj h).symm
  · next hmisuse hinvalid =>
    refine Or.inr ⟨h, ?_, ?_⟩
    · rintro c rfl
      exact hmisuse c h
    · rintro c rfl
      exact hinvalid c h

namespace Issue

/-- Path, message and rule are texts, as far as they need be there. -/
structure IsWellTyped (i : Issue) : Prop where
  path : i.path.IsOptionalText
  message : i.message.IsText
  rule : i.rule.IsOptionalText

/-- A line that cannot be read is invalid, or it is infinite. -/
theorem readLine_eq_error {v : Value} {f : Fault} (h : readLine v = .error f) :
    f = .invalid (.issueLine v) ∨
      (f = .outOfRange ∧ ∃ x, v = .float x ∧ x.isInfinite = true) := by
  unfold readLine at h
  split_ifs at h
  cases hline : orInvalid (.issueLine v) v.toInt with
  | ok i =>
    rw [hline] at h
    cases h
  | error e =>
    rw [hline] at h
    obtain rfl : e = f := Except.error.inj h
    rcases orInvalid_eq_error hline with rfl | ⟨hint, hmisuse, hinvalid⟩
    · exact Or.inl rfl
    · rcases Value.toInt_eq_error hint with ⟨c, rfl⟩ | ⟨c, rfl⟩ | hrange
      · exact absurd rfl (hmisuse c)
      · exact absurd rfl (hinvalid c)
      · exact Or.inr hrange

/-- The status that an entry names. -/
def statusOf? (es : List (Value × Value)) : Option IssueStatus :=
  IssueStatus.ofName? (Text.upper ((Value.field? es "status").getD (.text "OPEN")).shown)

/-- The issue of an entry, given its status and its line. -/
def ofEntry (es : List (Value × Value)) (status : IssueStatus) (line : Option Int) : Issue where
  key := (Value.field es "key").shown
  status := status
  line := line
  path := (Value.field es "path").orElse .null
  severity := Text.upper ((Value.field es "severity").orElse (.text "MAJOR")).shown
  type := Text.upper ((Value.field es "type").orElse (.text "CODE_SMELL")).shown
  message := (Value.field es "message").orElse (.text "")
  rule := Value.field es "rule"

/-- The checks of an entry in order: key, status, line. -/
theorem ofValue_map (es : List (Value × Value)) :
    ofValue (.map es) =
      if (Value.field es "key").holds then
        match statusOf? es with
        | some status => (readLine (Value.field es "line")).map (ofEntry es status)
        | none =>
          .error (.invalid (.issueStatus (Value.field es "key") (Value.field es "status")))
      else .error (.invalid (.issueKey (.map es))) := by
  unfold ofValue
  cases hkey : (Value.field es "key").holds with
  | false =>
    simp only [hkey]
    rfl
  | true =>
    simp only [hkey, statusOf?]
    cases IssueStatus.ofName?
        (Text.upper ((Value.field? es "status").getD (.text "OPEN")).shown) with
    | none => rfl
    | some status => cases readLine (Value.field es "line") <;> rfl

variable {v : Value} {i : Issue} {f : Fault}

/-- An issue is read from an object that passes all checks. -/
theorem ofValue_eq_ok : ofValue v = .ok i ↔ ∃ es status line, v = .map es ∧
    (Value.field es "key").holds = true ∧ statusOf? es = some status ∧
    readLine (Value.field es "line") = .ok line ∧ i = ofEntry es status line := by
  constructor
  · intro h
    cases v with
    | map es =>
      rw [ofValue_map] at h
      split_ifs at h with hkey
      split at h
      · next status hstatus =>
        cases hline : readLine (Value.field es "line") with
        | ok line =>
          rw [hline] at h
          exact ⟨es, status, line, rfl, hkey, hstatus, hline, (Except.ok.inj h).symm⟩
        | error e =>
          rw [hline] at h
          cases h
      · cases h
    | _ => cases h
  · rintro ⟨es, status, line, rfl, hkey, hstatus, hline, rfl⟩
    rw [ofValue_map, if_pos hkey, hstatus, hline]
    rfl

/-- An entry that cannot be read is invalid, or its line is infinite. -/
theorem ofValue_eq_error (h : ofValue v = .error f) :
    (∃ cause, f = .invalid cause) ∨ (f = .outOfRange ∧ ∃ es x, v = .map es ∧
      Value.field es "line" = .float x ∧ x.isInfinite = true) := by
  cases v with
  | map es =>
    rw [ofValue_map] at h
    split_ifs at h with hkey
    · split at h
      · cases hline : readLine (Value.field es "line") with
        | ok line =>
          rw [hline] at h
          cases h
        | error e =>
          rw [hline] at h
          obtain rfl : e = f := Except.error.inj h
          rcases readLine_eq_error hline with rfl | ⟨rfl, x, hx, hinfinite⟩
          · exact Or.inl ⟨_, rfl⟩
          · exact Or.inr ⟨rfl, es, x, rfl, hx, hinfinite⟩
      · exact Or.inl ⟨_, (Except.error.inj h).symm⟩
    · exact Or.inl ⟨_, (Except.error.inj h).symm⟩
  | _ => exact Or.inl ⟨_, (Except.error.inj h).symm⟩

/-- What of an entry is taken over as it is has the type that the issue should have there. -/
structure EntryFits (es : List (Value × Value)) : Prop where
  path : (Value.field es "path").holds = true → (Value.field es "path").IsText
  message : (Value.field es "message").holds = true → (Value.field es "message").IsText
  rule : (Value.field es "rule").IsOptionalText

theorem ofEntry_isWellTyped_iff {es : List (Value × Value)} {status : IssueStatus}
    {line : Option Int} : (ofEntry es status line).IsWellTyped ↔ EntryFits es := by
  constructor
  · rintro ⟨hpath, hmessage, hrule⟩
    exact ⟨Value.orElse_null_isOptionalText.mp hpath, Value.orElse_text_isText.mp hmessage, hrule⟩
  · rintro ⟨hpath, hmessage, hrule⟩
    exact ⟨Value.orElse_null_isOptionalText.mpr hpath, Value.orElse_text_isText.mpr hmessage,
      hrule⟩

end Issue

namespace Analysis

/-- Every field of the analysis and of its issues has the type that it should have. -/
structure IsWellTyped (a : Analysis) : Prop where
  server : a.serverUrl.IsText
  issues : ∀ i ∈ a.issues, i.IsWellTyped

/-- A coverage that cannot be read is invalid, or an integer too large for a double. -/
theorem readCoverage_eq_error {v : Value} {f : Fault} (h : readCoverage v = .error f) :
    f = .invalid (.coverage v) ∨
      (f = .outOfRange ∧ ∃ i, v = .int i ∧ Binary64.ofInt? i = none) := by
  unfold readCoverage at h
  split_ifs at h
  cases hreal : orInvalid (.coverage v) v.toReal with
  | ok x =>
    rw [hreal] at h
    cases h
  | error e =>
    rw [hreal] at h
    obtain rfl : e = f := Except.error.inj h
    rcases orInvalid_eq_error hreal with rfl | ⟨hvalue, hmisuse, hinvalid⟩
    · exact Or.inl rfl
    · rcases Value.toReal_eq_error hvalue with ⟨c, rfl⟩ | ⟨c, rfl⟩ | hrange
      · exact absurd rfl (hmisuse c)
      · exact absurd rfl (hinvalid c)
      · exact Or.inr hrange

/-- The gate that a report names. -/
def gateOf? (es : List (Value × Value)) : Option QualityGate :=
  QualityGate.ofName? (Text.upper ((Value.field? es "quality_gate").getD (.text "ERROR")).shown)

/-- The entries of a report's issues. -/
def entriesOf (es : List (Value × Value)) : Except Fault (List Value) :=
  ((Value.field es "issues").orElse (.list [])).items

/-- The analysis of a report, given what it is checked for. -/
def ofReportData (es : List (Value × Value)) (gate : QualityGate) (newCoverage : Option Binary64)
    (issues : List Issue) : Analysis where
  projectKey := (Value.field es "project_key").shown
  pullRequestId := ((Value.field es "pull_request_id").orElse (.text "")).shown
  commitSha := ((Value.field es "commit_sha").orElse (.text "")).shown
  gate := gate
  serverUrl := .text ((Value.field es "server_url").orElse (.text "")).shown
  issues := issues
  newCoverage := newCoverage

/-- The checks of a report in order: project key, gate, coverage, issues. -/
theorem ofValue_map (es : List (Value × Value)) :
    ofValue (.map es) =
      if (Value.field es "project_key").holds then
        match gateOf? es with
        | some gate => do
          let newCoverage ← readCoverage (Value.field es "new_coverage")
          let entries ← entriesOf es
          let issues ← entries.mapM Issue.ofValue
          return ofReportData es gate newCoverage issues
        | none => .error (.invalid (.qualityGate (Value.field es "quality_gate")))
      else .error (.invalid .projectKey) := by
  unfold ofValue
  cases hkey : (Value.field es "project_key").holds with
  | false =>
    simp only [hkey]
    rfl
  | true =>
    simp only [hkey, gateOf?]
    cases QualityGate.ofName?
        (Text.upper ((Value.field? es "quality_gate").getD (.text "ERROR")).shown) with
    | none => rfl
    | some gate => rfl

variable {v : Value} {a : Analysis} {f : Fault}

/-- What is read of the issues of a report has its types where the entries have theirs. -/
theorem ofReportData_isWellTyped_iff {es : List (Value × Value)} {gate : QualityGate}
    {newCoverage : Option Binary64} {entries : List Value} {issues : List Issue}
    (h : entries.mapM Issue.ofValue = .ok issues) :
    (ofReportData es gate newCoverage issues).IsWellTyped ↔
      ∀ e ∈ entries, ∃ fields, e = .map fields ∧ Issue.EntryFits fields := by
  have hread := mapM_eq_ok.mp h
  have hissues : (∀ i ∈ issues, i.IsWellTyped) ↔
      ∀ e ∈ entries, ∃ fields, e = .map fields ∧ Issue.EntryFits fields := by
    clear h
    induction hread with
    | nil => simp
    | @cons e i entries issues he _ ih =>
      obtain ⟨fields, status, line, rfl, -, -, -, rfl⟩ := Issue.ofValue_eq_ok.mp he
      simp [ih, Issue.ofEntry_isWellTyped_iff]
  rw [← hissues]
  exact ⟨fun h => h.issues, fun h => ⟨⟨_, rfl⟩, h⟩⟩

/-- Issues that hold and cannot be run over are no issues. -/
theorem entriesOf_eq_error {es : List (Value × Value)} (h : entriesOf es = .error f) :
    (Value.field es "issues").holds = true ∧ (Value.field es "issues").items = .error f ∧
      f = .misuse (.itemsOf (Value.field es "issues").kind) := by
  unfold entriesOf at h
  by_cases hholds : (Value.field es "issues").holds = true
  · simp only [Value.orElse, hholds, if_true] at h
    exact ⟨hholds, h, Value.items_eq_error h⟩
  · simp only [Value.orElse, hholds, Bool.false_eq_true, if_false] at h
    cases h

/-- What of a report is out of range: the coverage is an integer too large for a double, or the line
of an issue is infinite. -/
def IsOutOfRange (es : List (Value × Value)) : Prop :=
  (∃ i, Value.field es "new_coverage" = .int i ∧ Binary64.ofInt? i = none) ∨
    ∃ entries fields x, entriesOf es = .ok entries ∧ .map fields ∈ entries ∧
      Value.field fields "line" = .float x ∧ x.isInfinite = true

/-- A report of which no analysis is read is invalid, or has something out of range, or issues that
cannot be run over. -/
theorem ofValue_eq_error (h : ofValue v = .error f) :
    (∃ cause, f = .invalid cause) ∨
      (f = .outOfRange ∧ ∃ es, v = .map es ∧ IsOutOfRange es) ∨
      ∃ es, v = .map es ∧ (Value.field es "issues").holds = true ∧
        (Value.field es "issues").items = .error f ∧
        f = .misuse (.itemsOf (Value.field es "issues").kind) := by
  cases v with
  | map es =>
    rw [ofValue_map] at h
    split_ifs at h with hkey
    · split at h
      · rcases bind_eq_error.mp h with hcoverage | ⟨coverage, -, h⟩
        · rcases readCoverage_eq_error hcoverage with rfl | ⟨rfl, hrange⟩
          · exact Or.inl ⟨_, rfl⟩
          · exact Or.inr (Or.inl ⟨rfl, es, rfl, Or.inl hrange⟩)
        rcases bind_eq_error.mp h with hentries | ⟨entries, hentries, h⟩
        · exact Or.inr (Or.inr ⟨es, rfl, entriesOf_eq_error hentries⟩)
        rcases bind_eq_error.mp h with hissues | ⟨issues, -, h⟩
        · obtain ⟨before, e, after, rfl, -, he⟩ := mapM_eq_error.mp hissues
          rcases Issue.ofValue_eq_error he with hinvalid | ⟨rfl, fields, x, rfl, hline, hx⟩
          · exact Or.inl hinvalid
          · refine Or.inr (Or.inl ⟨rfl, es, rfl, Or.inr ⟨_, fields, x, hentries, ?_, hline, hx⟩⟩)
            exact List.mem_append_right _ (List.mem_cons_self ..)
        · cases h
      · exact Or.inl ⟨_, (Except.error.inj h).symm⟩
    · exact Or.inl ⟨_, (Except.error.inj h).symm⟩
  | _ => exact Or.inl ⟨_, (Except.error.inj h).symm⟩

/-- An analysis is read from an object, with the issues that its entries are read as. -/
theorem exists_of_ofValue_eq_ok (h : ofValue v = .ok a) :
    ∃ es gate newCoverage entries issues, v = .map es ∧ entriesOf es = .ok entries ∧
      entries.mapM Issue.ofValue = .ok issues ∧ a = ofReportData es gate newCoverage issues := by
  cases v with
  | map es =>
    rw [ofValue_map] at h
    split_ifs at h with hkey
    split at h
    · next gate _ =>
      obtain ⟨coverage, -, h⟩ := bind_eq_ok.mp h
      obtain ⟨entries, hentries, h⟩ := bind_eq_ok.mp h
      obtain ⟨issues, hissues, h⟩ := bind_eq_ok.mp h
      exact ⟨es, gate, coverage, entries, issues, rfl, hentries, hissues,
        (Except.ok.inj h).symm⟩
    · cases h
  | _ => cases h

/-- The reading of a report ends with an analysis, or with the fault that the report is invalid,
which the command tells the user. It ends otherwise only if something is out of range or if the
issues cannot be run over. The fields of an analysis have their types unless an entry has a path, a
message or a rule that is no text. -/
theorem ofValue_ends (v : Value) :
    (∃ cause, ofValue v = .error (.invalid cause) ∧
      CommandLine.Decorate.reportFault (.invalid cause) = .givenUp cause.message) ∨
    (∃ a es entries, ofValue v = .ok a ∧ v = .map es ∧ entriesOf es = .ok entries ∧
      (a.IsWellTyped ↔ ∀ e ∈ entries, ∃ fields, e = .map fields ∧ Issue.EntryFits fields)) ∨
    (ofValue v = .error .outOfRange ∧ ∃ es, v = .map es ∧ IsOutOfRange es) ∨
    ∃ es f, ofValue v = .error f ∧ v = .map es ∧ (Value.field es "issues").holds = true ∧
      (Value.field es "issues").items = .error f ∧
      f = .misuse (.itemsOf (Value.field es "issues").kind) := by
  cases h : ofValue v with
  | ok a =>
    obtain ⟨es, gate, coverage, entries, issues, rfl, hentries, hissues, rfl⟩ :=
      exists_of_ofValue_eq_ok h
    exact Or.inr (Or.inl ⟨_, es, entries, rfl, rfl, hentries,
      ofReportData_isWellTyped_iff hissues⟩)
  | error f =>
    rcases ofValue_eq_error h with ⟨cause, rfl⟩ | ⟨rfl, hrange⟩ | ⟨es, rfl, hissues⟩
    · exact Or.inl ⟨cause, rfl, rfl⟩
    · exact Or.inr (Or.inr (Or.inl ⟨rfl, hrange⟩))
    · exact Or.inr (Or.inr (Or.inr ⟨es, f, rfl, rfl, hissues⟩))

/-- An infinite line is told as a number out of range, and not as an invalid report; a number in the
place of a message becomes the message of the issue. -/
theorem ofValue_infinite_line :
    let report (entry : List (Value × Value)) : Value :=
      .map [(.text "project_key", .text "p"), (.text "issues", .list [.map entry])]
    let endless := report [(.text "key", .text "K"), (.text "line", .float (.infinity false))]
    let numbered := report [(.text "key", .text "K"), (.text "message", .int 5)]
    ofValue endless = .error .outOfRange ∧ ∃ a, ofValue numbered = .ok a ∧ ¬a.IsWellTyped := by
  intro report endless numbered
  constructor
  · have hline : Issue.readLine (.float (.infinity false)) = .error .outOfRange := rfl
    dsimp only [endless, report]
    -- What else there is about the number is not to be evaluated.
    generalize Binary64.infinity false = x at hline ⊢
    have hkey : (Value.field [(.text "key", .text "K"), (.text "line", .float x)] "key").holds =
        true := by cbv
    have hstatus : Issue.statusOf? [(.text "key", .text "K"), (.text "line", .float x)] =
        some .opened := by cbv
    have hfield : Value.field [(.text "key", .text "K"), (.text "line", .float x)] "line" =
        .float x := by cbv
    have hentry : Issue.ofValue (.map [(.text "key", .text "K"), (.text "line", .float x)]) =
        .error .outOfRange := by
      rw [Issue.ofValue_map, if_pos hkey, hstatus, hfield, hline]
      rfl
    generalize Value.map [(.text "key", .text "K"), (.text "line", .float x)] = e at hentry ⊢
    let es : List (Value × Value) :=
      [(.text "project_key", .text "p"), (.text "issues", .list [e])]
    have hproject : (Value.field es "project_key").holds = true := by cbv
    have hgate : gateOf? es = some .error := by cbv
    have hcoverage : readCoverage (Value.field es "new_coverage") = .ok none := by cbv
    have hentries : entriesOf es = .ok [e] := by cbv
    have hissues : [e].mapM Issue.ofValue = .error .outOfRange :=
      mapM_eq_error.mpr ⟨[], e, [], rfl, List.forall_mem_nil _, hentry⟩
    rw [ofValue_map, if_pos hproject, hgate]
    exact bind_eq_error.mpr (Or.inr ⟨none, hcoverage,
      bind_eq_error.mpr (Or.inr ⟨[e], hentries, bind_eq_error.mpr (Or.inl hissues)⟩)⟩)
  · refine ⟨_, by cbv, ?_⟩
    intro h
    obtain ⟨s, hs⟩ := (h.issues _ (List.mem_singleton_self _)).message
    cases hs

end Analysis

end MergeDecoration
