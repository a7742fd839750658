import Mathlib
import MergeDecoration.Proofs.Note.OpenIssues
import MergeDecoration.Proofs.Note.Tally

/-!
The table of the summary. It has one row for each type of the open issues, in the order of the known
types and then of first appearance, and the figures of a row are numbers of issues.
-/
namespace MergeDecoration

namespace Tally

variable {counts : Tally Nat} {issues : List Issue} {type severity : String}

theorem total_eq_sum (counts : Tally ℕ) : total counts = (counts.map fun e => e.2).sum := by
  rw [total, List.sum, List.foldr_map]

theorem total_foldl_addSeverity (issues : List Issue) :
    total (issues.foldl addSeverity counts) = total counts + issues.length := by
  rw [total_eq_sum, total_eq_sum]
  exact sum_foldl (f := id) (fun i : Issue => Text.upper i.severity) (fun n _ => n + 1) issues rfl
    fun _ _ => rfl

theorem get_foldl_addSeverity (issues : List Issue) :
    get 0 (issues.foldl addSeverity counts) severity =
      get 0 counts severity + issues.countP (Text.upper ·.severity == severity) := by
  have hcount : ∀ (is : List Issue) (n : ℕ), is.foldl (fun n _ => n + 1) n = n + is.length := by
    intro is
    induction is with
    | nil => exact fun n => rfl
    | cons i is ih =>
      intro n
      rw [List.foldl_cons, ih, List.length_cons]
      omega
  have hget : get 0 (issues.foldl addSeverity counts) severity =
      (issues.filter (Text.upper ·.severity == severity)).foldl (fun n _ => n + 1)
        (get 0 counts severity) := get_foldl _ _ issues
  rw [hget, hcount, List.countP_eq_length_filter]

theorem total_noCounts : total noCounts = 0 := by decide

/-- Under a type its own issues are counted, and no others. -/
theorem get_ofIssues (issues : List Issue) (type : String) :
    get noCounts (ofIssues issues) type =
      (issues.filter (·.type == type)).foldl addSeverity noCounts := by
  have hstart : get noCounts noTypes type = noCounts := by
    apply get_of_forall
    intro e he
    obtain ⟨known, -, rfl⟩ := List.mem_map.mp he
    rfl
  have hget : get noCounts (ofIssues issues) type =
      (issues.filter (·.type == type)).foldl addSeverity (get noCounts noTypes type) :=
    get_foldl _ _ issues
  rw [hget, hstart]

/-- The types stand in the order of the table: the known ones first, then the others. -/
theorem inOrder_ofIssues (issues : List Issue) :
    InOrder (names (ofIssues issues)) (typeLabels.map (·.1) ++ issues.map (·.type)) := by
  apply inOrder_foldl (·.type) addSeverity issues
  have hnames : names noTypes = typeLabels.map (·.1) := rfl
  rw [hnames]
  exact ⟨fun n => Iff.rfl, by decide⟩

/-- All issues are counted once. -/
theorem sum_total_ofIssues (issues : List Issue) :
    ((ofIssues issues).map fun e => total e.2).sum = issues.length := by
  have hsum : ((ofIssues issues).map fun e => total e.2).sum =
      (noTypes.map fun e => total e.2).sum + issues.length := by
    apply sum_foldl (·.type) addSeverity issues total_noCounts
    intro counts i
    exact total_foldl_addSeverity [i]
  rw [hsum, show (noTypes.map fun e => total e.2).sum = 0 by decide, Nat.zero_add]

end Tally

namespace CountRow

variable {issues : List Issue} {type : String}

/-- The row that a type should have. -/
def counting (issues : List Issue) (type : String) : CountRow where
  type := type
  cells := severities.map fun s =>
    issues.countP fun i => i.type == type && Text.upper i.severity == s
  total := issues.countP (·.type == type)

theorem ofCounts_ofIssues (issues : List Issue) (type : String) :
    ofCounts type (Tally.get Tally.noCounts (Tally.ofIssues issues) type) =
      counting issues type := by
  have hcell : ∀ s, Tally.get 0 ((issues.filter (·.type == type)).foldl Tally.addSeverity
      Tally.noCounts) s = issues.countP fun i => i.type == type && Text.upper i.severity == s := by
    intro s
    have hzero : Tally.get 0 Tally.noCounts s = 0 := by
      apply Tally.get_of_forall
      intro e he
      obtain ⟨severity, -, rfl⟩ := List.mem_map.mp he
      rfl
    rw [Tally.get_foldl_addSeverity, hzero, Nat.zero_add, List.countP_filter]
    congr 1
    funext i
    exact Bool.and_comm _ _
  have htotal : Tally.total ((issues.filter (·.type == type)).foldl Tally.addSeverity
      Tally.noCounts) = issues.countP (·.type == type) := by
    rw [Tally.total_foldl_addSeverity, Tally.total_noCounts, Nat.zero_add,
      List.countP_eq_length_filter]
  rw [Tally.get_ofIssues, ofCounts, counting, htotal]
  congr 1
  exact List.map_congr_left fun s _ => hcell s

/-- The table has the row of each type that occurs. -/
theorem table_eq (issues : List Issue) : table issues =
    ((Tally.names (Tally.ofIssues issues)).filter fun type => issues.any (·.type == type)).map
      (counting issues) := by
  have hentries : Tally.ofIssues issues = (Tally.names (Tally.ofIssues issues)).map fun type =>
      (type, Tally.get Tally.noCounts (Tally.ofIssues issues) type) :=
    Tally.eq_map_get Tally.noCounts (Tally.inOrder_ofIssues issues).nodup
  have hoccurs : ∀ type,
      (Tally.total (Tally.get Tally.noCounts (Tally.ofIssues issues) type) != 0) =
        issues.any (·.type == type) := by
    intro type
    have htotal : Tally.total (Tally.get Tally.noCounts (Tally.ofIssues issues) type) =
        issues.countP (·.type == type) := congrArg CountRow.total (ofCounts_ofIssues issues type)
    rw [htotal, Bool.eq_iff_iff, bne_iff_ne, ← Nat.pos_iff_ne_zero, List.countP_pos_iff,
      List.any_eq_true]
  rw [table]
  conv_lhs => rw [hentries]
  rw [List.filter_map, List.map_map]
  simp only [Function.comp_def, hoccurs, ofCounts_ofIssues]

/-- The totals of the rows add up to the number of issues. -/
theorem sum_total_table (issues : List Issue) :
    ((table issues).map (·.total)).sum = issues.length := by
  rw [table, List.map_map, ← Tally.sum_total_ofIssues]
  generalize Tally.ofIssues issues = types
  induction types with
  | nil => rfl
  | cons e rest ih =>
    by_cases hzero : e.2.total = 0
    · have hdrop : ¬(e.2.total != 0) = true := by simp [hzero]
      rw [List.filter_cons, if_neg hdrop, ih, List.map_cons, List.sum_cons, hzero, Nat.zero_add]
    · have hkeep : (e.2.total != 0) = true := bne_iff_ne.mpr hzero
      rw [List.filter_cons, if_pos hkeep, List.map_cons, List.sum_cons, ih, List.map_cons,
        List.sum_cons]
      rfl

/-- The types of the rows: the known ones come first, and the others in the order in which they
appear. -/
theorem inOrder_table (issues : List Issue) :
    (∀ type, type ∈ (table issues).map (·.type) ↔ ∃ i ∈ issues, i.type = type) ∧
      ((table issues).map (·.type)).Pairwise fun s t =>
        (typeLabels.map (·.1) ++ issues.map (·.type)).idxOf s <
          (typeLabels.map (·.1) ++ issues.map (·.type)).idxOf t := by
  have horder := Tally.inOrder_ofIssues issues
  have htypes : (table issues).map (·.type) =
      (Tally.names (Tally.ofIssues issues)).filter fun type => issues.any (·.type == type) := by
    rw [table_eq, List.map_map]
    exact List.map_id _
  rw [htypes]
  refine ⟨fun type => ?_, horder.order.filter _⟩
  rw [List.mem_filter, horder.mem, List.any_eq_true]
  constructor
  · rintro ⟨-, i, hi, htype⟩
    exact ⟨i, hi, eq_of_beq htype⟩
  · rintro ⟨i, hi, rfl⟩
    exact ⟨List.mem_append_right _ (List.mem_map_of_mem hi), i, hi, BEq.rfl⟩

/-- The cells of a row count its issues, those of other severities left out. -/
theorem sum_cells_counting (issues : List Issue) (type : String) :
    (counting issues type).cells.sum = (issues.filter (·.type == type)).countP
      (severities.contains <| Text.upper ·.severity) := by
  have hnodup : severities.Nodup := by decide
  rw [← Tally.sum_countP (fun i : Issue => Text.upper i.severity) _ hnodup, counting]
  congr 1
  refine List.map_congr_left fun s _ => ?_
  rw [List.countP_filter]
  congr 1
  funext i
  exact Bool.and_comm _ _

theorem total_counting (issues : List Issue) (type : String) :
    (counting issues type).total = (issues.filter (·.type == type)).length :=
  List.countP_eq_length_filter

theorem sum_cells_le (issues : List Issue) (type : String) :
    (counting issues type).cells.sum ≤ (counting issues type).total := by
  rw [sum_cells_counting, total_counting]
  exact List.countP_le_length

/-- The cells of a row add up to its total unless some of its issues have another severity. -/
theorem sum_cells_eq_iff (issues : List Issue) (type : String) :
    (counting issues type).cells.sum = (counting issues type).total ↔
      ∀ i ∈ issues, i.type = type → Text.upper i.severity ∈ severities := by
  rw [sum_cells_counting, total_counting, List.countP_eq_length]
  simp only [List.mem_filter, beq_iff_eq, List.contains_iff_mem, and_imp]

theorem exists_of_mem_table {r : CountRow} (h : r ∈ table issues) :
    ∃ type, r = counting issues type := by
  rw [table_eq] at h
  obtain ⟨type, -, rfl⟩ := List.mem_map.mp h
  exact ⟨type, rfl⟩

theorem table_eq_nil_iff : table issues = [] ↔ issues = [] := by
  constructor
  · intro hnil
    have hsum := sum_total_table issues
    rw [hnil] at hsum
    exact List.length_eq_zero_iff.mp hsum.symm
  · rintro rfl
    rfl

end CountRow

namespace Analysis

theorem exists_statistics (a : Analysis) (issues : List Issue) :
    ∃ more, a.statistics issues = "**" ++ toString issues.length ++ "** issue(s)" ++ more := by
  rw [statistics, String.append_assoc]
  exact ⟨_, rfl⟩

theorem tableLines_table (issues : List Issue) : tableLines (CountRow.table issues) =
    if issues = [] then []
    else "| Type | Blocker | Critical | Major | Minor | Info | Total |" ::
      "|------|:-------:|:--------:|:-----:|:-----:|:----:|:-----:|" ::
      (CountRow.table issues).map (·.line) := by
  simp only [tableLines, List.isEmpty_iff, CountRow.table_eq_nil_iff]

/-- The table counts the open issues. Its rows are those of the types that occur, in the order of
the known types and then of first appearance, each with the number of its issues and of those of
each severity; the totals add up to the number of issues in the line above the table. -/
theorem summaryNote_counts {a : Analysis} (hserver : a.serverUrl.IsText) :
    ∃ (url : String) (rows : List CountRow), a.dashboard = .ok url ∧
      a.summaryNote = .ok ("\n".intercalate (
        ["## Analysis summary\n",
          if a.passed then "> **Quality Gate passed**\n" else "> **Quality Gate failed**\n",
          a.statistics a.openIssues ++ "\n"] ++
        (if a.openIssues = [] then []
          else "| Type | Blocker | Critical | Major | Minor | Info | Total |" ::
            "|------|:-------:|:--------:|:-----:|:-----:|:----:|:-----:|" ::
            rows.map fun r => "| " ++ typeLabel r.type ++ " | " ++
              " | ".intercalate (r.cells.map fun n => if n = 0 then "—" else toString n) ++
              " | " ++ toString r.total ++ " |") ++
        unanchoredLines a.openIssues ++ ["", ViewLink.write url])) ∧
      (∃ more, a.statistics a.openIssues =
        "**" ++ toString a.openIssues.length ++ "** issue(s)" ++ more) ∧
      (∀ type, type ∈ rows.map (·.type) ↔ ∃ i ∈ a.openIssues, i.type = type) ∧
      ((rows.map (·.type)).Pairwise fun s t =>
        (["BUG", "VULNERABILITY", "CODE_SMELL", "SECURITY_HOTSPOT"] ++
          a.openIssues.map (·.type)).idxOf s <
        (["BUG", "VULNERABILITY", "CODE_SMELL", "SECURITY_HOTSPOT"] ++
          a.openIssues.map (·.type)).idxOf t) ∧
      (∀ r ∈ rows, r.total = a.openIssues.countP (·.type == r.type) ∧
        r.cells = (["BLOCKER", "CRITICAL", "MAJOR", "MINOR", "INFO"].map fun s =>
          a.openIssues.countP fun i => i.type == r.type && Text.upper i.severity == s) ∧
        r.cells.sum ≤ r.total ∧
        (r.cells.sum = r.total ↔ ∀ i ∈ a.openIssues, i.type = r.type →
          Text.upper i.severity ∈ ["BLOCKER", "CRITICAL", "MAJOR", "MINOR", "INFO"])) ∧
      (rows.map (·.total)).sum = a.openIssues.length := by
  obtain ⟨url, hurl⟩ := exists_dashboard hserver
  obtain ⟨hmem, horder⟩ := CountRow.inOrder_table a.openIssues
  refine ⟨url, CountRow.table a.openIssues, hurl, ?_, a.exists_statistics a.openIssues, hmem,
    horder, ?_, CountRow.sum_total_table a.openIssues⟩
  · rw [summaryNote_of_dashboard hurl, summaryLines, tableLines_table]
    simp only [List.append_assoc]
    rfl
  · intro r hr
    obtain ⟨type, rfl⟩ := CountRow.exists_of_mem_table hr
    exact ⟨rfl, rfl, CountRow.sum_cells_le _ _, CountRow.sum_cells_eq_iff _ _⟩

/-- A severity in small letters has its cell and one of no column has none; a closed issue gives no
row. -/
theorem summaryNote_counts_mixed :
    let a : Analysis := {
      projectKey := "proj"
      pullRequestId := "5"
      commitSha := "abc"
      gate := .ok
      serverUrl := .text "https://sonar.example.com"
      issues := [{ key := "K1", type := "LAYOUT" }, { key := "K2", severity := "minor" },
        { key := "K3", severity := "TRIVIAL" },
        { key := "K4", type := "BUG", status := .fixed }] }
    ∃ rows : List CountRow, (∃ body, a.summaryNote = .ok body) ∧
      (rows.map (·.total)).sum = 3 ∧
      "LAYOUT" ∈ rows.map (·.type) ∧ "BUG" ∉ rows.map (·.type) ∧
      ∀ r ∈ rows, r.type = "CODE_SMELL" → r.cells = [0, 0, 0, 1, 0] ∧ r.total = 2 := by
  intro a
  obtain ⟨url, rows, -, hbody, -, hmem, -, hrows, hsum⟩ := summaryNote_counts (a := a) ⟨_, rfl⟩
  refine ⟨rows, ⟨_, hbody⟩, hsum.trans (by decide), (hmem _).mpr (by decide),
    fun h => ?_, ?_⟩
  · exact absurd ((hmem _).mp h) (by decide)
  · intro r hr htype
    obtain ⟨htotal, hcells, -⟩ := hrows r hr
    rw [hcells, htotal, htype]
    decide

end Analysis

end MergeDecoration
