import MergeDecoration.Config.File
import MergeDecoration.Proofs.Host.Action
import MergeDecoration.Proofs.Value.Reading
import MergeDecoration.Proofs.Value.Store

/-!
How settings are loaded. What is found under a key of them is told layer by layer: the file over
what is built in, then the command line, then the variables, and the pipeline as it is read.
-/
namespace MergeDecoration.Config

open Stateful Value

variable {c d : Config} {key v p : Value} {name path : String} {os more : List (Value × Value)}
  {h h' : Host}

section

@[simp] theorem find?_set_self (c : Config) (name : String) (v : Value) :
    find? (c.set name v) (.text name) = some v := find?_store_self ..

theorem find?_set_of_ne (c : Config) (v : Value) (hkey : key ≠ .text name) :
    find? (c.set name v) key = find? c key := find?_store_of_ne _ _ hkey

theorem find?_set_congr (name : String) (v : Value) (heq : find? c key = find? d key) :
    find? (c.set name v) key = find? (d.set name v) key := find?_store_congr _ heq

theorem get_congr (heq : find? c (.text name) = find? d (.text name)) :
    c.get name = d.get name := by
  rw [Config.get, field, field?, heq]
  rfl

theorem get_of_find? (hfind : find? c (.text name) = some v) : c.get name = v := by
  rw [Config.get, field, field?, hfind, Option.getD_some]

/-- The keys of the entries are texts. -/
def HasNames (os : List (Value × Value)) : Prop := ∀ e ∈ os, ∃ name, e.1 = .text name

theorem applyOverrides_append (c : Config) (os more : List (Value × Value)) :
    c.applyOverrides (os ++ more) = (c.applyOverrides os).applyOverrides more := by
  simp [applyOverrides, storeAll]

theorem applyOverrides_cons (c : Config) (e : Value × Value) (os : List (Value × Value)) :
    c.applyOverrides (e :: os) =
      (if e.2.isNull then c else store c e.1 e.2).applyOverrides os := by
  cases hnull : e.2.isNull <;> simp [applyOverrides, storeAll, hnull]

theorem find?_applyOverrides_congr (hos : HasNames os) (heq : find? c key = find? d key) :
    find? (c.applyOverrides os) key = find? (d.applyOverrides os) key := by
  induction os generalizing c d with
  | nil => exact heq
  | cons e os ih =>
    obtain ⟨⟨name, hname⟩, hrest⟩ := List.forall_mem_cons.mp hos
    rw [applyOverrides_cons, applyOverrides_cons]
    apply ih hrest
    split_ifs
    · exact heq
    · rw [hname]
      exact find?_store_congr _ heq

/-- Settings of the command line change nothing under other keys. -/
theorem find?_applyOverrides_of_ne (c : Config)
    (hos : ∀ e ∈ os, ∃ name, e.1 = .text name ∧ key ≠ .text name) :
    find? (c.applyOverrides os) key = find? c key := by
  induction os generalizing c with
  | nil => rfl
  | cons e os ih =>
    obtain ⟨⟨name, hname, hkey⟩, hrest⟩ := List.forall_mem_cons.mp hos
    rw [applyOverrides_cons, ih _ hrest]
    split_ifs
    · rfl
    · rw [hname, find?_store_of_ne _ _ hkey]

theorem find?_applyOverrides_single (c : Config) (name : String) (v : Value) :
    find? (c.applyOverrides [(.text name, v)]) (.text name) =
      if v.isNull then find? c (.text name) else some v := by
  rw [applyOverrides_cons]
  split_ifs
  · rfl
  · exact find?_store_self ..

end

/-- The settings that are built in, with those of a file if there is one. -/
def ofFile : Option String → Except Fault Config
  | some content => readFile content >>= defaults.update
  | none => .ok defaults

/-- The settings before the pipeline is read. -/
def layered (h : Host) (c : Config) (overrides : List (Value × Value)) : Config :=
  (c.applyOverrides overrides).withVariables (h.environment.lookup Token.variableName)
    ((h.environment.lookup "MRDECOR_GITLAB_URL").filter (· != ""))

/-- The keys that variables speak about. -/
def IsVariableKey (key : Value) : Prop := key = .text "gitlab_token" ∨ key = .text "gitlab_url"

theorem find?_layered_of_ne (h : Host) (c : Config) (os : List (Value × Value))
    (hkey : ¬IsVariableKey key) : find? (layered h c os) key = find? (c.applyOverrides os) key := by
  obtain ⟨htoken, hurl⟩ := not_or.mp hkey
  unfold layered withVariables
  dsimp only
  split
  · rw [find?_set_of_ne _ _ hurl, find?_set_of_ne _ _ htoken]
  · rw [find?_set_of_ne _ _ htoken]

theorem find?_layered_congr (h : Host)
    (heq : find? (c.applyOverrides os) key = find? (d.applyOverrides more) key) :
    find? (layered h c os) key = find? (layered h d more) key := by
  unfold layered withVariables
  dsimp only
  split
  · exact find?_set_congr _ _ (find?_set_congr _ _ heq)
  · exact find?_set_congr _ _ heq

/-- What is done with the settings of a file: the layers above it, and the pipeline. -/
def complete (overrides : List (Value × Value)) (c : Config) : Action Config := do
  let c := c.applyOverrides overrides
  let c := c.withVariables (← Host.lookup? Token.variableName)
    (← Host.filled? "MRDECOR_GITLAB_URL")
  let (pipeline, warnings) ← readPipeline (c.get "pipeline_id")
  warnings.forM Host.record
  return c.set "pipeline_id" pipeline

theorem complete_apply (os : List (Value × Value)) (c : Config) (h : Host) :
    complete os c h = match readPipeline ((layered h c os).get "pipeline_id") with
      | .error e => (.error e, h)
      | .ok (p, warnings) =>
        (.ok ((layered h c os).set "pipeline_id" p),
          { h with records := h.records ++ warnings }) := by
  refine (bind_of_ok (Host.lookup?_apply _ h)).trans ?_
  refine (bind_of_ok (Host.filled?_apply _ h)).trans ?_
  cases hpipeline : readPipeline ((layered h c os).get "pipeline_id") with
  | error e => exact bind_of_error (congrArg (·, h) hpipeline)
  | ok r =>
    refine (bind_of_ok (congrArg (·, h) hpipeline)).trans ?_
    exact bind_of_ok (Host.forM_record_apply r.2 h)

theorem load_apply (path : String) (os : List (Value × Value)) (h : Host) :
    load path os h = match h.folder.readText path >>= ofFile with
      | .error e => (.error e, h)
      | .ok c => complete os c h := by
  cases hread : h.folder.readText path with
  | error e => exact bind_of_error (congrArg (·, h) hread)
  | ok file =>
    refine (bind_of_ok (congrArg (·, h) hread)).trans ?_
    cases file with
    | none => rfl
    | some content =>
      simp only [ok_bind, ofFile]
      cases readFile content with
      | error e => exact bind_of_error (lift_apply _ h)
      | ok file =>
        refine (bind_of_ok (lift_apply _ h)).trans ?_
        simp only [ok_bind]
        cases defaults.update file with
        | error e => exact bind_of_error (lift_apply _ h)
        | ok c => exact bind_of_ok (lift_apply _ h)

theorem load_of_ok {base : Config} {warnings : List LogRecord}
    (hbase : h.folder.readText path >>= ofFile = .ok base)
    (hpipeline : readPipeline ((layered h base os).get "pipeline_id") = .ok (p, warnings)) :
    load path os h = (.ok ((layered h base os).set "pipeline_id" p),
      { h with records := h.records ++ warnings }) := by
  rw [load_apply, hbase]
  simp only [complete_apply, hpipeline]

theorem exists_of_load_eq_ok (hload : load path os h = (.ok c, h')) :
    ∃ base p warnings, h.folder.readText path >>= ofFile = .ok base ∧
      readPipeline ((layered h base os).get "pipeline_id") = .ok (p, warnings) ∧
      c = (layered h base os).set "pipeline_id" p := by
  rw [load_apply] at hload
  cases hbase : h.folder.readText path >>= ofFile with
  | error e =>
    rw [hbase] at hload
    cases hload
  | ok base =>
    simp only [hbase, complete_apply] at hload
    cases hpipeline : readPipeline ((layered h base os).get "pipeline_id") with
    | error e =>
      simp only [hpipeline] at hload
      cases hload
    | ok r =>
      simp only [hpipeline] at hload
      cases hload
      exact ⟨base, r.1, r.2, rfl, hpipeline, rfl⟩

theorem keeps_load (path : String) (os : List (Value × Value)) :
    Leads Host.Keeps (load path os) := by
  intro h
  rw [load_apply]
  cases h.folder.readText path >>= ofFile with
  | error e => exact refl_of Host.Keeps h
  | ok c =>
    simp only [complete_apply]
    cases readPipeline ((layered h c os).get "pipeline_id") with
    | error e => exact refl_of Host.Keeps h
    | ok r => exact ⟨rfl, rfl⟩

/-- A text names a pipeline or is ignored. -/
theorem readPipeline_text (s : String) :
    (∃ i, integerOfText s = .ok i ∧ readPipeline (.text s) = .ok (.int i, [])) ∨
      (∀ i, integerOfText s ≠ .ok i) ∧
        ∃ warnings, readPipeline (.text s) = .ok (.null, warnings) := by
  have hint : (Value.text s).toInt = (integerOfText s).mapError .invalid := rfl
  unfold readPipeline
  split
  · next hnull => cases hnull
  · next hempty =>
    cases hempty
    exact Or.inr ⟨nofun, [], rfl⟩
  · next hbool => cases hbool
  · rw [hint]
    cases integerOfText s with
    | ok i => exact Or.inl ⟨i, rfl, rfl⟩
    | error e => exact Or.inr ⟨nofun, [badPipeline (.text s)], rfl⟩

end MergeDecoration.Config
