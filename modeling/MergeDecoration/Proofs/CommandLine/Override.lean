import MergeDecoration.CommandLine
import MergeDecoration.Proofs.Config.Load

/-!
Settings of the command line, put in place at two times: by the command itself, over settings that
were loaded before, or while the settings are loaded. Both are to come to the same, the token aside.
They do unless a pipeline is given that is no number. It is to be ignored, and the command does so,
while loading puts it over the pipeline of the file and then has none.
-/
namespace MergeDecoration.CommandLine

open Stateful Value Config

namespace Decorate

namespace Options

/-- What the flags about the summary say, null for one that is not given. -/
def flags (o : Options) : List (Value × Value) :=
  [(.text "summary_note_first", (o.summaryFirst.map Value.bool).getD .null),
    (.text "summary_note_edit", (o.summaryEdit.map Value.bool).getD .null)]

/-- The pipeline as it is given, null if it is not. -/
def givenPipeline (o : Options) : Value := (o.pipeline.map .text).getD .null

/-- All that is given of the settings. -/
def overrides (o : Options) : List (Value × Value) :=
  o.flags ++ [(.text "pipeline_id", o.givenPipeline)]

/-- The pipeline that is named, null if none is given or no number. -/
def namedPipeline (o : Options) : Value :=
  match o.pipeline.map integerOfText with
  | some (.ok i) => .int i
  | _ => .null

/-- A pipeline that is given is a number. -/
def NamesPipeline (o : Options) : Prop :=
  ∀ text, o.pipeline = some text → ∃ i, integerOfText text = .ok i

end Options

variable {key : Value}

theorem hasNames_flags (o : Options) : HasNames o.flags := by
  simp [HasNames, Options.flags]

theorem find?_flags_of_ne (c : Config) (o : Options) (hfirst : key ≠ .text "summary_note_first")
    (hedit : key ≠ .text "summary_note_edit") :
    find? (c.applyOverrides o.flags) key = find? c key := by
  apply find?_applyOverrides_of_ne
  simp [Options.flags, hfirst, hedit]

theorem find?_pipeline_of_ne (c : Config) (v : Value) (hkey : key ≠ .text "pipeline_id") :
    find? (c.applyOverrides [(.text "pipeline_id", v)]) key = find? c key := by
  apply find?_applyOverrides_of_ne
  simp [hkey]

theorem exists_override (c : Config) (o : Options) : ∃ warnings, override c o =
    .ok ((c.applyOverrides o.flags).applyOverrides [(.text "pipeline_id", o.namedPipeline)],
      warnings) := by
  rw [← applyOverrides_append]
  unfold override Options.namedPipeline
  cases o.pipeline with
  | none => exact ⟨[], rfl⟩
  | some text =>
    rcases readPipeline_text text with ⟨i, hi, hread⟩ | ⟨hnone, warnings, hread⟩
    · refine ⟨[], ?_⟩
      simp only [Option.map_some, hread, hi]
      rfl
    · refine ⟨warnings, ?_⟩
      cases hi : integerOfText text with
      | ok i => exact absurd hi (hnone i)
      | error e =>
        simp only [Option.map_some, hread, hi]
        rfl

end Decorate

/-- The settings of a run are those that are loaded, but for the token. -/
theorem find?_settings {c d : Config} {key : Value} {path : String} {h h₁ h' : Host}
    (hload : Config.load path [] h = (.ok c, h₁))
    (hsettings : settings path h = (.ok d, h')) (hkey : key ≠ .text "gitlab_token") :
    find? d key = find? c key := by
  rw [show settings path h = _ from bind_of_ok hload, bind_apply] at hsettings
  rcases hresolve : Token.resolve (c.get "gitlab_url") h₁ with ⟨e | token, h₂⟩
  · rw [hresolve] at hsettings
    cases hsettings
  · rw [hresolve] at hsettings
    cases token with
    | none =>
      cases hsettings
      rfl
    | some token =>
      cases hsettings
      exact find?_set_of_ne _ _ hkey

namespace Decorate

variable {c base : Config} {key : Value} {path : String} {h : Host}

/-- Beside token and pipeline, the settings of a run and the settings that are loaded with those of
the command line are the same. -/
theorem find?_layered_overrides (o : Options) (h : Host) (base : Config)
    (htoken : key ≠ .text "gitlab_token") (hpipeline : key ≠ .text "pipeline_id") :
    find? (((layered h base []).applyOverrides o.flags)) key =
      find? (layered h base o.overrides) key := by
  have hoverrides : find? (base.applyOverrides o.overrides) key =
      find? (base.applyOverrides o.flags) key := by
    rw [Options.overrides, applyOverrides_append, find?_pipeline_of_ne _ _ hpipeline]
  by_cases hurl : key = .text "gitlab_url"
  -- A variable may set the instance over the file, but the command line never speaks of it.
  · subst hurl
    rw [find?_flags_of_ne _ _ (by simp) (by simp)]
    apply find?_layered_congr
    rw [hoverrides, find?_flags_of_ne _ _ (by simp) (by simp)]
    rfl
  · have hvariable : ¬IsVariableKey key := not_or.mpr ⟨htoken, hurl⟩
    rw [find?_layered_of_ne _ _ _ hvariable, hoverrides]
    apply find?_applyOverrides_congr (hasNames_flags o)
    rw [find?_layered_of_ne _ _ _ hvariable]
    rfl

theorem find?_override_pipeline (c : Config) (o : Options) :
    find? ((c.applyOverrides o.flags).applyOverrides [(.text "pipeline_id", o.namedPipeline)])
        (.text "pipeline_id") =
      if o.namedPipeline.isNull then find? c (.text "pipeline_id") else some o.namedPipeline := by
  rw [find?_applyOverrides_single, find?_flags_of_ne _ _ (by simp) (by simp)]

/-- The pipeline that is read where the settings of the command line are loaded with the others. -/
theorem get_layered_overrides (o : Options) (h : Host) (base : Config) :
    (layered h base o.overrides).get "pipeline_id" =
      if o.givenPipeline.isNull then (layered h base []).get "pipeline_id"
      else o.givenPipeline := by
  have hlayered (os : List (Value × Value)) :
      find? (layered h base os) (.text "pipeline_id") =
        find? (base.applyOverrides os) (.text "pipeline_id") :=
    find?_layered_of_ne _ _ _ (by simp [IsVariableKey])
  have hgiven : find? (layered h base o.overrides) (.text "pipeline_id") =
      if o.givenPipeline.isNull then find? (layered h base []) (.text "pipeline_id")
      else some o.givenPipeline := by
    rw [hlayered, hlayered, Options.overrides, applyOverrides_append, find?_applyOverrides_single,
      find?_flags_of_ne _ _ (by simp) (by simp)]
    rfl
  split_ifs at hgiven ⊢
  · exact get_congr hgiven
  · exact get_of_find? hgiven

/-- The pipeline that is read is the one that the run names, or else that of the file; what is no
number is read as none. -/
theorem exists_readPipeline {p : Value} {ws : List LogRecord} (o : Options)
    (hp : readPipeline ((layered h base []).get "pipeline_id") = .ok (p, ws)) :
    ∃ p' ws', readPipeline ((layered h base o.overrides).get "pipeline_id") = .ok (p', ws') ∧
      (o.NamesPipeline → p' = if o.namedPipeline.isNull then p else o.namedPipeline) ∧
      (¬o.NamesPipeline → p' = .null ∧ o.namedPipeline = .null) := by
  rw [get_layered_overrides]
  unfold Options.givenPipeline Options.namedPipeline Options.NamesPipeline
  cases o.pipeline with
  | none => exact ⟨p, ws, hp, fun _ => rfl, fun hnames => absurd nofun hnames⟩
  | some text =>
    rcases readPipeline_text text with ⟨i, hi, hread⟩ | ⟨hnone, warnings, hread⟩
    · refine ⟨.int i, [], hread, ?_, ?_⟩
      · simp [hi, isNull]
      · intro hnames
        refine absurd ?_ hnames
        rintro _ ⟨⟩
        exact ⟨i, hi⟩
    · refine ⟨.null, warnings, hread, ?_, ?_⟩
      · intro hnames
        obtain ⟨i, hi⟩ := hnames text rfl
        exact absurd hi (hnone i)
      · cases hi : integerOfText text with
        | ok i => exact absurd hi (hnone i)
        | error e => simp [hi]

/-- Settings that can be loaded can be loaded with those of the command line, and a run goes by the
same settings, the token aside, if it puts those in place itself and any pipeline that is given is a
number. One that is no number costs the pipeline of the file where settings are loaded with it, though
a run keeps that of the file. -/
theorem override_load {h₁ : Host} (o : Options) (hload : load path [] h = (.ok c, h₁)) :
    ∃ c' h₂, load path o.overrides h = (.ok c', h₂) ∧
      ∀ d, (d = c ∨ ∃ h₃, settings path h = (.ok d, h₃)) →
        ∃ merged warnings, override d o = .ok (merged, warnings) ∧
          (∀ key, key ≠ .text "gitlab_token" → key ≠ .text "pipeline_id" →
            find? merged key = find? c' key) ∧
          (o.NamesPipeline →
            find? merged (.text "pipeline_id") = find? c' (.text "pipeline_id")) ∧
          (¬o.NamesPipeline →
            find? merged (.text "pipeline_id") = find? c (.text "pipeline_id") ∧
            find? c' (.text "pipeline_id") = some .null) := by
  -- Both ways start from the same layers below the command line, and each reads a pipeline.
  obtain ⟨base, p, ws, hbase, hp, hc⟩ := exists_of_load_eq_ok hload
  obtain ⟨p', ws', hp', hnamed, hunnamed⟩ := exists_readPipeline o hp
  refine ⟨_, _, load_of_ok hbase hp', ?_⟩
  intro d hd
  have hfind (key : Value) (hkey : key ≠ .text "gitlab_token") : find? d key = find? c key := by
    rcases hd with rfl | ⟨h₃, hsettings⟩
    · rfl
    · exact find?_settings hload hsettings hkey
  obtain ⟨warnings, hoverride⟩ := exists_override d o
  have hpipeline := find?_override_pipeline d o
  rw [hfind _ (by simp), hc, find?_set_self] at hpipeline
  refine ⟨_, warnings, hoverride, ?_, ?_, ?_⟩
  · intro key htoken hkey
    rw [find?_pipeline_of_ne _ _ hkey, find?_set_of_ne _ _ hkey,
      ← find?_layered_overrides o h base htoken hkey]
    apply find?_applyOverrides_congr (hasNames_flags o)
    rw [hfind key htoken, hc, find?_set_of_ne _ _ hkey]
  · intro hnames
    rw [hpipeline, find?_set_self, hnamed hnames]
    split_ifs <;> rfl
  · intro hnames
    obtain ⟨rfl, hnull⟩ := hunnamed hnames
    rw [hpipeline, hnull, hc, find?_set_self, find?_set_self]
    exact ⟨rfl, rfl⟩

/-- A settings file that names a pipeline. -/
def pipelineFile : String := "pipeline_id: 5\n"

def pipelineHost : Host where
  folder := Folder.ofTexts [(Config.fileName, Text.Utf8.encode pipelineFile.toList)]

/-- The only entry of a mapping, if it is an integer. -/
def entry? : Except Fault Value → Option (String × Int)
  | .ok (.map [(.text name, .int i)]) => some (name, i)
  | _ => none

theorem eq_of_entry? {x : Except Fault Value} {name : String} {i : Int}
    (hx : entry? x = some (name, i)) : x = .ok (.map [(.text name, .int i)]) := by
  unfold entry? at hx
  split at hx
  · cases hx
    rfl
  · cases hx

def pipelineSettings : Config := defaults.set "pipeline_id" (.int 5)

theorem ofFile_pipelineFile :
    pipelineHost.folder.readText Config.fileName >>= ofFile = .ok pipelineSettings := by
  have hread : pipelineHost.folder.readText Config.fileName = .ok (some pipelineFile) :=
    eq_ok_of_toOption (by decide +kernel)
  have hyaml : Yaml.read pipelineFile = .ok (.map [(.text "pipeline_id", .int 5)]) :=
    eq_of_entry? (by decide +kernel)
  rw [hread, ok_bind, ofFile, readFile, hyaml]
  rfl

/-- The settings that are loaded from this file. -/
def loadedPipeline : Config := (layered pipelineHost pipelineSettings []).set "pipeline_id" (.int 5)

theorem readPipeline_pipelineHost :
    readPipeline ((layered pipelineHost pipelineSettings []).get "pipeline_id") =
      .ok (.int 5, []) := by
  have hfind : find? (layered pipelineHost pipelineSettings []) (.text "pipeline_id") =
      some (.int 5) :=
    (find?_layered_of_ne _ _ _ (by simp [IsVariableKey])).trans (find?_set_self ..)
  rw [get_of_find? hfind]
  rfl

theorem load_pipelineHost :
    load Config.fileName [] pipelineHost = (.ok loadedPipeline, pipelineHost) :=
  load_of_ok ofFile_pipelineFile readPipeline_pipelineHost

/-- Given flags and a number, the run goes by what is loaded with these. -/
theorem override_load_seven :
    let o : Options := {
      project := "g/r", report := "report.json", summaryEdit := some true, pipeline := some " 7 " }
    load Config.fileName [] pipelineHost = (.ok loadedPipeline, pipelineHost) ∧
    o.NamesPipeline ∧
    ∃ c' h' merged warnings, load Config.fileName o.overrides pipelineHost = (.ok c', h') ∧
      override loadedPipeline o = .ok (merged, warnings) ∧
      ∀ key, key ≠ .text "gitlab_token" → find? merged key = find? c' key := by
  intro o
  have hnames : o.NamesPipeline := by
    rintro _ ⟨⟩
    exact ⟨7, eq_ok_of_toOption (by decide +kernel)⟩
  obtain ⟨c', h', hload, hmerged⟩ := override_load o load_pipelineHost
  obtain ⟨merged, warnings, hoverride, hsame, hnumber, -⟩ := hmerged _ (Or.inl rfl)
  refine ⟨load_pipelineHost, hnames, c', h', merged, warnings, hload, hoverride, ?_⟩
  intro key htoken
  by_cases hkey : key = .text "pipeline_id"
  · rw [hkey]
    exact hnumber hnames
  · exact hsame key htoken hkey

/-- The two ways are to agree, and a pipeline that is no number is to be ignored; yet loading loses
that of the file over it, which the run keeps. -/
theorem override_load_apart :
    let o : Options := { project := "g/r", report := "report.json", pipeline := some "abc" }
    load Config.fileName [] pipelineHost = (.ok loadedPipeline, pipelineHost) ∧
    ∃ c' h' merged warnings, load Config.fileName o.overrides pipelineHost = (.ok c', h') ∧
      override loadedPipeline o = .ok (merged, warnings) ∧
      find? merged (.text "pipeline_id") = some (.int 5) ∧
      find? c' (.text "pipeline_id") = some .null := by
  intro o
  have hnames : ¬o.NamesPipeline := by
    intro hnames
    obtain ⟨i, hi⟩ := hnames "abc" rfl
    have hnone : (integerOfText "abc").toOption = none := by decide +kernel
    rw [hi] at hnone
    cases hnone
  obtain ⟨p', ws', hp', -, hunnamed⟩ := exists_readPipeline o readPipeline_pipelineHost
  obtain ⟨rfl, hnull⟩ := hunnamed hnames
  obtain ⟨warnings, hoverride⟩ := exists_override loadedPipeline o
  refine ⟨load_pipelineHost, _, _, _, _, load_of_ok ofFile_pipelineFile hp', hoverride, ?_,
    find?_set_self ..⟩
  rw [find?_override_pipeline, hnull]
  exact find?_set_self ..

end Decorate

end MergeDecoration.CommandLine
