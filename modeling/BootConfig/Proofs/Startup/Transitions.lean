import BootConfig.Startup
import BootConfig.Proofs.Load.Failure
import BootConfig.Proofs.Options.Accepted
import BootConfig.Proofs.Schema.Ingester
import BootConfig.Proofs.Session.Fingerprint

/-!
# The transitions of a startup

A startup ends in one of three states, or the program exits. Which of these it is, and what becomes
of the settings, of the metric and of the command line, depends on the located path and on the load
alone, whatever has been loaded before.

* `Load.stage_of_reported`: at which stage a load has failed.
* `declareAll_startupOptions`: the startup options are declared where they are not taken.
* `run_transitions`: all transitions of a startup.
-/

namespace BootConfig

open Options (CommandLine CommandOption OptionForm)

/-! ## The stage of a failure -/

namespace Load

/-- The failure that a load reports. -/
def Outcome.reported? (o : Outcome) : Option (LoadError LoadCause) :=
  match o.result with
  | .error (.reported e) => some e
  | _ => none

theorem Outcome.reported?_eq_some {o : Outcome} {e : LoadError LoadCause}
    (h : o.reported? = some e) : o.result = .error (.reported e) := by
  unfold reported? at h
  split at h
  · rename_i hresult
    cases h
    exact hresult
  · cases h

variable {s : Schema} {files : FileTree} {env : Environment} {r : Request} {config : Setting}
  {metric : Metric} {path : String} {content : Bytes} {e : LoadError LoadCause}

theorem stage_of_readFile (h : readFile files path = .error (.reported e)) :
    e.stage = .reading := by
  unfold readFile at h
  split at h
  · cases h
  · split at h
    · cases h
    · cases h
      rfl

theorem stage_of_absorb {upper : Entries}
    (h : (s.absorb path config upper).2 = some (.reported e)) : e.stage = .parsing := by
  unfold Schema.absorb at h
  split at h
  · cases h
  · split at h
    · cases h
      rfl
    · -- a refusal after the whole was accepted is no reported failure
      obtain ⟨issues, -, hrefused⟩ := Option.map_eq_some_iff.mp h
      cases hrefused

theorem stage_of_apply (h : (apply s path config content).2.2 = some (.reported e)) :
    e.stage = .parsing := by
  unfold apply at h
  split at h
  · cases h
    rfl
  · cases h
  · split at h
    · cases h
    · exact stage_of_absorb h
    · cases h
      rfl

/-- The stage at which a load has failed tells whether its file has been read. -/
theorem stage_of_reported (h : (run s files env r config metric).result = .error (.reported e)) :
    e.stage = if (fingerprint? files r.path).isSome then .parsing else .reading := by
  unfold run at h
  unfold fingerprint?
  cases hread : readFile files r.path with
  | error f =>
    rw [hread] at h
    cases h
    exact stage_of_readFile hread
  | ok content =>
    rw [hread] at h
    dsimp only at h
    split at h
    · cases h
    · rename_i content' _
      cases happly : apply s r.path config content' with
      | mk config' rest =>
        obtain ⟨notices, failure⟩ := rest
        rw [happly] at h
        cases failure with
        | none => cases h
        | some f =>
          cases h
          exact stage_of_apply (by rw [happly])

end Load

/-! ## Declared options -/

namespace Options.CommandLine

/-- A command line with the startup options after all others. -/
def withStartup (c : CommandLine) : CommandLine :=
  { c with options := c.options ++ Flags.startupOptions }

end Options.CommandLine

namespace Startup

/-- The spellings of the two startup options. -/
def startupSpellings : List String :=
  ["--config.file", "-config.file", "--config.expand-env", "-config.expand-env"]

theorem spelled_withStartup (c : CommandLine) :
    c.withStartup.spelled = c.spelled ++ startupSpellings :=
  List.flatMap_append

/-- The startup options are declared, one after the other, where none of their spellings is
taken. -/
theorem declareAll_startupOptions {c : CommandLine} (h : ∀ x ∈ startupSpellings, x ∉ c.spelled) :
    c.declareAll Flags.startupOptions = .ok c.withStartup :=
  CommandLine.declareAll_of_not_spelled h (by decide)

/-! ## Transitions -/

variable {s : Schema} {files : FileTree} {env : Environment} {args : List String} {testMode : Bool}
  {c : Context}

theorem declare_of_not_spelled {commandLine : CommandLine}
    (h : ∀ x ∈ startupSpellings, x ∉ commandLine.spelled) (config : Setting) (metric : Metric)
    (r : Report) : declare ⟨config, metric, commandLine⟩ r =
      (⟨config, metric, commandLine.withStartup⟩, .reported r) := by
  unfold declare
  rw [declareAll_startupOptions h]

/-- The load of the file that a startup locates. -/
def loadOf (s : Schema) (files : FileTree) (env : Environment) (args : List String) (c : Context) :
    Load.Outcome :=
  let o := Locator.locate args
  Load.run s files env ⟨o.configFile, o.expandEnv⟩ c.config c.metric

/-- A startup without a path. -/
theorem run_noPath (s : Schema) (files : FileTree) (env : Environment) (testMode : Bool)
    (hpath : (Locator.locate args).configFile = "")
    (hfree : ∀ x ∈ startupSpellings, x ∉ c.commandLine.spelled) :
    (run s files env args testMode c).context =
        ⟨c.config, c.metric, c.commandLine.withStartup⟩ ∧
      (run s files env args testMode c).ending =
        .reported ⟨.defaultsOnly, Locator.locate args, none, none⟩ := by
  unfold run
  dsimp only
  rw [if_pos (String.isEmpty_iff.mpr hpath),
    show declare c _ = _ from declare_of_not_spelled hfree c.config c.metric _]
  exact ⟨rfl, rfl⟩

/-- A startup whose load succeeds. -/
theorem run_merged (testMode : Bool) (hpath : (Locator.locate args).configFile ≠ "")
    (hfree : ∀ x ∈ startupSpellings, x ∉ c.commandLine.spelled) {fingerprint : String}
    (hresult : (loadOf s files env args c).result = .ok fingerprint) :
    (run s files env args testMode c).context = ⟨(loadOf s files env args c).config,
        (loadOf s files env args c).metric, c.commandLine.withStartup⟩ ∧
      (run s files env args testMode c).ending =
        .reported ⟨.defaultsMerged, Locator.locate args, some fingerprint, none⟩ := by
  unfold loadOf at hresult ⊢
  unfold run
  dsimp only at hresult ⊢
  rw [if_neg (mt String.isEmpty_iff.mp hpath), hresult]
  dsimp only
  rw [declare_of_not_spelled hfree]
  exact ⟨rfl, rfl⟩

/-- A startup whose load fails in one way or the other. -/
theorem run_unloaded (testMode : Bool) (hs : s.WellFormed)
    (hpath : (Locator.locate args).configFile ≠ "")
    {f : LoadFailure} (hresult : (loadOf s files env args c).result = .error f) :
    (run s files env args testMode c).context =
        ⟨c.config, (loadOf s files env args c).metric, c.commandLine⟩ ∧
      (run s files env args testMode c).ending = match f with
        | .reported e => onFailure testMode (Locator.locate args) (loadOf s files env args c).metric e
        | .escaped e => .escaped e := by
  have hkept := Load.run_failed hs hresult
  unfold loadOf at hresult ⊢
  unfold run
  dsimp only at hresult ⊢
  rw [if_neg (mt String.isEmpty_iff.mp hpath)]
  cases f <;> simp only [hresult, hkept, and_self]

/-- What is reported of a failed load, whatever was in effect before. -/
theorem onFailure_recordIf {o : StartupOptions} {metric : Metric} {found : Option String}
    {e : LoadError LoadCause} (hstage : e.stage = if found.isSome then .parsing else .reading) :
    onFailure testMode o (metric.recordIf found) e =
      if testMode then .reported ⟨.failed, o, found, some e⟩ else .exit loadFailureCode e := by
  unfold onFailure
  rw [hstage]
  cases found <;> rfl

/-- **The transitions of a startup.** On a command line on which the startup options are not
declared, whatever the arguments, the settings, the files, the environment and the metric are:

* without a path the startup ends with the defaults, no fingerprint and no failure, and the settings
  and the metric are as they were;
* if the load of the file succeeds, the startup ends with the settings that the load leaves, and the
  fingerprint it reports is that of the file just read and the one in effect;
* if the load fails, the settings are as they were. The program exits, or in test mode the failure
  is reported, with the fingerprint of the file that was attempted if it could be read, and else
  with none, whatever fingerprint has been in effect.

The spellings of the startup options are declared in the first two cases and in no other. -/
theorem run_transitions (hs : s.WellFormed) (files : FileTree) (env : Environment)
    (args : List String) (testMode : Bool) (c : Context)
    (hfree : ∀ x ∈ startupSpellings, x ∉ c.commandLine.spelled) :
    let o := Locator.locate args
    let found := Load.fingerprint? files o.configFile
    let load := Load.run s files env ⟨o.configFile, o.expandEnv⟩ c.config c.metric
    let after := run s files env args testMode c
    let declared := c.commandLine.spelled ++ startupSpellings
    if o.configFile = "" then
      after.ending = .reported ⟨.defaultsOnly, o, none, none⟩ ∧
      after.context.config = c.config ∧ after.context.metric = c.metric ∧
      after.context.commandLine.spelled = declared
    else match load.result with
      | .ok fingerprint =>
        after.ending = .reported ⟨.defaultsMerged, o, some fingerprint, none⟩ ∧
        found = some fingerprint ∧ after.context.metric.current = some fingerprint ∧
        after.context.config = load.config ∧ after.context.commandLine.spelled = declared
      | .error (.reported e) =>
        after.ending = (if testMode then .reported ⟨.failed, o, found, some e⟩ else .exit 1 e) ∧
        e.stage = (if found.isSome then .parsing else .reading) ∧
        after.context = ⟨c.config, c.metric.recordIf found, c.commandLine⟩
      | .error (.escaped e) =>
        after.ending = .escaped e ∧
        after.context = ⟨c.config, c.metric.recordIf found, c.commandLine⟩ := by
  intro o found load after declared
  have hmetric : load.metric = c.metric.recordIf found := Load.metric_run
  have hdeclared : c.commandLine.withStartup.spelled = declared := spelled_withStartup _
  by_cases hpath : o.configFile = ""
  · rw [if_pos hpath]
    obtain ⟨hcontext, hending⟩ := run_noPath s files env testMode hpath hfree
    rw [hcontext]
    exact ⟨hending, rfl, rfl, hdeclared⟩
  · rw [if_neg hpath]
    cases hresult : load.result with
    | ok fingerprint =>
      obtain ⟨hcontext, hending⟩ := run_merged testMode hpath hfree hresult
      have hread := Load.fingerprint?_of_result hresult
      have hfound : found = some fingerprint := hread
      have hcurrent : load.metric.current = some fingerprint := by
        rw [hmetric, hfound]
        rfl
      rw [hcontext]
      exact ⟨hending, hfound, hcurrent, rfl, hdeclared⟩
    | error f =>
      obtain ⟨hcontext, hending⟩ := run_unloaded testMode hs hpath hresult
      have hafter : after.context = ⟨c.config, c.metric.recordIf found, c.commandLine⟩ := by
        rw [← hmetric]
        exact hcontext
      cases f with
      | reported e =>
        have hstage := Load.stage_of_reported hresult
        have hending : after.ending = onFailure testMode o load.metric e := hending
        rw [hmetric, onFailure_recordIf hstage] at hending
        exact ⟨hending, hstage, hafter⟩
      | escaped e => exact ⟨hending, hafter⟩

/-- A list in place of a mapping, in test mode, while an earlier fingerprint is in effect. -/
theorem run_transitions_notMapping :
    let files : FileTree := ⟨["srv"], [(["srv", "cfg.yaml"], .file (Utf8.ofString "- a"))]⟩
    let args := ["--config.file", "cfg.yaml", "-config.expand-env"]
    let c : Context := ⟨.group "Config" [], Metric.new.record "earlier", .new "prog" none⟩
    let found := Load.fingerprint? files "cfg.yaml"
    let after := run Ingester.schema files Environment.empty args true c
    Ingester.schema.WellFormed ∧ (∀ x ∈ startupSpellings, x ∉ c.commandLine.spelled) ∧
      found.isSome = true ∧ ∃ e, e.stage = .parsing ∧
        after.ending = .reported ⟨.failed, ⟨"cfg.yaml", true⟩, found, some e⟩ ∧
        after.context = ⟨c.config, c.metric.recordIf found, c.commandLine⟩ := by
  intro files args c found after
  have hs : Ingester.schema.WellFormed := Ingester.wellFormed _ (by simp [Ingester.schemas])
  have hfree : ∀ x ∈ startupSpellings, x ∉ c.commandLine.spelled := by decide
  have hlocated : Locator.locate args = ⟨"cfg.yaml", true⟩ := by decide +kernel
  have hfound : found.isSome = true := by decide +kernel
  have hfails : (Load.run Ingester.schema files Environment.empty ⟨"cfg.yaml", true⟩ c.config
      c.metric).reported?.isSome = true := by decide +kernel
  obtain ⟨e, hreported⟩ := Option.isSome_iff_exists.mp hfails
  have hresult := Load.Outcome.reported?_eq_some hreported
  have hrun := run_transitions hs files Environment.empty args true c hfree
  simp only [hlocated] at hrun
  rw [if_neg (by decide)] at hrun
  simp only [hresult] at hrun
  obtain ⟨hending, hstage, hcontext⟩ := hrun
  have hfound' : (Load.fingerprint? files "cfg.yaml").isSome = true := hfound
  rw [if_pos hfound'] at hstage
  exact ⟨hs, hfree, hfound, e, hstage, hending, hcontext⟩

end Startup

end BootConfig
