import BootConfig.Program
import BootConfig.Startup
import BootConfig.Proofs.Flags.Apply
import BootConfig.Proofs.Load.Absorb
import BootConfig.Proofs.Schema.Ingester

/-!
# Defaults, then the file, then the flags

What a setting is after a startup and the application of the flags, for every argument list, every
environment and all files.

* `run_cases`: how a startup ends that does not fail.
* `ingester_precedence`: each leaf is given by its flag, or else by the document, or else by its
  default; no other flag and no other key has a part in it.
-/

namespace BootConfig.Startup

open Options (Assignments CommandLine)

/-- The document that a startup loads, if a file is located. -/
def document? (files : FileTree) (env : Environment) (args : List String) : Option Entries :=
  let o := Locator.locate args
  if o.configFile.isEmpty then none else Load.document? files env ⟨o.configFile, o.expandEnv⟩

/-- A command line on which all options for settings are flags of a schema. -/
def SetsFlags (c : CommandLine) (s : Schema) : Prop :=
  ∀ o ∈ c.options, ∀ path, o.meaning.purpose = .setting path → o ∈ s.flags

variable {s : Schema} {files : FileTree} {env : Environment} {args : List String} {testMode : Bool}
  {c : Context} {r : Report}

def Ending.report? : Ending → Option Report
  | .reported r => some r
  | _ => none

theorem Ending.report?_eq_some {e : Ending} (h : e.report? = some r) : e = .reported r := by
  cases e with
  | reported r' => exact congrArg Ending.reported (Option.some.inj h)
  | exit code why => cases h
  | escaped e => cases h
  | conflict c => cases h

theorem declare_reported {c c' : Context} {r r' : Report} (h : declare c r = (c', .reported r')) :
    c'.config = c.config ∧ c.commandLine.declareAll Flags.startupOptions = .ok c'.commandLine := by
  unfold declare at h
  split at h
  · rename_i commandLine hdeclare
    cases h
    exact ⟨rfl, hdeclare⟩
  · cases h

/-- A startup that does not fail leaves the settings as they are, or loads a file into them. Then
the startup options are declared. -/
theorem run_cases (hend : (run s files env args testMode c).ending = .reported r)
    (hstate : r.state ≠ .failed) :
    c.commandLine.declareAll Flags.startupOptions =
        .ok (run s files env args testMode c).context.commandLine ∧
      (((Locator.locate args).configFile.isEmpty = true ∧
          (run s files env args testMode c).context.config = c.config) ∨
        ((Locator.locate args).configFile.isEmpty = false ∧ ∃ load fingerprint,
          load = Load.run s files env
            ⟨(Locator.locate args).configFile, (Locator.locate args).expandEnv⟩ c.config c.metric ∧
          load.result = .ok fingerprint ∧
          (run s files env args testMode c).context.config = load.config)) := by
  unfold run at hend ⊢
  dsimp only at hend ⊢
  cases hempty : (Locator.locate args).configFile.isEmpty with
  | true =>
    rw [hempty] at hend
    simp only [if_true] at hend ⊢
    cases hdeclare : declare c ⟨.defaultsOnly, Locator.locate args, none, none⟩ with
    | mk c' ending =>
      rw [hdeclare] at hend
      cases hend
      obtain ⟨hconfig, hcommandLine⟩ := declare_reported hdeclare
      exact ⟨hcommandLine, .inl ⟨trivial, hconfig⟩⟩
  | false =>
    rw [hempty] at hend
    simp only [Bool.false_eq_true, if_false] at hend ⊢
    generalize Load.run s files env
      ⟨(Locator.locate args).configFile, (Locator.locate args).expandEnv⟩ c.config c.metric = load
      at hend ⊢
    cases hresult : load.result with
    | error f =>
      rw [hresult] at hend
      cases f with
      | reported e =>
        -- in test mode the load is reported, but as a failed one
        have hend : onFailure testMode (Locator.locate args) load.metric e = .reported r := hend
        unfold onFailure at hend
        split at hend
        · cases hend
          exact (hstate rfl).elim
        · cases hend
      | escaped e => cases hend
    | ok fingerprint =>
      rw [hresult] at hend
      dsimp only at hend ⊢
      cases hdeclare : declare ⟨load.config, load.metric, c.commandLine⟩
        ⟨.defaultsMerged, Locator.locate args, some fingerprint, none⟩ with
      | mk c' ending =>
        rw [hdeclare] at hend
        cases hend
        obtain ⟨hconfig, hcommandLine⟩ := declare_reported hdeclare
        exact ⟨hcommandLine, .inr ⟨trivial, load, fingerprint, rfl, hresult, hconfig⟩⟩

/-! ## Precedence -/

/-- A startup that does not fail gives each leaf what the document says of it, or else leaves it. -/
theorem takes_document (hs : Sectioned s) {config : Setting} {metric : Metric}
    {commandLine : CommandLine} (hdefaults : s.defaults = .ok config)
    (hend : (run s files env args testMode ⟨config, metric, commandLine⟩).ending = .reported r)
    (hstate : r.state ≠ .failed) :
    (run s files env args testMode ⟨config, metric, commandLine⟩).context.config.InSections s ∧
      ∀ l ∈ s.leaves, l.Takes ((document? files env args).bind (·.leaf? l)) config
        (run s files env args testMode ⟨config, metric, commandLine⟩).context.config := by
  unfold document?
  dsimp only
  rcases (run_cases hend hstate).2 with
    ⟨hempty, hconfig⟩ | ⟨hempty, load, fingerprint, rfl, hresult, hconfig⟩
  · rw [hempty, hconfig]
    refine ⟨hs.inSections hdefaults, fun l hl => ?_⟩
    obtain ⟨d, _, _, _, _, hleaf⟩ := hs.leaf?_defaults hdefaults hl
    exact ⟨_, hleaf, hleaf⟩
  · rw [hempty, hconfig]
    exact hs.load hdefaults hresult

theorem leaf_of_path (hs : Sectioned s) {c c' : CommandLine} {as : Assignments}
    (hflags : SetsFlags c s) (hdeclare : c.declareAll Flags.startupOptions = .ok c')
    (hread : c'.read args = .settings as) :
    ∀ path ∈ as.map Prod.fst, ∃ l ∈ s.leaves, l.path = path := by
  intro path hpath
  obtain ⟨o, ho, hpurpose⟩ := (CommandLine.paths_of_read hread).2 path hpath
  rw [CommandLine.options_declareAll hdeclare] at ho
  rcases List.mem_append.mp ho with ho | ho
  · exact hs.path_of_mem_flags (hflags o ho path hpurpose) hpurpose
  · -- the startup options are no settings
    rcases List.mem_cons.mp ho with rfl | ho
    · cases hpurpose
    · rw [List.mem_singleton.mp ho] at hpurpose
      cases hpurpose

/-- The precedence for any schema in sections: the flags come after the document. -/
theorem takes_flags (hs : Sectioned s) {config : Setting} {metric : Metric}
    {commandLine : CommandLine} {as : Assignments} (hdefaults : s.defaults = .ok config)
    (hflags : SetsFlags commandLine s)
    (hend : (run s files env args testMode ⟨config, metric, commandLine⟩).ending = .reported r)
    (hstate : r.state ≠ .failed)
    (hread : (run s files env args testMode ⟨config, metric, commandLine⟩).context.commandLine.read
      args = .settings as)
    (happly : (s.applyFlags (run s files env args testMode
      ⟨config, metric, commandLine⟩).context.config as).stop = none) :
    ∀ l ∈ s.leaves,
      l.Takes ((as.lookup l.path).or ((document? files env args).bind (·.leaf? l))) config
        (s.applyFlags (run s files env args testMode
          ⟨config, metric, commandLine⟩).context.config as).config := by
  -- the flags are applied to settings that the document has already changed
  obtain ⟨hsections, hdocument⟩ := takes_document hs hdefaults hend hstate
  have hleaves : ∀ l ∈ s.leaves, (Setting.leaf?
      (run s files env args testMode ⟨config, metric, commandLine⟩).context.config l).isSome =
        true := by
    intro l hl
    obtain ⟨leaf, hleaf, _⟩ := hdocument l hl
    rw [hleaf]
    rfl
  have hpaths := leaf_of_path hs hflags (run_cases hend hstate).1 hread
  have hdistinct := (CommandLine.paths_of_read hread).1
  intro l hl
  exact (hdocument l hl).trans (hs.applyFlags hsections hleaves hdistinct hpaths happly l hl)

theorem setsFlags_program : SetsFlags Program.commandLine Ingester.schema := by
  intro o ho path hpath
  rcases List.mem_cons.mp ho with rfl | ho
  · cases hpath
  · rcases List.mem_cons.mp ho with rfl | ho
    · cases hpath
    · exact ho

/-- **Defaults, then the file, then the flags.** Let a startup with fresh settings not fail, the
command line accept the arguments, and no flag be refused. Then every leaf holds what its check
makes of the value of its own flag; without one, of the value under its own key in the document; and
without that, its default. No other flag and no other key has a part in it. -/
theorem ingester_precedence {config : Setting} {metric : Metric} {commandLine : CommandLine}
    {o : Outcome} {as : Assignments} (hdefaults : Ingester.schema.defaults = .ok config)
    (hflags : SetsFlags commandLine Ingester.schema)
    (hrun : run Ingester.schema files env args testMode ⟨config, metric, commandLine⟩ = o)
    (hend : o.ending = .reported r) (hstate : r.state ≠ .failed)
    (hread : o.context.commandLine.read args = .settings as)
    (happly : (Ingester.schema.applyFlags o.context.config as).stop = none) :
    ∀ l ∈ Ingester.schema.leaves,
      l.Takes ((as.lookup l.path).or ((document? files env args).bind (·.leaf? l))) config
        (Ingester.schema.applyFlags o.context.config as).config := by
  subst hrun
  exact takes_flags Ingester.sectioned hdefaults hflags hend hstate hread happly

/-- One file and one argument list for which all this holds: the file gives the log level, a flag
the port. -/
theorem ingester_precedence_file_and_flag :
    let files : FileTree := ⟨["srv"], [(["srv", "cfg.yaml"],
      .file ("log: \x7blevel: debug\x7d".toList.map fun c => UInt8.ofNat c.toNat))]⟩
    let args := ["--config.file=cfg.yaml", "--server.http-listen-port", "80"]
    ∃ config o r as, Ingester.schema.defaults = .ok config ∧
      run Ingester.schema files Environment.empty args false
        ⟨config, Metric.new, Program.commandLine⟩ = o ∧
      o.ending = .reported r ∧ r.state ≠ .failed ∧ o.context.commandLine.read args = .settings as ∧
      (Ingester.schema.applyFlags o.context.config as).stop = none ∧
      ∀ l ∈ Ingester.schema.leaves,
        l.Takes ((as.lookup l.path).or ((document? files Environment.empty args).bind (·.leaf? l)))
          config (Ingester.schema.applyFlags o.context.config as).config := by
  intro files args
  -- the fresh settings, so that what follows can be evaluated
  let fresh := Ingester.schema.defaults.toOption.getD (.value .null)
  let o := run Ingester.schema files Environment.empty args false
    ⟨fresh, Metric.new, Program.commandLine⟩
  have hdefaults : Ingester.schema.defaults = .ok fresh := by
    have hsome : Ingester.schema.defaults.toOption.isSome = true := by decide +kernel
    show _ = Except.ok (Ingester.schema.defaults.toOption.getD _)
    cases h : Ingester.schema.defaults with
    | ok config => rfl
    | error issues =>
      rw [h] at hsome
      cases hsome
  have hend : (o.ending.report?.any fun r => r.state != .failed) = true := by decide +kernel
  have hread : ((o.context.commandLine.read args).settings?.any fun as =>
      (Ingester.schema.applyFlags o.context.config as).stop.isNone) = true := by
    decide +kernel
  obtain ⟨r, hr, hstate⟩ := (Option.any_eq_true _ _).mp hend
  obtain ⟨as, has, hstop⟩ := (Option.any_eq_true _ _).mp hread
  have hr := Ending.report?_eq_some hr
  have hstate := bne_iff_ne.mp hstate
  have has := Options.Request.settings?_eq_some has
  have hstop := Option.isNone_iff_eq_none.mp hstop
  exact ⟨fresh, o, r, as, hdefaults, rfl, hr, hstate, has, hstop,
    ingester_precedence hdefaults setsFlags_program rfl hr hstate has hstop⟩

end BootConfig.Startup
