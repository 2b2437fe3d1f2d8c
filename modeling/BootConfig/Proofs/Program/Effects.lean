import BootConfig.Program.World
import BootConfig.Proofs.Journal.Delivered
import BootConfig.Proofs.Program.Configured

/-!
# Effects of runs

Until a run has its settings it has no effect on the journal, and until it succeeds it starts no
server. What it does then is what its settings say: it sets up the journal for the level, and for a
log file if one is named, and serves its registry on the port, unless that is zero.

* `Ingester.LogSettings.journal`, `Ingester.ServerSettings.port?`: what a record of settings asks
  for.
* `launch_cases`: what a run does with its settings.
* `World.runs_effects`: the effects of all runs in any course of things.
-/

namespace BootConfig

/-! ## What records of settings ask for -/

namespace Ingester

def LogLevel.severity : LogLevel → Severity
  | .debug => Severity.debug
  | .info => Severity.info
  | .warning => Severity.warning
  | .error => Severity.error
  | .critical => Severity.critical

namespace LogSettings

/-- The log file that is written to. An empty name is none. -/
def path? (r : LogSettings) : Option Text := r.file.filter fun t => !t.isEmpty

/-- A journal that writes to the console alone. -/
def consoleJournal (r : LogSettings) : Journal :=
  ⟨r.level.severity,
    [⟨.console .diagnostics, Journal.layoutOf r.format.name, r.level.severity⟩]⟩

/-- A journal that writes to the console, and to the log file if there is one. -/
def journal (r : LogSettings) (t : FileTree) : Journal :=
  let layout := Journal.layoutOf r.format.name
  ⟨r.level.severity, ⟨.console .diagnostics, layout, r.level.severity⟩ ::
    r.path?.toList.map fun path =>
      ⟨.file (t.absoluteNames (Pathname.ofText path))
        ⟨r.rotationSize, r.retentionCount⟩, layout, r.level.severity⟩⟩

/-- What the journal is set up with. -/
def journalSettings (r : LogSettings) : Journal.Settings :=
  ⟨r.level.name, r.format.name, r.file, ⟨r.rotationSize, r.retentionCount⟩,
    .diagnostics⟩

end LogSettings

/-- The port where metrics are served. Zero is none. -/
def ServerSettings.port? (r : ServerSettings) : Option Int :=
  if (r.metricsPort : Int) = 0 then none else some r.metricsPort

end Ingester

/-! ## What a run reads of its settings -/

namespace Program

open Ingester (Settings LogSettings ServerSettings)

section Settings

variable {config : Setting} {r : Settings}

/-- A scalar of the unfolded settings is what is read of the settings. -/
theorem scalarAt?_unfolded {config' : Setting} {group name : String} {s : Scalar}
    (h : config.unfolded? = some config')
    (hpart : ((config'.get? group).bind fun g => g.get? name) = some (.value (.scalar s))) :
    scalarAt? config group name = some s := by
  obtain ⟨part', hpart', hleaf'⟩ := Option.bind_eq_some_iff.mp hpart
  obtain ⟨part, hpart, hunfold⟩ := Setting.get?_unfolded h hpart'
  obtain ⟨leaf, hleaf, hscalar⟩ := Setting.get?_unfolded hunfold hleaf'
  unfold scalarAt?
  rw [hpart, Option.bind_some, hleaf]
  exact Setting.scalar?_unfolded hscalar

theorem ofOptional_eq (o : Option Text) :
    Ingester.ofOptional o = .value (.scalar (o.elim .null .text)) := by
  cases o <;> rfl

theorem journalSettings_eq (h : config.unfolded? = some r.toSetting) :
    journalSettings config = r.log.journalSettings := by
  have hlevel : scalarAt? config "log" "level" = some (.text (Text.ofString r.log.level.name)) :=
    scalarAt?_unfolded h rfl
  have hformat : scalarAt? config "log" "format" =
      some (.text (Text.ofString r.log.format.name)) := scalarAt?_unfolded h rfl
  have hsize : scalarAt? config "log" "rotation_size" = some (.int r.log.rotationSize) :=
    scalarAt?_unfolded h rfl
  have hcount : scalarAt? config "log" "retention_count" = some (.int r.log.retentionCount) :=
    scalarAt?_unfolded h rfl
  have hfile : scalarAt? config "log" "file" = some (r.log.file.elim .null .text) :=
    scalarAt?_unfolded h (congrArg some (ofOptional_eq r.log.file))
  unfold journalSettings wordAt textAt? intAt LogSettings.journalSettings
  rw [hlevel, hformat, hsize, hcount, hfile]
  simp only [Option.bind_some, Text.toString?_ofString]
  cases r.log.file <;> rfl

theorem metricsPort?_eq (h : config.unfolded? = some r.toSetting) :
    metricsPort? config = r.server.port? := by
  have hport : scalarAt? config "server" "metrics_port" =
      some (.int (r.server.metricsPort : Int)) := scalarAt?_unfolded h rfl
  unfold metricsPort? intAt ServerSettings.port?
  rw [hport]
  simp [Scalar.asInt?]

end Settings

end Program

/-! ## The journal of a record -/

namespace Ingester

variable {r : LogSettings}

theorem severity?_level (l : LogLevel) {s : Journal.Settings} (h : s.level = l.name) :
    s.severity? = some l.severity := by
  unfold Journal.Settings.severity?
  rw [h]
  cases l <;> decide +kernel

theorem severity?_journalSettings (r : LogSettings) :
    r.journalSettings.severity? = some r.level.severity :=
  severity?_level r.level rfl

theorem severity_journalSettings (r : LogSettings) :
    r.journalSettings.severity = r.level.severity := by
  rw [Journal.Settings.severity, severity?_journalSettings, Option.getD_some]

/-- The log file of a record is the text that it holds, unless that is empty. -/
theorem path?_eq_some_iff {path : Text} :
    r.path? = some path ↔ r.file = some path ∧ path.isEmpty = false := by
  unfold LogSettings.path?
  rw [Option.filter_eq_some_iff]
  simp

theorem logFile_journalSettings (r : LogSettings) (t : FileTree) :
    r.journalSettings.logFile t =
      r.path?.map fun path => t.absoluteNames (Pathname.ofText path) := by
  unfold Journal.Settings.logFile LogSettings.journalSettings LogSettings.path?
  cases r.file with
  | none => rfl
  | some path =>
    rw [Option.filter_some]
    cases hempty : path.isEmpty <;> simp [hempty]

theorem journal_journalSettings (r : LogSettings) (t : FileTree) :
    r.journalSettings.journal t = r.journal t := by
  unfold Journal.Settings.journal LogSettings.journal
  rw [severity_journalSettings, logFile_journalSettings]
  cases r.path? <;> rfl

/-- A record gives a level that has a meaning. So its journal is set up, unless its log file cannot
be opened. -/
theorem setUp_journalSettings (j : Journal) (m : Moment) (t : FileTree) (r : LogSettings) :
    ((∀ path, r.path? = some path → (Journal.openLog t path).2.isOk = true) ∧
      (j.setUp m t r.journalSettings).fault = none ∧
      (j.setUp m t r.journalSettings).journal = r.journal t) ∨
    ∃ path f, r.path? = some path ∧ (Journal.openLog t path).2 = .error f ∧
      (j.setUp m t r.journalSettings).fault = some f ∧
      (j.setUp m t r.journalSettings).journal = r.consoleJournal := by
  have hlevel : r.journalSettings.severity?.isSome = true := by
    rw [severity?_journalSettings]
    rfl
  rcases Journal.setUp_cases j m t hlevel with
    ⟨hnone, hsetUp⟩ | ⟨path, hfile, hempty, hopened⟩
  · refine .inl ⟨fun path hpath => ?_, by rw [hsetUp], by rw [hsetUp, journal_journalSettings]⟩
    rw [logFile_journalSettings, hpath] at hnone
    cases hnone
  · have hpath : r.path? = some path := path?_eq_some_iff.mpr ⟨hfile, hempty⟩
    rcases hopened with ⟨left, f, hopen, hsetUp⟩ | ⟨opened, hopen, hsetUp⟩
    · refine .inr ⟨path, f, hpath, by rw [hopen], by rw [hsetUp], ?_⟩
      rw [hsetUp, severity_journalSettings]
      rfl
    · refine .inl ⟨fun path' hpath' => ?_, by rw [hsetUp], by rw [hsetUp, journal_journalSettings]⟩
      cases hpath.symm.trans hpath'
      rw [hopen]
      rfl

end Ingester

/-! ## Launches -/

namespace Program

open Ingester (Settings)

/-- A run with settings sets up the journal that these ask for, starts the server that they ask for,
and succeeds, unless the log file cannot be opened. -/
theorem launch_cases (m : Moment) (p : Progress) {c : Configured} {r : Settings}
    (h : c.config.unfolded? = some r.toSetting) :
    ((∀ path, r.log.path? = some path → (Journal.openLog p.host.files path).2.isOk = true) ∧
      (launch m p c).ending = .returned 0 ∧ (launch m p c).served = r.server.port?.toList ∧
      (launch m p c).progress.host.journal = r.log.journal p.host.files) ∨
    ∃ path f, r.log.path? = some path ∧ (Journal.openLog p.host.files path).2 = .error f ∧
      (launch m p c).ending = .failed (.journal f) ∧ (launch m p c).served = [] ∧
      (launch m p c).progress.host.journal = r.log.consoleJournal := by
  unfold launch
  rw [journalSettings_eq h, metricsPort?_eq h]
  rcases Ingester.setUp_journalSettings p.host.journal m p.host.files r.log with
    ⟨hopen, hfault, hjournal⟩ | ⟨path, f, hpath, hopen, hfault, hjournal⟩
  · refine .inl ⟨hopen, ?_⟩
    simp only [hfault, true_and, journal_tellAll, journal_take]
    exact hjournal
  · refine .inr ⟨path, f, hpath, hopen, ?_⟩
    simp only [hfault, true_and, journal_take]
    exact hjournal

/-! ## Runs -/

namespace World

namespace Run

/-- The first part of a run, in which it finds out its settings. -/
def configured (r : Run) : Progress × Except Ending Configured :=
  configure r.moment r.found.host r.invocation

/-- Whether a run comes to its settings. -/
def hasSettings (r : Run) : Bool := r.configured.2.isOk

variable {r : Run}

/-- A run that ends before it has its settings fails, starts no server, and leaves the journal. -/
theorem without_settings {e : Ending} (h : r.configured.2 = .error e) :
    r.outcome.ending = e ∧ e ≠ .returned 0 ∧ r.started = [] ∧
      r.left.host.journal = r.found.host.journal := by
  have hconfigure : configure r.moment r.found.host r.invocation = (r.configured.1, .error e) :=
    Prod.ext rfl h
  have hprepares := prepares_configure r.moment r.found.host r.invocation
  have houtcome : r.outcome = ⟨r.configured.1, [], e⟩ := by
    rw [outcome, Program.run, hconfigure]
  unfold left started
  rw [houtcome]
  exact ⟨rfl, hprepares.fails e h, rfl, hprepares.journal⟩

/-- A run that has its settings does what these say. -/
theorem with_settings {c : Configured} (h : r.configured.2 = .ok c) :
    ∃ settings : Settings, Merges r.moment r.found.host r.invocation c.config ∧
      c.config.unfolded? = some settings.toSetting ∧
      ((r.outcome.ending = .returned 0 ∧
        (∀ path, settings.log.path? = some path →
          (Journal.openLog r.configured.1.host.files path).2.isOk = true) ∧
        r.started = settings.server.port?.toList.map (fun port => ⟨port, r.invocation.registry⟩) ∧
        r.left.host.journal = settings.log.journal r.configured.1.host.files) ∨
      ∃ path f, settings.log.path? = some path ∧
        (Journal.openLog r.configured.1.host.files path).2 = .error f ∧
        r.outcome.ending = .failed (.journal f) ∧ r.started = [] ∧
        r.left.host.journal = settings.log.consoleJournal) := by
  have hconfigure : configure r.moment r.found.host r.invocation = (r.configured.1, .ok c) :=
    Prod.ext rfl h
  have houtcome : r.outcome = launch r.moment r.configured.1 c := by
    rw [outcome, Program.run, hconfigure]
  obtain ⟨hmerges, hsettled⟩ :=
    (prepares_configure r.moment r.found.host r.invocation).yields c h
  obtain ⟨config', _, hunfold, hplain, -⟩ := hsettled.check_again Ingester.sectioned
  obtain ⟨settings, rfl⟩ := Ingester.settings_of_plain hplain
  refine ⟨settings, hmerges, hunfold, ?_⟩
  unfold left started
  rw [houtcome]
  dsimp only
  rcases launch_cases r.moment r.configured.1 hunfold with
    ⟨hopen, hending, hserved, hjournal⟩ | ⟨path, f, hpath, hopen, hending, hserved, hjournal⟩
  · refine .inl ⟨hending, hopen, ?_, hjournal⟩
    rw [hserved]
  · refine .inr ⟨path, f, hpath, hopen, hending, ?_, hjournal⟩
    rw [hserved, List.map_nil]

end Run

/-! ## Courses of runs -/

/-- The journal after some runs: that of the last one that came to its settings. -/
def journalAfter (j : Journal) (rs : List Run) : Journal :=
  ((rs.filter Run.hasSettings).getLast?.map fun r => r.left.host.journal).getD j

theorem journalAfter_append (j : Journal) (rs rs' : List Run) :
    journalAfter j (rs ++ rs') = journalAfter (journalAfter j rs) rs' := by
  unfold journalAfter
  rw [List.filter_append, List.getLast?_append]
  cases (rs'.filter Run.hasSettings).getLast? <;> rfl

theorem servers_step (w : World) (e : Step) :
    (w.step e).servers = w.servers ++ (w.run? e).toList.flatMap Run.started := by
  cases e with
  | run m i => simp [step, run?, Run.left]
  | _ => simp [step, run?]

theorem journal_step (w : World) (e : Step) :
    (w.step e).host.journal = journalAfter w.host.journal (w.run? e).toList := by
  cases e with
  | setEnvironment env => rfl
  | setFiles files => rfl
  | run m i =>
    let r : Run := ⟨w, m, i⟩
    show r.left.host.journal = journalAfter w.host.journal [r]
    unfold journalAfter
    cases hconfigured : r.configured.2 with
    | error e =>
      have hnone : r.hasSettings = false := by
        unfold Run.hasSettings
        rw [hconfigured]
        rfl
      rw [List.filter_cons_of_neg (ne_true_of_eq_false hnone)]
      exact (Run.without_settings hconfigured).2.2.2
    | ok c =>
      have hsome : r.hasSettings = true := by
        unfold Run.hasSettings
        rw [hconfigured]
        rfl
      rw [List.filter_cons_of_pos hsome]
      rfl

/-- The effects of several steps are those of the runs among them, one after the other. -/
theorem after_runs (w : World) (steps : List Step) :
    (w.after steps).servers = w.servers ++ (w.runs steps).flatMap Run.started ∧
      (w.after steps).host.journal = journalAfter w.host.journal (w.runs steps) := by
  induction steps generalizing w with
  | nil => exact ⟨(List.append_nil _).symm, rfl⟩
  | cons e rest ih =>
    obtain ⟨hservers, hjournal⟩ := ih (w.step e)
    refine ⟨?_, ?_⟩
    · show ((w.step e).after rest).servers = _
      rw [hservers, servers_step, runs, List.flatMap_append, List.append_assoc]
    · show ((w.step e).after rest).host.journal = _
      rw [hjournal, journal_step, runs, journalAfter_append]

/-- **No effect before success.** However often the program is run in a process, with whatever
arguments, environments, files, registries and test modes: the servers are those that the runs have
started, and the journal is the one that the last run with settings has left.

A run that does not succeed starts no server. A run that ends before it has its settings leaves the
journal as it has been. A run that succeeds has merged its settings from defaults, document and
flags, and they are a valid record; on the port of the record it starts one server of its own
registry, and none if the port is zero; and it leaves the journal of the record, with the level,
the console, and a log file just if the name of one is not empty. A run that has its settings and
does not succeed could not open the log file, be it for the files there are or for a name that
cannot be written, and leaves the console. -/
theorem runs_effects (w : World) (steps : List Step) :
    ((w.after steps).servers = w.servers ++ (w.runs steps).flatMap Run.started ∧
      (w.after steps).host.journal = journalAfter w.host.journal (w.runs steps)) ∧
    ∀ r ∈ w.runs steps,
      (r.outcome.ending ≠ .returned 0 → r.started = []) ∧
      (∀ e, r.configured.2 = .error e → r.outcome.ending = e ∧ e ≠ .returned 0 ∧
        r.left.host.journal = r.found.host.journal) ∧
      (r.outcome.ending = .returned 0 → ∃ c, ∃ settings : Settings, r.configured.2 = .ok c ∧
        Merges r.moment r.found.host r.invocation c.config ∧
        c.config.unfolded? = some settings.toSetting ∧
        (∀ path, settings.log.path? = some path →
          (Journal.openLog r.configured.1.host.files path).2.isOk = true) ∧
        r.started = settings.server.port?.toList.map (fun port => ⟨port, r.invocation.registry⟩) ∧
        r.left.host.journal = settings.log.journal r.configured.1.host.files) ∧
      (∀ c, r.configured.2 = .ok c → r.outcome.ending ≠ .returned 0 →
        ∃ settings : Settings, ∃ path f, c.config.unfolded? = some settings.toSetting ∧
          settings.log.path? = some path ∧
          (Journal.openLog r.configured.1.host.files path).2 = .error f ∧
          r.outcome.ending = .failed (.journal f) ∧
          r.left.host.journal = settings.log.consoleJournal) := by
  refine ⟨after_runs w steps, fun r _ => ?_⟩
  cases hconfigured : r.configured.2 with
  | error e =>
    obtain ⟨hending, hne, hstarted, hjournal⟩ := Run.without_settings hconfigured
    refine ⟨fun _ => hstarted, fun e' he => ?_, fun hsuccess => ?_, fun c hc => ?_⟩
    · cases he
      exact ⟨hending, hne, hjournal⟩
    · exact (hne (hending.symm.trans hsuccess)).elim
    · cases hc
  | ok c =>
    obtain ⟨settings, hmerges, hunfold, heffects⟩ := Run.with_settings hconfigured
    rcases heffects with
      ⟨hending, hopen, hstarted, hjournal⟩ | ⟨path, f, hpath, hopen, hending, hstarted, hjournal⟩
    · refine ⟨fun hfailed => (hfailed hending).elim, fun e he => ?_, fun _ => ?_,
        fun _ _ hfailed => (hfailed hending).elim⟩
      · cases he
      · exact ⟨c, settings, rfl, hmerges, hunfold, hopen, hstarted, hjournal⟩
    · refine ⟨fun _ => hstarted, fun e he => ?_, fun hsuccess => ?_, fun c' hc' _ => ?_⟩
      · cases he
      · cases hending.symm.trans hsuccess
      · cases hc'
        exact ⟨settings, path, f, hunfold, hpath, hopen, hending, hjournal⟩

/-- Of five runs the second alone succeeds: the first fails to load its file in test mode, the third
exits for the same reason, and the fourth because of a port out of range. The last one has a log file
whose name cannot be written; it fails, starts no server, and leaves the console. -/
theorem runs_effects_secondSucceeds :
    let files : FileTree := ⟨["srv"], [
      (["srv", "good.yaml"], .file (Utf8.ofString "log: \x7blevel: debug\x7d")),
      (["srv", "bad.yaml"], .file (Utf8.ofString "log: \x7blevel: loud\x7d")),
      (["srv", "lone.yaml"], .file (Utf8.ofString "log: \x7bfile: \x22\\ud800\x22\x7d"))]⟩
    let w := World.begin ⟨Environment.empty, files, ["srv"], Journal.initial, Registries.empty⟩
    let m : Moment := ⟨"2024-05-06", "07:08:09", "010"⟩
    let steps : List Step := [
      .run m ⟨["--config.file=bad.yaml"], "default", true⟩,
      .run m ⟨["--config.file=good.yaml", "--server.metrics-port", "9100"], "other", false⟩,
      .run m ⟨["--config.file=bad.yaml", "--server.metrics-port", "9200"], "default", false⟩,
      .run m ⟨["--server.metrics-port", "70000"], "default", false⟩,
      .run m ⟨["--config.file=lone.yaml", "--server.metrics-port", "9300"], "default", false⟩]
    (w.after steps).servers = [⟨9100, "other"⟩] ∧
      (w.after steps).host.journal = ⟨20, [⟨.console .diagnostics, .text, 20⟩]⟩ ∧
      ∃ r ∈ w.runs steps, r.outcome.ending = .returned 0 ∧ ∃ settings : Settings,
        [(⟨9100, "other"⟩ : Server)] =
          settings.server.port?.toList.map (fun port => ⟨port, r.invocation.registry⟩) ∧
        r.left.host.journal = settings.log.journal r.configured.1.host.files := by
  intro files w m steps
  obtain ⟨⟨hservers, hjournal⟩, hruns⟩ := runs_effects w steps
  have hevaluated : (w.runs steps).map Run.started = [[], [⟨9100, "other"⟩], [], [], []] ∧
      journalAfter w.host.journal (w.runs steps) =
        ⟨20, [⟨.console .diagnostics, .text, 20⟩]⟩ := by decide +kernel
  obtain ⟨hstarted, hlast⟩ := hevaluated
  obtain ⟨r, hr, hserver⟩ : ∃ r ∈ w.runs steps, r.started = [⟨9100, "other"⟩] :=
    List.mem_map.mp (hstarted ▸ by simp)
  obtain ⟨hfailed, -, hsucceeds, -⟩ := hruns r hr
  -- a run that starts a server has succeeded
  have hending : r.outcome.ending = .returned 0 := by
    by_contra hne
    rw [hfailed hne] at hserver
    cases hserver
  obtain ⟨_, settings, -, -, -, -, hsettings, hleft⟩ := hsucceeds hending
  refine ⟨?_, hjournal.trans hlast, r, hr, hending, settings, ?_, hleft⟩
  · rw [hservers, List.flatMap_def, hstarted]
    rfl
  · rw [← hserver, hsettings]

end World

end Program

end BootConfig
