import BootConfig.Program.Run
import BootConfig.Proofs.Session.Settings
import BootConfig.Proofs.Startup.Precedence
import BootConfig.Proofs.Startup.Transitions

/-!
# The settings in effect

A run first finds out its settings. Up to then it leaves the journal as it has been, and if it ends
before it has them, it ends without success. The settings are the defaults, with the document over
them and the flags over that, and they are a valid record.

* `Prepares`: parts of a run that leave the journal.
* `Merges`: what the settings of a run are made of.
* `prepares_configure`: the first part of a run, as a whole.
-/

namespace BootConfig.Program

open Options (CommandLine)

/-! ## What is told -/

@[simp]
theorem journal_take (p : Progress) (d : Delivery) : (p.take d).host.journal = p.host.journal := rfl

@[simp]
theorem journal_tell (m : Moment) (p : Progress) (t : Telling) :
    (p.tell m t).host.journal = p.host.journal := by
  cases t with
  | notice n => rfl
  | line s => rfl

/-- Whatever is told, the journal that it is told to stays. -/
@[simp]
theorem journal_tellAll (m : Moment) (p : Progress) (ts : List Telling) :
    (p.tellAll m ts).host.journal = p.host.journal := by
  unfold Progress.tellAll
  induction ts generalizing p with
  | nil => rfl
  | cons t rest ih =>
    rw [List.foldl_cons, ih, journal_tell]

/-- The first that a startup tells is what a run has announced before. -/
theorem tellings_run (s : Schema) (files : FileTree) (env : Environment) (args : List String)
    (testMode : Bool) (c : Startup.Context) :
    (Startup.run s files env args testMode c).tellings =
      .notice (Startup.locatedNotice (Locator.locate args)) ::
        (Startup.run s files env args testMode c).tellings.tail := by
  unfold Startup.run
  dsimp only
  split
  · rfl
  · split <;> rfl

@[simp]
theorem journal_announce (m : Moment) (p : Progress) (args : List String) :
    (announce m p args).host.journal = p.host.journal :=
  journal_tell m p _

/-! ## Parts of a run -/

/-- A part of a run that leaves the journal as it has been. It yields something with a property, or
else the run ends with it, and not with success. -/
structure Prepares {α : Type} (p : Progress) (P : α → Prop) (o : Progress × Except Ending α) :
    Prop where
  journal : o.1.host.journal = p.host.journal
  yields : ∀ a, o.2 = .ok a → P a
  fails : ∀ e, o.2 = .error e → e ≠ .returned 0

namespace Prepares

variable {α : Type} {p p' : Progress} {P : α → Prop}

theorem ok {a : α} (hjournal : p'.host.journal = p.host.journal) (ha : P a) :
    Prepares p P (p', .ok a) where
  journal := hjournal
  yields b hb := by
    cases hb
    exact ha
  fails e he := by cases he

theorem error {e : Ending} (hjournal : p'.host.journal = p.host.journal) (he : e ≠ .returned 0) :
    Prepares p P (p', .error e) where
  journal := hjournal
  yields a ha := by cases ha
  fails e' he' := by
    cases he'
    exact he

end Prepares

/-- Arguments that are refused, and those that ask for a text, end the run. -/
theorem prepares_applyCommandLine (p : Progress) (c : CommandLine) (config : Setting)
    (args : List String) :
    Prepares p (fun config' => ∃ as, c.read args = .settings as ∧
      (Ingester.schema.applyFlags config as).stop = none ∧
      config' = (Ingester.schema.applyFlags config as).config)
      (applyCommandLine p c config args) := by
  unfold applyCommandLine
  split
  · exact .error rfl (by simp)
  · exact .error rfl (by simp)
  · exact .error rfl (by simp)
  · rename_i as hread
    dsimp only
    split
    · rename_i hstop
      exact .ok rfl ⟨as, hread, hstop, rfl⟩
    · exact .error rfl (by simp)
    · exact .error rfl (by simp)

/-- A load that fails ends the run, in test mode as well. -/
theorem prepares_startUp (m : Moment) (p : Progress) (i : Invocation) (config : Setting) :
    Prepares p (fun x => ∃ metric,
      let q := announce m p i.args
      let o := Startup.run Ingester.schema q.host.files q.host.environment i.args i.testMode
        ⟨config, metric, commandLine⟩
      o.ending = .reported x.2 ∧ x.2.state ≠ .failed ∧ x.1 = o.context)
      (startUp m p i config) := by
  unfold startUp
  split
  · exact .error rfl (by simp)
  · rename_i registries id _
    dsimp only
    have hjournal : ∀ (registries : Registries) (ts : List Telling),
        (Progress.tellAll m
          { announce m p i.args with host := { (announce m p i.args).host with registries } }
          ts).host.journal = p.host.journal := by
      intro registries ts
      simp
    split
    · rename_i r hending
      split
      · exact .error (hjournal _ _) (by simp [Startup.loadFailureCode])
      · rename_i hstate
        exact .ok (hjournal _ _) ⟨registries.metric id, hending, by simpa using hstate, rfl⟩
    · exact .error (hjournal _ _) (by simp)
    · exact .error (hjournal _ _) (by simp)
    · exact .error (hjournal _ _) (by simp)

/-! ## What the settings are made of -/

/-- A run when its settings file is about to be read: the variables of the environment file have
been set. -/
def beforeLoad (m : Moment) (host : Host) (args : List String) : Progress :=
  announce m (.begin { host with environment := (loadEnvironment host).1 }) args

/-- The document that a run loads, if a file is located. -/
def document? (m : Moment) (host : Host) (args : List String) : Option Entries :=
  let p := beforeLoad m host args
  Startup.document? p.host.files p.host.environment args

/-- Each leaf of some settings is given by its flag, or else by the document, or else by its
default. -/
def Merges (m : Moment) (host : Host) (i : Invocation) (config : Setting) : Prop :=
  ∃ defaults as, Ingester.schema.defaults = .ok defaults ∧
    fullCommandLine.read i.args = .settings as ∧
    ∀ l ∈ Ingester.schema.leaves,
      l.Takes ((as.lookup l.path).or ((document? m host i.args).bind (·.leaf? l))) defaults config

/-- The command line of the program takes the startup options. -/
theorem eq_fullCommandLine {c : CommandLine}
    (h : commandLine.declareAll Flags.startupOptions = .ok c) : c = fullCommandLine := by
  have hfree : ∀ x ∈ Startup.startupSpellings, x ∉ commandLine.spelled := by decide +kernel
  rw [Startup.declareAll_startupOptions hfree] at h
  exact (Except.ok.inj h).symm

/-- **The settings of a run.** A run finds out its settings before it touches the journal. They are
the defaults, with the document over them and the flags over that, and every leaf holds a value that
its field leaves as it is. A run that does not come to its settings ends without success. -/
theorem prepares_configure (m : Moment) (host : Host) (i : Invocation) :
    Prepares (.begin host)
      (fun c => Merges m host i c.config ∧ c.config.IsSettled Ingester.schema)
      (configure m host i) := by
  unfold configure
  cases henvironment : loadEnvironment host with
  | mk environment fault =>
    dsimp only
    split
    · exact .error rfl (by simp)
    · exact .error rfl (by simp)
    · rename_i defaults hdefaults
      have hstartUp := prepares_startUp m (.begin { host with environment }) i defaults
      generalize startUp m (.begin { host with environment }) i defaults = o at hstartUp ⊢
      obtain ⟨p, e | ⟨c, report⟩⟩ := o
      · exact .error hstartUp.journal (hstartUp.fails e rfl)
      · dsimp only
        obtain ⟨metric, hending, hstate, hcontext⟩ := hstartUp.yields _ rfl
        dsimp only at hcontext hending hstate
        have hcommandLine := prepares_applyCommandLine p c.commandLine c.config i.args
        generalize applyCommandLine p c.commandLine c.config i.args = o at hcommandLine ⊢
        obtain ⟨p', e | config⟩ := o
        · exact .error (hcommandLine.journal.trans hstartUp.journal) (hcommandLine.fails e rfl)
        · obtain ⟨as, hread, hstop, rfl⟩ := hcommandLine.yields _ rfl
          subst hcontext
          have hsettled := Ingester.keeps_settled.startup
            (c := ⟨defaults, metric, commandLine⟩) (Ingester.keeps_settled.check hdefaults)
            (announce m (.begin { host with environment }) i.args).host.files environment i.args
            i.testMode
          have htakes := Startup.takes_flags Ingester.sectioned hdefaults Startup.setsFlags_program
            hending hstate hread hstop
          rw [eq_fullCommandLine (Startup.run_cases hending hstate).1] at hread
          refine .ok (hcommandLine.journal.trans hstartUp.journal)
            ⟨⟨defaults, as, hdefaults, hread, ?_⟩, Ingester.keeps_settled.applyFlags hsettled as⟩
          unfold document? beforeLoad
          rw [henvironment]
          exact htakes

end BootConfig.Program
