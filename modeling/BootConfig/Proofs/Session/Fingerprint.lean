import BootConfig.Session

/-!
# The fingerprint in the course of a session

The metric follows the file that was read last, whatever comes of its content.

* `Load.metric_run`: what one load does to the metric.
* `Session.recordings`: the fingerprints that the steps of a session record.
* `Session.metric_after`: after any steps the metric holds the last of these fingerprints alone.
-/

namespace BootConfig

/-! ## Loads and startups -/

namespace Load

/-- The fingerprint of the bytes of a file as they stand in it, if it can be read. -/
def fingerprint? (files : FileTree) (path : String) : Option String :=
  (readFile files path).toOption.map Sha256.hex

end Load

/-- The metric once a fingerprint may have been recorded. -/
def Metric.recordIf (m : Metric) : Option String → Metric
  | some fingerprint => m.record fingerprint
  | none => m

namespace Load

variable {s : Schema} {files : FileTree} {env : Environment} {r : Request} {config : Setting}
  {metric : Metric}

/-- A load whose file can be read records its fingerprint, and no other load does anything to the
metric. -/
theorem metric_run : (run s files env r config metric).metric =
    metric.recordIf (fingerprint? files r.path) := by
  unfold run fingerprint?
  cases readFile files r.path with
  | error f => rfl
  | ok content =>
    -- the content may have no expansion, or not be accepted: the fingerprint is recorded before
    dsimp only
    split
    · rfl
    · split <;> rfl

/-- A load that succeeds tells the fingerprint of its file. -/
theorem fingerprint?_of_result {fingerprint : String}
    (h : (run s files env r config metric).result = .ok fingerprint) :
    fingerprint? files r.path = some fingerprint := by
  unfold run at h
  unfold fingerprint?
  cases hread : readFile files r.path with
  | error f =>
    rw [hread] at h
    cases h
  | ok content =>
    rw [hread] at h
    dsimp only at h
    split at h
    · cases h
    · split at h
      · cases h
      · cases h
        rfl

end Load

namespace Startup

theorem metric_declare (c : Context) (r : Report) : (declare c r).1.metric = c.metric := by
  unfold declare
  split <;> rfl

/-- The fingerprint of the file that a startup locates, if it locates one and can read it. -/
def fingerprint? (files : FileTree) (args : List String) : Option String :=
  let o := Locator.locate args
  if o.configFile.isEmpty then none else Load.fingerprint? files o.configFile

/-- A startup does the same to the metric as the load of the file that it locates. -/
theorem metric_run (s : Schema) (files : FileTree) (env : Environment) (args : List String)
    (testMode : Bool) (c : Context) :
    (run s files env args testMode c).context.metric =
      c.metric.recordIf (fingerprint? files args) := by
  unfold run fingerprint?
  dsimp only
  split
  · exact metric_declare _ _
  · split
    · rw [metric_declare]
      exact Load.metric_run
    · exact Load.metric_run
    · exact Load.metric_run

end Startup

/-! ## Sessions -/

namespace Session

/-- The fingerprint that a step records, if it records one. -/
def recorded? (s : Session) : Step → Option String
  | .load r => Load.fingerprint? s.files r.path
  | .start args _ _ => Startup.fingerprint? s.files args
  | .record fingerprint => some fingerprint
  | .write _ _ | .setVariable _ _ | .assign _ _ | .applyFlags _ | .reset => none

/-- The fingerprints that steps record, in their order. -/
def recordings (s : Session) : List Step → List String
  | [] => []
  | e :: steps => (s.recorded? e).toList ++ recordings (s.step e).session steps

@[simp] theorem after_cons (s : Session) (e : Step) (steps : List Step) :
    s.after (e :: steps) = (s.step e).session.after steps := rfl

/-- What one step does to the metric. -/
theorem metric_step (s : Session) {e : Step} (he : e ≠ .reset) :
    (s.step e).session.metric = s.metric.recordIf (s.recorded? e) := by
  cases e with
  | load r => exact Load.metric_run
  | write path node => rfl
  | setVariable name value => rfl
  | assign names v =>
    unfold step
    dsimp only
    split <;> rfl
  | applyFlags as => rfl
  | record fingerprint => rfl
  | reset => exact (he rfl).elim
  | start args testMode c => exact Startup.metric_run _ _ _ _ _ _

/-- What steps do to a metric: only the last fingerprint that they record counts. -/
theorem metric_steps (s : Session) {steps : List Step} (h : Step.reset ∉ steps) :
    (s.after steps).metric = s.metric.recordIf (s.recordings steps).getLast? := by
  induction steps generalizing s with
  | nil => rfl
  | cons e steps ih =>
    obtain ⟨he, hsteps⟩ := not_or.mp (mt List.mem_cons.mpr h)
    rw [after_cons, ih _ hsteps, metric_step s (Ne.symm he), recordings, List.getLast?_append]
    cases ((s.step e).session.recordings steps).getLast? with
    | some fingerprint => rfl
    | none => cases s.recorded? e <;> rfl

theorem metric_begin {schema : Schema} {files : FileTree} {env : Environment} {s : Session}
    (h : Session.begin schema files env = .ok s) : s.metric = Metric.new := by
  unfold Session.begin at h
  cases hdefaults : schema.defaults with
  | error issues =>
    rw [hdefaults] at h
    cases h
  | ok config =>
    rw [hdefaults] at h
    cases h
    rfl

/-- **The metric follows the file read last.** After any steps of a session the fingerprint in
effect is the one recorded last, and the gauge has one sample for it, with the value one, and no
other; before any is recorded there is none. A load records the fingerprint of its file as it was
read, whether placeholders are replaced or not, in whatever environment, and whatever comes of the
content; if it succeeds, this is the fingerprint it tells. A load that cannot read its file leaves
the metric as it is. -/
theorem metric_after {schema : Schema} {files : FileTree} {env : Environment} {s : Session}
    (h : Session.begin schema files env = .ok s) {steps : List Step} (hreset : Step.reset ∉ steps) :
    (s.after steps).metric.current = (s.recordings steps).getLast? ∧
    (s.after steps).metric.gauge.samples = ((s.recordings steps).getLast?.map (·, 1)).toList ∧
    ∀ path expand env,
      let t := s.after steps
      let load := Load.run t.schema t.files env ⟨path, expand⟩ t.config t.metric
      match Load.readFile t.files path with
      | .ok content => load.metric = ⟨⟨[(Sha256.hex content, 1)]⟩, some (Sha256.hex content)⟩ ∧
          ∀ fingerprint, load.result = .ok fingerprint → fingerprint = Sha256.hex content
      | .error _ => load.metric = t.metric ∧ ∀ fingerprint, load.result ≠ .ok fingerprint := by
  refine ⟨?_, ?_, fun path expand env => ?_⟩
  · rw [metric_steps s hreset, metric_begin h]
    cases (s.recordings steps).getLast? <;> rfl
  · rw [metric_steps s hreset, metric_begin h]
    cases (s.recordings steps).getLast? <;> rfl
  · dsimp only
    have hresult := @Load.fingerprint?_of_result (s.after steps).schema (s.after steps).files env
      ⟨path, expand⟩ (s.after steps).config (s.after steps).metric
    rw [Load.metric_run]
    unfold Load.fingerprint? at hresult ⊢
    cases hread : Load.readFile (s.after steps).files path with
    | ok content =>
      rw [hread] at hresult
      exact ⟨rfl, fun fingerprint hok => (Option.some.inj (hresult hok)).symm⟩
    | error f =>
      rw [hread] at hresult
      exact ⟨rfl, fun fingerprint hok => nomatch hresult hok⟩

/-- A session in which a file is loaded, refused after it has been changed, both by a load and by a
startup, and then missing. -/
theorem metric_after_refusedLoad :
    let s : Session := ⟨⟨"Empty", []⟩, .group "Empty" [], Metric.new, FileTree.empty ["srv"],
      Environment.empty⟩
    let steps : List Step := [.write ⟨"", ["a"]⟩ (.file (Utf8.ofString "\x7b\x7d")),
      .load ⟨"a", false⟩, .record "direct", .write ⟨"", ["a"]⟩ (.file (Utf8.ofString "x: $y")),
      .load ⟨"a", true⟩, .start ["--config.file=a"] true (.new "prog" none), .load ⟨"b", true⟩]
    Session.begin ⟨"Empty", []⟩ (FileTree.empty ["srv"]) Environment.empty = .ok s ∧
      Step.reset ∉ steps ∧
      (s.after steps).metric.current = (s.recordings steps).getLast? ∧
      (s.recordings steps).length = 4 ∧
      (s.recordings steps).getLast? = some (Sha256.hex (Utf8.ofString "x: $y")) := by
  intro s steps
  have hbegin : Session.begin ⟨"Empty", []⟩ (FileTree.empty ["srv"]) Environment.empty = .ok s :=
    rfl
  have hreset : Step.reset ∉ steps := by simp [steps]
  refine ⟨hbegin, hreset, (metric_after hbegin hreset).1, ?_, ?_⟩
  · decide +kernel
  · decide +kernel

end Session

end BootConfig
