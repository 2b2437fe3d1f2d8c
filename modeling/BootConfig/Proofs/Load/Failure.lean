import BootConfig.Load.File
import BootConfig.Proofs.Schema.Ingester

/-!
# Failed loads

Settings change only at the end of a load, when all of them have been checked. Each field is then
checked once more, and none is refused.

* `Schema.WellFormed.commit_checked`: checked settings are committed without a refusal.
* `Load.run_all_or_nothing`: a load that fails leaves the settings as they are.
-/

namespace BootConfig

variable {s : Schema}

namespace Schema

/-! ## Committing -/

/-- A checked setting is assigned to its field without a refusal. -/
theorem WellFormed.assign_checked (hs : s.WellFormed) {f : Field} (hf : f ∈ s.fields)
    {input st : Setting} (h : f.check input = .ok st) (target : Setting) :
    ∃ config, s.assign target f.1.name st = .ok config := by
  obtain ⟨again, hagain⟩ := Field.check_again (hs.fields f hf) h
  refine ⟨target.put f.1.name again, ?_⟩
  unfold assign
  rw [field?_of_mem hs.distinct hf]
  show Checked.under _ ((f.check st).map _) = _
  rw [hagain]
  rfl

/-- Fields are committed without a refusal if what is committed has been checked for them. -/
theorem WellFormed.commitFields_checked (hs : s.WellFormed) {checked : Setting}
    (hchecked : ∀ f ∈ s.fields, ∀ st, checked.get? f.1.name = some st →
      ∃ input, f.check input = .ok st)
    {fields : List Field} (hfields : ∀ f ∈ fields, f ∈ s.fields) (target : Setting) :
    (s.commitFields target checked fields).2 = none := by
  induction fields generalizing target with
  | nil => rfl
  | cons f rest ih =>
    have hrest := fun g hg => hfields g (List.mem_cons_of_mem _ hg)
    rw [commitFields]
    cases hget : checked.get? f.1.name with
    | none => exact ih hrest target
    | some st =>
      have hf := hfields f List.mem_cons_self
      obtain ⟨input, hinput⟩ := hchecked f hf st hget
      obtain ⟨config, hassign⟩ := hs.assign_checked hf hinput target
      simp only [hassign]
      exact ih hrest config

/-- Checked settings are committed without a refusal. -/
theorem WellFormed.commit_checked (hs : s.WellFormed) {v : Value} {checked : Setting}
    (h : s.check v = .ok checked) (config : Setting) : (s.commit config checked).2 = none := by
  obtain ⟨es, _, _, rfl⟩ := check_group h
  refine hs.commitFields_checked (fun f hf st hst => ?_) (fun f hf => hf) config
  obtain ⟨g, hg, hname, v, hcheck⟩ := exists_field_of_checkFields (Setting.mem_fields hst)
  have hsame : g = f := List.inj_on_of_nodup_map hs.distinct hg hf hname
  exact ⟨.value v, hsame ▸ hcheck⟩

/-! ## Failures -/

/-- A document over settings that can be written out fails by the faults of both together, and for
no other reason. -/
theorem WellFormed.absorb_failure (hs : s.WellFormed) {config : Setting} {base : Entries}
    (hbase : config.toValue?.bind Value.entries? = some base) (path : String) (upper : Entries) :
    (s.absorb path config upper).2 = (s.check (.map (Entries.overlay base upper))).issues?.map
      fun issues => .unacceptable path (.mismatch issues) := by
  unfold absorb
  rw [hbase]
  dsimp only
  cases hchecked : s.check (.map (Entries.overlay base upper)) with
  | error issues => rfl
  | ok checked =>
    dsimp only
    rw [hs.commit_checked hchecked config]
    rfl

/-- A document is absorbed as a whole, or the settings stay as they are. -/
theorem WellFormed.absorb_failed (hs : s.WellFormed) {path : String} {config : Setting}
    {upper : Entries} (h : (s.absorb path config upper).2 ≠ none) :
    (s.absorb path config upper).1 = config := by
  unfold absorb at h ⊢
  split
  · rfl
  · rename_i base hbase
    rw [hbase] at h
    simp only at h ⊢
    split
    · rfl
    · rename_i checked hchecked
      rw [hchecked] at h
      simp only [hs.commit_checked hchecked config] at h
      exact (h rfl).elim

end Schema

namespace Load

theorem apply_failed (hs : s.WellFormed) {path : String} {config : Setting} {content : Bytes}
    (h : (apply s path config content).2.2 ≠ none) :
    (apply s path config content).1 = config := by
  unfold apply at h ⊢
  split
  · rfl
  · rfl
  · rename_i v hv
    rw [hv] at h
    simp only at h ⊢
    split
    · rfl
    · rename_i upper hupper
      rw [hupper] at h
      exact hs.absorb_failed h
    · rfl

theorem run_failed (hs : s.WellFormed) {files : FileTree} {env : Environment} {r : Request}
    {config : Setting} {metric : Metric} {f : LoadFailure}
    (h : (run s files env r config metric).result = .error f) :
    (run s files env r config metric).config = config := by
  unfold run at h ⊢
  split
  · rfl
  · rename_i content hread
    rw [hread] at h
    simp only at h ⊢
    split
    · rfl
    · rename_i content' hexpand
      rw [hexpand] at h
      simp only at h
      -- the settings are those that applying the content leaves
      cases happly : apply s r.path config content' with
      | mk config' rest =>
        obtain ⟨notices, failure⟩ := rest
        rw [happly] at h
        cases failure with
        | none => cases h
        | some e =>
          have hfailed : (apply s r.path config content').2.2 ≠ none := by
            rw [happly]
            exact Option.some_ne_none e
          have hsame := apply_failed hs hfailed
          rw [happly] at hsame
          exact hsame

/-- **A failed load leaves the settings as they are.** Whatever the settings are, from whatever path
and in whatever environment they are loaded, and in whatever way the load fails, no setting has
changed. For once the new settings have been checked as a whole, none of them is refused when it is
assigned to its field. -/
theorem run_all_or_nothing (hs : s.WellFormed) (files : FileTree) (env : Environment) (r : Request)
    (config : Setting) (metric : Metric) :
    (∀ f, (run s files env r config metric).result = .error f →
      (run s files env r config metric).config = config) ∧
    ∀ v checked, s.check v = .ok checked → (s.commit config checked).2 = none :=
  ⟨fun _ h => run_failed hs h, fun _ _ h => hs.commit_checked h config⟩

/-- A file with two good settings and one port out of range; without that port all is accepted. -/
theorem run_all_or_nothing_portOutOfRange :
    let files : FileTree := ⟨["srv"], [(["srv", "cfg.yaml"],
      .file (Utf8.ofString "log: \x7blevel: debug\x7d\nserver: \x7bhttp_listen_port: 70000\x7d"))]⟩
    let level : Value := .map [(.text (Text.ofString "level"), .string "debug")]
    let good : Value := .map [(.text (Text.ofString "log"), level)]
    ∃ config f checked, Ingester.schema.WellFormed ∧
      (run Ingester.schema files Environment.empty ⟨"cfg.yaml", true⟩ config Metric.new).result =
        .error f ∧
      (run Ingester.schema files Environment.empty ⟨"cfg.yaml", true⟩ config Metric.new).config =
        config ∧
      Ingester.schema.check good = .ok checked ∧
      (Ingester.schema.commit config checked).2 = none := by
  intro files level good
  have hs : Ingester.schema.WellFormed := Ingester.wellFormed _ (by simp [Ingester.schemas])
  let config := (Ingester.schema.check (.map [])).toOption.getD (.value .null)
  let o := run Ingester.schema files Environment.empty ⟨"cfg.yaml", true⟩ config Metric.new
  have hfails : o.result.toOption.isNone = true := by decide +kernel
  have hgood : (Ingester.schema.check good).toOption.isSome = true := by decide +kernel
  obtain ⟨hkept, hcommit⟩ :=
    run_all_or_nothing hs files Environment.empty ⟨"cfg.yaml", true⟩ config Metric.new
  cases hresult : o.result with
  | ok fingerprint =>
    rw [hresult] at hfails
    cases hfails
  | error f =>
    cases hchecked : Ingester.schema.check good with
    | error issues =>
      rw [hchecked] at hgood
      cases hgood
    | ok checked =>
      exact ⟨config, f, checked, hs, hresult, hkept f hresult, rfl, hcommit good checked hchecked⟩

end Load

end BootConfig
