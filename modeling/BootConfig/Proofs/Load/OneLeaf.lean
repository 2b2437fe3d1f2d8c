import BootConfig.Proofs.Load.Frame

/-!
# Documents with one leaf

A document that gives a single leaf a value is accepted if the value is, whatever settings it is
laid over.

* `Schema.Lists.check_overlay`: a mapping over another one, accepted field by field.
* `Entries.IsOnly`: documents that give one leaf a value, and nothing else.
* `Load.run_isOnly`, `Load.sets_iff`: what the load of such a document leaves in its leaf.
-/

namespace BootConfig

/-! ## Accepted mappings -/

/-- There are no faults in fields whose values are accepted. -/
theorem issues_checkFields_accepted {fields : List Field} {es : Entries}
    (h : ∀ f ∈ fields, ∃ v st, f.valueIn? es = some v ∧ f.check (.value v) = .ok st) :
    (checkFields fields es).1 = [] := by
  induction fields with
  | nil => rw [checkFields]
  | cons f rest ih =>
    obtain ⟨⟨v, st, hv, hst⟩, hrest⟩ := List.forall_mem_cons.mp h
    obtain ⟨info, t⟩ := f
    have hfield : (t.check (info.prepare (.value v))).bind info.obey = .ok st := hst
    rw [checkFields, hv]
    simp only [hfield]
    exact ih hrest

/-- What is laid over a mapping is accepted if its keys are names of fields, and if each field
accepts what becomes of its value. -/
theorem Schema.Lists.check_overlay {s : Schema} {R : Field → Value → Prop} {base upper : Entries}
    (hnames : (s.fields.map fun f => f.1.name).Nodup) (h : s.Lists R base)
    (hkeys : ∀ e ∈ upper, ∃ f ∈ s.fields, e.1 = f.1.key)
    (hlaid : ∀ f ∈ s.fields, ∀ v, R f v → ∃ st, f.check (.value (upper.laid f.1.key v)) = .ok st) :
    ∃ st, s.toType.check (.value (.map (Entries.overlay base upper))) = .ok st := by
  have hfields : ∀ f ∈ s.fields, ∃ v st, f.valueIn? (Entries.overlay base upper) = some v ∧
      f.check (.value v) = .ok st := by
    intro f hf
    obtain ⟨v, hv, hR⟩ := h.get? hnames f hf
    obtain ⟨st, hst⟩ := hlaid f hf v hR
    refine ⟨_, st, ?_, hst⟩
    unfold Field.valueIn?
    rw [show Entries.get? (Entries.overlay base upper) f.1.key = _ from Entries.get?_overlay hv]
    rfl
  have hknown : ∀ e ∈ Entries.overlay base upper, ∃ f ∈ s.fields, e.1 = f.1.key := by
    intro e he
    have hmem := List.mem_map_of_mem (f := Prod.fst) he
    rw [Entries.map_fst_overlay, List.mem_append] at hmem
    rcases hmem with hmem | hmem
    · obtain ⟨b, hb, hkey⟩ := List.mem_map.mp hmem
      exact hkey ▸ h.mem b hb
    · obtain ⟨u, hu, hkey⟩ := List.mem_map.mp (List.mem_filter.mp hmem).1
      exact hkey ▸ hkeys u hu
  refine ⟨.group s.name (checkFields s.fields (Entries.overlay base upper)).2, ?_⟩
  show FieldType.check (.group s.name s.fields) _ = _
  rw [FieldType.check]
  show finishGroup s.name s.fields _ (checkFields s.fields (Entries.overlay base upper)) = _
  rw [← finishGroup_of_keys hknown s.name, ← issues_checkFields_accepted hfields]

/-! ## One leaf -/

namespace Entries

/-- A document that gives a leaf a value, and nothing else. -/
def IsOnly (upper : Entries) (l : Leaf) (v : Value) : Prop :=
  ∃ part, upper = [(.text (Text.ofString l.group), part)] ∧
    part.entries? = some [(l.field.1.key, v)]

/-- The key of the only section, that of its only leaf, and the scalar there. -/
def only? (upper : Entries) : Option (Scalar × Scalar × Scalar) :=
  match upper with
  | [(group, part)] => match part.entries? with
    | some [(leaf, .scalar x)] => some (group, leaf, x)
    | _ => none
  | _ => none

theorem isOnly_of_only? {upper : Entries} {l : Leaf} {x : Scalar}
    (h : upper.only? = some (.text (Text.ofString l.group), l.field.1.key, x)) :
    upper.IsOnly l (.scalar x) := by
  unfold only? at h
  split at h
  · split at h
    · rename_i hpart
      cases h
      exact ⟨_, rfl, hpart⟩
    · cases h
  · cases h

theorem laid_singleton (key' key : Scalar) (u v : Value) :
    Entries.laid [(key', u)] key v = if key'.sameKey key then Value.overlay v u else v := by
  rw [laid, get?_cons, get?_nil]
  cases key'.sameKey key <;> rfl

theorem IsOnly.leaf? {upper : Entries} {l : Leaf} {v : Value} (h : upper.IsOnly l v) :
    upper.leaf? l = some v := by
  obtain ⟨part, rfl, hpart⟩ := h
  rw [Entries.leaf?, get?_cons, if_pos (Scalar.sameKey_self _), Option.bind_some, hpart,
    Option.bind_some, get?_cons, if_pos (Scalar.sameKey_self _)]

end Entries

/-- Of fields with different names one has the key of another only if it is the same. -/
theorem eq_of_sameKey {fields : List Field} (hnames : (fields.map fun f => f.1.name).Nodup)
    {f g : Field} (hf : f ∈ fields) (hg : g ∈ fields) (h : g.1.key.sameKey f.1.key = true) :
    g = f :=
  List.inj_on_of_nodup_map hnames hg hf (FieldInfo.key_eq (Scalar.sameKey_text.mp h))

variable {s : Schema} {config : Setting} {upper : Entries} {l : Leaf} {v : Value}

namespace Sectioned

/-- Over settled settings a document with one leaf is accepted if the leaf accepts its value. -/
theorem check_overlay_isOnly (hs : Sectioned s) {base : Entries} (hbase : s.Lists ListsSection base)
    (hl : l ∈ s.leaves) (hupper : upper.IsOnly l v) {st : Setting}
    (hst : l.field.check (.value v) = .ok st) :
    ∃ checked, s.check (.map (Entries.overlay base upper)) = .ok checked := by
  obtain ⟨part, rfl, hpart⟩ := hupper
  obtain ⟨g, hg, inner, hinner, hgroup, hleaf⟩ := hs.of_mem_leaves hl
  refine hbase.check_overlay hs.distinct
    (List.forall_mem_singleton.mpr ⟨g, hg, by rw [hgroup]; rfl⟩) fun f hf w hw => ?_
  obtain ⟨inner', es, hinner', rfl, hes⟩ := hw
  have hsection : ∀ up : Entries, (∀ e ∈ up, ∃ x ∈ inner'.fields, e.1 = x.1.key) →
      (∀ x ∈ inner'.fields, ∀ w, x.Fixes w → ∃ st, x.check (.value (up.laid x.1.key w)) = .ok st) →
      ∃ st, f.check (.value (.map (Entries.overlay es up))) = .ok st := fun up hkeys hlaid => by
    rw [hinner'.check_eq]
    exact hes.check_overlay hinner'.distinct hkeys hlaid
  rw [hgroup, show Scalar.text (Text.ofString g.1.name) = g.1.key from rfl, Entries.laid_singleton]
  split
  · rename_i hsame
    obtain rfl := eq_of_sameKey hs.distinct hf hg hsame
    obtain rfl := hinner.unique hinner'
    rw [show Value.overlay (.map es) part = .map (Entries.overlay es _) from
      Value.overlay_mappings hpart]
    refine hsection _ (List.forall_mem_singleton.mpr ⟨l.field, hleaf, rfl⟩) fun x hx w hw => ?_
    rw [Entries.laid_singleton]
    split
    · rename_i hsame
      obtain rfl := eq_of_sameKey hinner.distinct hx hleaf hsame
      exact ⟨st, by rw [hw.plain, hst]⟩
    · exact ⟨_, hw.check⟩
  · -- nothing is laid over the other sections
    have hnothing := hsection [] (fun e he => nomatch he) fun x _ w hw => ⟨_, hw.check⟩
    rwa [Entries.overlay_nil] at hnothing

/-- Over settled settings a document with one leaf succeeds exactly if the leaf accepts its value,
and then the leaf holds what it makes of it. -/
theorem absorb_isOnly (hs : Sectioned s) (hw : s.WellFormed) (hconfig : config.IsSettled s)
    (hl : l ∈ s.leaves) (hupper : upper.IsOnly l v) (path : String) :
    match l.field.check (.value v) with
      | .ok new =>
        (s.absorb path config upper).2 = none ∧ (s.absorb path config upper).1.leaf? l = some new
      | .error _ => (s.absorb path config upper).2.isSome = true := by
  -- if all is accepted, the leaf holds what its check makes of the value
  have hheld : (s.absorb path config upper).2 = none →
      ∃ st, (s.absorb path config upper).1.leaf? l = some st ∧
        l.field.check (.value v) = .ok st := by
    intro hnone
    obtain ⟨_, st, _, _, hst, hcheck⟩ := hs.leaf?_absorb hw hconfig hnone hl
    rw [hupper.leaf?, Option.getD_some] at hcheck
    exact ⟨st, hst, hcheck⟩
  cases hcheck : l.field.check (.value v) with
  | error issues =>
    refine Option.ne_none_iff_isSome.mp fun hnone => ?_
    obtain ⟨_, _, hok⟩ := hheld hnone
    rw [hcheck] at hok
    cases hok
  | ok new =>
    obtain ⟨base, hbase, hlists⟩ := hconfig.toValue
    obtain ⟨checked, hchecked⟩ := hs.check_overlay_isOnly hlists hl hupper hcheck
    have hnone : (s.absorb path config upper).2 = none := by
      rw [hw.absorb_failure (by rw [hbase]; rfl), hchecked]
      rfl
    obtain ⟨st, hst, hok⟩ := hheld hnone
    rw [hcheck] at hok
    exact ⟨hnone, Except.ok.inj hok ▸ hst⟩

end Sectioned

namespace Load

/-- A load succeeds, and leaves something in a leaf of the settings. -/
def Sets (s : Schema) (files : FileTree) (env : Environment) (r : Request) (config : Setting)
    (metric : Metric) (l : Leaf) (new : Setting) : Prop :=
  (∃ fingerprint, (run s files env r config metric).result = .ok fingerprint) ∧
    (run s files env r config metric).config.leaf? l = some new

variable {files : FileTree} {env : Environment} {r : Request}

/-- A load of a document with one leaf leaves what the leaf makes of the value that the document
gives it, and is refused if the leaf refuses it. -/
theorem run_isOnly (hs : Sectioned s) (hw : s.WellFormed) (hconfig : config.IsSettled s)
    (hl : l ∈ s.leaves) (hdocument : document? files env r = some upper)
    (hupper : upper.IsOnly l v) (metric : Metric) :
    match l.field.check (.value v) with
      | .ok new => Sets s files env r config metric l new
      | .error _ => ∃ failure, (run s files env r config metric).result = .error failure := by
  obtain ⟨fingerprint, hrun⟩ := run_document hdocument
  obtain ⟨hafter, hresult⟩ := hrun s config metric
  have habsorb := hs.absorb_isOnly hw hconfig hl hupper r.path
  cases hcheck : l.field.check (.value v) with
  | error issues =>
    rw [hcheck] at habsorb
    obtain ⟨failure, hfailure⟩ := Option.isSome_iff_exists.mp habsorb
    rw [hfailure] at hresult
    exact ⟨failure, hresult⟩
  | ok new =>
    rw [hcheck] at habsorb
    obtain ⟨hnone, hnew⟩ := habsorb
    rw [hnone] at hresult
    exact ⟨⟨fingerprint, hresult⟩, by rwa [hafter]⟩

/-- So what such a load leaves in the leaf is a matter of the check of the value. -/
theorem sets_iff (hs : Sectioned s) (hw : s.WellFormed) (hconfig : config.IsSettled s)
    (hl : l ∈ s.leaves) (hdocument : document? files env r = some upper)
    (hupper : upper.IsOnly l v) {metric : Metric} {new : Setting} :
    Sets s files env r config metric l new ↔ l.field.check (.value v) = .ok new := by
  have hrun := run_isOnly hs hw hconfig hl hdocument hupper metric
  cases hcheck : l.field.check (.value v) with
  | error issues =>
    rw [hcheck] at hrun
    obtain ⟨failure, hfailure⟩ := hrun
    simp [Sets, hfailure]
  | ok held =>
    rw [hcheck] at hrun
    refine ⟨fun h => ?_, fun h => Except.ok.inj h ▸ hrun⟩
    rw [Option.some.inj (hrun.2.symm.trans h.2)]

/-- Such a load succeeds exactly if it leaves something in the leaf. -/
theorem succeeds_iff (hs : Sectioned s) (hw : s.WellFormed) (hconfig : config.IsSettled s)
    (hl : l ∈ s.leaves) (hdocument : document? files env r = some upper)
    (hupper : upper.IsOnly l v) {metric : Metric} :
    (∃ fingerprint, (run s files env r config metric).result = .ok fingerprint) ↔
      ∃ new, Sets s files env r config metric l new := by
  refine ⟨fun ⟨fingerprint, hresult⟩ => ?_, fun ⟨_, h⟩ => h.1⟩
  have hrun := run_isOnly hs hw hconfig hl hdocument hupper metric
  cases hcheck : l.field.check (.value v) with
  | error issues =>
    rw [hcheck] at hrun
    obtain ⟨failure, hfailure⟩ := hrun
    rw [hresult] at hfailure
    cases hfailure
  | ok held =>
    rw [hcheck] at hrun
    exact ⟨held, hrun⟩

end Load

end BootConfig
