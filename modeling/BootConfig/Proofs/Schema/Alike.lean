import BootConfig.Proofs.Data.Layers
import BootConfig.Proofs.Schema.Settled

/-!
# Faults that come from above only

Settled settings have no faults. If something is laid over them, the faults that a check finds come
from what is laid over them: over all settled settings of a schema they are the same.

* `Field.Alike`: values that make no difference for the faults, whatever is laid over them.
* `Schema.Lists.issues?_overlay`: the faults of a mapping laid over another, field by field.
* `Sectioned.issues?_overlay`: the faults of a document over settled settings.
-/

namespace BootConfig

/-! ## Faults of groups -/

/-- The faults in the fields depend on the faults of each field. -/
theorem issues_checkFields {fields : List Field} {es es' : Entries}
    (h : ∀ f ∈ fields, ∃ v v', f.valueIn? es = some v ∧ f.valueIn? es' = some v' ∧
      (f.check (.value v)).issues? = (f.check (.value v')).issues?) :
    (checkFields fields es).1 = (checkFields fields es').1 := by
  induction fields with
  | nil => rw [checkFields, checkFields]
  | cons f rest ih =>
    rw [List.forall_mem_cons] at h
    obtain ⟨⟨v, v', hv, hv', hissues⟩, hrest⟩ := h
    obtain ⟨info, t⟩ := f
    have hcheck : ∀ v, (t.check (info.prepare (.value v))).bind info.obey =
        Field.check (info, t) (.value v) := fun _ => rfl
    rw [checkFields, checkFields, hv, hv']
    simp only [hcheck]
    cases hfirst : Field.check (info, t) (.value v) with
    | ok st =>
      cases hsecond : Field.check (info, t) (.value v') with
      | ok st' => exact ih hrest
      | error found =>
        rw [hfirst, hsecond] at hissues
        cases hissues
    | error found =>
      cases hsecond : Field.check (info, t) (.value v') with
      | ok st' =>
        rw [hfirst, hsecond] at hissues
        cases hissues
      | error found' =>
        rw [hfirst, hsecond] at hissues
        cases hissues
        show _ ++ (checkFields rest es).1 = _ ++ (checkFields rest es').1
        rw [ih hrest]

theorem hasUnreadableKey_congr {es es' : Entries}
    (h : List.Forall₂ (fun e e' => e.1 = e'.1) es es') :
    hasUnreadableKey es = hasUnreadableKey es' := by
  unfold hasUnreadableKey
  induction h with
  | nil => rfl
  | cons hkey _ ih => rw [List.any_cons, List.any_cons, hkey, ih]

theorem strayKeys_congr {fields : List Field} {es es' : Entries}
    (h : List.Forall₂ (fun e e' => e.1 = e'.1) es es') :
    strayKeys fields es = strayKeys fields es' := by
  unfold strayKeys
  induction h with
  | nil => rfl
  | cons hkey _ ih => rw [List.filterMap_cons, List.filterMap_cons, hkey, ih]

/-- The faults of a mapping as a group are those of its fields and of its keys. -/
theorem issues?_check_group {name : String} {fields : List Field} {es es' : Entries}
    (hkeys : es.map Prod.fst = es'.map Prod.fst)
    (h : ∀ f ∈ fields, ∃ v v', f.valueIn? es = some v ∧ f.valueIn? es' = some v' ∧
      (f.check (.value v)).issues? = (f.check (.value v')).issues?) :
    (FieldType.check (.group name fields) (.value (.map es))).issues? =
      (FieldType.check (.group name fields) (.value (.map es'))).issues? := by
  rw [← List.forall₂_eq_eq_eq, List.forall₂_map_left_iff, List.forall₂_map_right_iff] at hkeys
  rw [FieldType.check, FieldType.check]
  show (finishGroup name fields es (checkFields fields es)).issues? =
    (finishGroup name fields es' (checkFields fields es')).issues?
  unfold finishGroup
  rw [hasUnreadableKey_congr hkeys, strayKeys_congr hkeys, issues_checkFields h]
  split
  · rfl
  · dsimp only
    split <;> rfl

/-! ## Values that are alike -/

/-- Two values that make no difference for the faults of a field, whatever is laid over them. -/
structure Field.Alike (f : Field) (a b : Value) : Prop where
  same : (f.check (.value a)).issues? = (f.check (.value b)).issues?
  laid : ∀ upper, (f.check (.value (Value.overlay a upper))).issues? =
    (f.check (.value (Value.overlay b upper))).issues?

/-- Plain values that a field leaves as they are have no faults, and vanish under others. -/
theorem Field.Fixes.alike {f : Field} {a b : Value} (ha : f.Fixes a) (hb : f.Fixes b) :
    f.Alike a b where
  same := by
    rw [ha.check, hb.check]
    rfl
  laid upper := by rw [ha.plain, hb.plain]

namespace Schema.Lists

variable {s : Schema} {R : Field → Value → Prop} {es es' : Entries}

theorem keys (h : s.Lists R es) : es.map Prod.fst = s.fields.map fun f => f.1.key := by
  unfold Lists at h
  generalize s.fields = fields at h ⊢
  induction h with
  | nil => rfl
  | cons hhead _ ih => rw [List.map_cons, List.map_cons, hhead.1, ih]

/-- What is laid over mappings whose values are alike has the same faults. -/
theorem issues?_overlay (hnames : (s.fields.map fun f => f.1.name).Nodup) (h : s.Lists R es)
    (h' : s.Lists R es') (halike : ∀ f ∈ s.fields, ∀ a b, R f a → R f b → f.Alike a b)
    (upper : Entries) :
    (s.toType.check (.value (.map (Entries.overlay es upper)))).issues? =
      (s.toType.check (.value (.map (Entries.overlay es' upper)))).issues? := by
  refine issues?_check_group (Entries.keys_overlay (h.keys.trans h'.keys.symm) upper) fun f hf => ?_
  obtain ⟨a, ha, hRa⟩ := h.get? hnames f hf
  obtain ⟨b, hb, hRb⟩ := h'.get? hnames f hf
  have hvalue : ∀ {es : Entries} {v : Value}, Entries.get? es f.1.key = some v →
      f.valueIn? (Entries.overlay es upper) = some (upper.laid f.1.key v) := by
    intro es v hv
    unfold Field.valueIn?
    rw [show Entries.get? (Entries.overlay es upper) f.1.key = _ from Entries.get?_overlay hv]
    rfl
  refine ⟨_, _, hvalue ha, hvalue hb, ?_⟩
  unfold Entries.laid
  cases Entries.get? upper f.1.key with
  | none => exact (halike f hf a b hRa hRb).same
  | some w => exact (halike f hf a b hRa hRb).laid w

end Schema.Lists

/-! ## Settled settings -/

variable {s : Schema}

/-- Sections of settled settings make no difference for the faults of what is laid over them. -/
theorem ListsSection.alike {g : Field} {a b : Value} (ha : ListsSection g a)
    (hb : ListsSection g b) : g.Alike a b := by
  obtain ⟨inner, es, hinner, rfl, hes⟩ := ha
  obtain ⟨inner', es', hinner', rfl, hes'⟩ := hb
  obtain rfl := hinner.unique hinner'
  have hoverlay : ∀ upper, (g.check (.value (.map (Entries.overlay es upper)))).issues? =
      (g.check (.value (.map (Entries.overlay es' upper)))).issues? := by
    intro upper
    rw [hinner.check_eq, hinner.check_eq]
    exact hes.issues?_overlay hinner.distinct hes' (fun f _ a b ha hb => ha.alike hb) upper
  refine ⟨?_, fun upper => ?_⟩
  · -- a section by itself is one that nothing is laid over
    simpa only [Entries.overlay_nil] using hoverlay []
  · rw [Value.overlay, Value.overlay]
    cases upper.entries? with
    | none => rfl
    | some up => exact hoverlay up

/-- **Faults come from the document.** Over all settled settings of a schema a document is accepted
or has the same faults. -/
theorem Sectioned.issues?_overlay (hs : Sectioned s) {base base' : Entries}
    (hbase : s.Lists ListsSection base) (hbase' : s.Lists ListsSection base') (upper : Entries) :
    (s.check (.map (Entries.overlay base upper))).issues? =
      (s.check (.map (Entries.overlay base' upper))).issues? :=
  hbase.issues?_overlay hs.distinct hbase' (fun _ _ _ _ ha hb => ha.alike hb) upper

end BootConfig
