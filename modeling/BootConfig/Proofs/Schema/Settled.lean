import BootConfig.Proofs.Schema.Described
import BootConfig.Proofs.Schema.Trees

/-!
# Settled settings

Whatever a leaf is given, its check makes a value of it that the same check leaves as it is.
Settings in sections that hold such values stay so if something in them is assigned or other such
settings are committed to them, and are their own check.

* `Field.Fixes`, `Field.Exact`: values that a check leaves, and fields whose checks make only such
  values (`Field.exact`).
* `Setting.IsSettled`: settings whose leaves hold such values.
* `Sectioned.settled_check`, `Sectioned.settled_change`, `Sectioned.settled_commit`: checks,
  assignments and flags, and loads make and leave settled settings.
* `Setting.IsSettled.check_again`: settled settings are the check of what they are written out as.
-/

namespace BootConfig

/-! ## Leaves -/

/-- A plain value that the check of a field leaves as it is. -/
structure Field.Fixes (f : Field) (v : Value) : Prop where
  check : f.check (.value v) = .ok (.value v)
  tree : v.tree? = some v
  plain : ∀ upper, Value.overlay v upper = upper

namespace Field

/-- A value that its field leaves as it is. -/
def HoldsPlain (f : Field) (st : Setting) : Prop := ∃ v, st = .value v ∧ f.Fixes v

/-- A value that its field leaves as it is when it has been unfolded, as null that is the root of a
graph. -/
def Holds (f : Field) (st : Setting) : Prop :=
  ∃ w v, st = .value w ∧ w.tree? = some v ∧ f.Fixes v

/-- A field that makes of everything it accepts a value that it leaves as it is. -/
def Exact (f : Field) : Prop := ∀ input st, f.check input = .ok st → f.Holds st

variable {f : Field}

theorem HoldsPlain.holds {st : Setting} (h : f.HoldsPlain st) : f.Holds st := by
  obtain ⟨v, rfl, hv⟩ := h
  exact ⟨v, v, rfl, hv.tree, hv⟩

theorem holdsPlain_scalar {s : Scalar}
    (h : f.check (.value (.scalar s)) = .ok (.value (.scalar s))) :
    f.HoldsPlain (.value (.scalar s)) :=
  ⟨.scalar s, rfl, h, rfl, fun upper => by rw [Value.overlay]; simp⟩

/-- A field leaves what it does not prepare, its type leaves, and its rule allows. -/
theorem check_self {st : Setting} (hprepare : f.1.prepare st = st)
    (hcheck : f.2.check st = .ok st) (hobey : f.1.obey st = .ok st) : f.check st = .ok st := by
  unfold Field.check
  rw [hprepare, hcheck]
  exact hobey

end Field

/-- A member of a textual enumeration chooses itself. -/
theorem Enumeration.find?_text {e : Enumeration} (he : e.WellFormed) (htextual : e.textual = true)
    {m : Scalar} (hm : m ∈ e.members) : e.find? m = some m := by
  obtain ⟨m', hfind⟩ := e.find?_member he hm
  rw [hfind]
  unfold Enumeration.find? at hfind
  rw [e.lookupKey_member he hm] at hfind
  have hsame := List.find?_some hfind
  obtain ⟨t, rfl⟩ := he htextual m hm
  rw [Scalar.sameKey_text.mp hsame]

namespace FieldType

/-! What the types of leaves make of what they are given. -/

theorem check_scalar_eq_ok {t : ScalarType} {input st : Setting}
    (h : FieldType.check (.scalar t) input = .ok st) :
    ∃ s, st = .value (.scalar s) ∧ t.coerceScalar s = .ok s := by
  rw [FieldType.check] at h
  split at h
  · rename_i s hs
    cases h
    exact ⟨s, rfl, ScalarType.coerce_again hs⟩
  · cases h

theorem check_scalar_self {t : ScalarType} {s : Scalar} (h : t.coerceScalar s = .ok s) :
    FieldType.check (.scalar t) (.value (.scalar s)) = .ok (.value (.scalar s)) := by
  have hinput : t.coerce (.value (.scalar s)) = .ok s := h
  rw [FieldType.check, hinput]

theorem check_list_eq_ok {t : ScalarType} {input st : Setting}
    (h : FieldType.check (.list (some t)) input = .ok st) :
    ∃ items, st = .value (.list items) ∧
      (∀ v ∈ items, ∃ s, v = .scalar s ∧ t.coerceScalar s = .ok s) ∧
      FieldType.check (.list (some t)) st = .ok st := by
  rw [FieldType.check] at h
  have hagain := checkList_again h
  unfold checkList at h
  split at h
  · cases h
  · rename_i vs _
    simp only at h
    split at h
    · cases h
      refine ⟨_, rfl, scalar_checkItems, ?_⟩
      rw [FieldType.check]
      exact hagain
    · cases h

theorem check_enumeration_eq_ok {e : Enumeration} (he : e.WellFormed) (htextual : e.textual = true)
    {input st : Setting} (h : FieldType.check (.enumeration e) input = .ok st) :
    ∃ m ∈ e.members, st = .value (.scalar m) ∧ FieldType.check (.enumeration e) st = .ok st := by
  rw [FieldType.check] at h
  obtain ⟨m, hm, rfl⟩ := Enumeration.check_eq_ok h
  refine ⟨m, hm, rfl, ?_⟩
  rw [FieldType.check]
  exact e.check_scalar (e.find?_text he htextual hm)

/-- Null may be the root of a graph, and is taken as it is. -/
theorem check_optional_eq_ok {t : ScalarType} {input st : Setting}
    (h : FieldType.check (.union .choice true [.scalar t]) input = .ok st) :
    (∃ w, st = .value w ∧ w.tree? = some .null) ∨
      ∃ s, st = .value (.scalar s) ∧ t.coerceScalar s = .ok s := by
  rw [FieldType.check] at h
  split at h
  · rename_i hnull
    cases h
    have hnull : input.isNull = true := hnull
    cases input with
    | group n fs => cases hnull
    | value w => exact .inl ⟨w, rfl, Setting.tree?_of_isNull hnull⟩
  · rw [trials, trials] at h
    exact .inr (check_scalar_eq_ok h)

theorem check_optional_self {t : ScalarType} {s : Scalar}
    (h : s = .null ∨ t.coerceScalar s = .ok s) :
    FieldType.check (.union .choice true [.scalar t]) (.value (.scalar s)) =
      .ok (.value (.scalar s)) := by
  rw [FieldType.check]
  split
  · rfl
  · rename_i hnull
    rcases h with rfl | h
    · exact (hnull rfl).elim
    · rw [trials, trials]
      exact check_scalar_self h

end FieldType

/-- Whether a type that is a choice is one among texts. -/
def FieldType.choosesText : FieldType → Bool
  | .enumeration e => e.textual
  | _ => true

/-- **What a leaf accepts it makes fixed.** The check of a leaf that takes nothing over as it is,
and that chooses among texts if it chooses, makes values that it leaves as they are. -/
theorem Field.exact {f : Field} (hf : f.WellFormed) (hleaf : IsLeaf f.2) (hclosed : f.2.Closed)
    (htextual : f.2.choosesText = true) : f.Exact := by
  intro input st h
  obtain ⟨hcheck, hobey⟩ := Field.check_eq_ok h
  have hprepare := Field.prepare_checked hf hcheck
  obtain ⟨info, t⟩ := f
  cases hleaf with
  | scalar t =>
    obtain ⟨s, rfl, hs⟩ := FieldType.check_scalar_eq_ok hcheck
    have hself := Field.check_self hprepare (FieldType.check_scalar_self hs) hobey
    exact (Field.holdsPlain_scalar hself).holds
  | list item =>
    cases hclosed with
    | list t =>
      obtain ⟨items, rfl, hscalar, hagain⟩ := FieldType.check_list_eq_ok hcheck
      have htree : (Value.list items).tree? = some (.list items) := by
        rw [Value.tree?, treeItems_of_scalar hscalar]
        rfl
      have hself := Field.check_self hprepare hagain hobey
      exact ⟨_, _, rfl, htree, hself, htree, fun upper => by rw [Value.overlay]; simp⟩
  | enumeration e =>
    cases hf.type with
    | enumeration he =>
      obtain ⟨m, _, rfl, hagain⟩ := FieldType.check_enumeration_eq_ok he htextual hcheck
      exact (Field.holdsPlain_scalar (Field.check_self hprepare hagain hobey)).holds
  | optional t =>
    rcases FieldType.check_optional_eq_ok hcheck with ⟨w, rfl, hw⟩ | ⟨s, rfl, hs⟩
    · -- what is taken as it is is null once it is unfolded, and no rule is about null
      have hrule : info.rule = none := hf.rule.resolve_right (by rintro ⟨t, ht⟩; cases ht)
      have hself : Field.check (info, .union .choice true [.scalar t]) (.value .null) =
          .ok (.value .null) :=
        Field.check_self (FieldInfo.prepare_member (by rintro t ⟨⟩))
          (FieldType.check_optional_self (.inl rfl)) (FieldInfo.obey_eq hrule _)
      obtain ⟨v, hv, hfixes⟩ := Field.holdsPlain_scalar hself
      cases hv
      exact ⟨w, .null, rfl, hw, hfixes⟩
    · have hself := Field.check_self hprepare (FieldType.check_optional_self (.inr hs)) hobey
      exact (Field.holdsPlain_scalar hself).holds

/-! ## Sections -/

/-- A section whose fields hold something with a property. -/
def InSection (P : Field → Setting → Prop) (g : Field) (st : Setting) : Prop :=
  ∃ inner, IsSection g inner ∧ inner.Describes P st

/-- Settings in sections whose leaves hold values that their fields leave as they are. -/
def Setting.IsSettled (config : Setting) (s : Schema) : Prop :=
  s.Describes (InSection Field.Holds) config

def Schema.Exact (s : Schema) : Prop := ∀ l ∈ s.leaves, l.field.Exact

variable {s inner : Schema} {g : Field} {config config' : Setting}

theorem IsSection.unique {inner' : Schema} (h : IsSection g inner) (h' : IsSection g inner') :
    inner = inner' := by
  have htype : inner.toType = inner'.toType := h.type.symm.trans h'.type
  cases inner
  cases inner'
  cases htype
  rfl

/-- A section makes settled fields of a mapping. -/
theorem IsSection.describes_check (h : IsSection g inner) (hexact : ∀ f ∈ inner.fields, f.Exact)
    {v : Value} {st : Setting} (hst : g.check (.value v) = .ok st) :
    InSection Field.Holds g st := by
  rw [h.check_eq] at hst
  refine ⟨inner, h, Schema.describes_check (fun f hf input => ?_) (fun f hf v st => ?_) hst⟩
  · exact Field.tellsFault (h.leaf f hf).tellsFault input
  · exact hexact f hf _ st

/-- A section of settled fields is its own check. -/
theorem InSection.check_self {P : Field → Setting → Prop} {st : Setting} (h : InSection P g st) :
    g.check st = .ok st := by
  obtain ⟨inner, hinner, fs, rfl, _⟩ := h
  rw [hinner.check_eq]
  exact check_checked_group _ _ _

theorem Schema.Exact.fields (hexact : s.Exact) (hg : g ∈ s.fields) (hinner : IsSection g inner) :
    ∀ f ∈ inner.fields, f.Exact :=
  fun f hf => hexact ⟨g.1.name, f⟩ (Sectioned.mem_leaves hg hinner hf)

namespace Sectioned

theorem inSection_check (hs : Sectioned s) (hexact : s.Exact) (hg : g ∈ s.fields) {v : Value}
    {st : Setting} (hst : g.check (.value v) = .ok st) : InSection Field.Holds g st := by
  obtain ⟨inner, hinner⟩ := hs.sections g hg
  exact hinner.describes_check (hexact.fields hg hinner) hst

/-- What is accepted as a whole is settled. -/
theorem settled_check (hs : Sectioned s) (hexact : s.Exact) {v : Value}
    (h : s.check v = .ok config) : config.IsSettled s := by
  refine Schema.describes_check (fun g hg input => ?_) (fun g hg v st hst => ?_) h
  · obtain ⟨inner, hinner⟩ := hs.sections g hg
    exact hinner.tellsFault input
  · exact hs.inSection_check hexact hg hst

/-- A section of settled fields in which something is given stays one. There is nothing below its
fields. -/
theorem describes_change {part part' : Setting} (hexact : ∀ f ∈ inner.fields, f.Exact)
    (hpart : inner.Describes Field.Holds part) (h : inner.Changes part part') :
    inner.Describes Field.Holds part' := by
  cases h with
  | same => exact hpart
  | here hassign =>
    refine hpart.assign (fun f hf st hst => ?_) hassign
    exact hexact f (List.mem_of_find?_eq_some hf) _ st hst
  | inside hfield hget _ _ =>
    obtain ⟨st, hst, w, v, hvalue, _⟩ := hpart.get? hfield
    rw [hst, hvalue] at hget
    cases hget

/-- Settled settings in which something is given stay settled. -/
theorem settled_change (hs : Sectioned s) (hexact : s.Exact) (hconfig : config.IsSettled s)
    (h : s.Changes config config') : config'.IsSettled s := by
  cases h with
  | same => exact hconfig
  | here hassign =>
    refine hconfig.assign (fun g hg st hst => ?_) hassign
    exact hs.inSection_check hexact (List.mem_of_find?_eq_some hg) hst
  | @inside _ named _ _ name n g fields hfield hget hnamed hpart =>
    obtain ⟨st, hst, inner, hinner, hfields⟩ := hconfig.get? hfield
    rw [hget] at hst
    cases hst
    -- the group that the settings hold is the only one that the section admits
    have hsame : named = inner := by
      rw [hinner.type, Schema.toType, FieldType.groupNamed?] at hnamed
      split at hnamed
      · cases hnamed
        rfl
      · cases hnamed
    subst hsame
    have hg := List.mem_of_find?_eq_some hfield
    refine hconfig.put hfield ⟨named, hinner, ?_⟩
    exact describes_change (hexact.fields hg hinner) hfields hpart

/-- Settled settings to which settled ones are committed stay settled. -/
theorem settled_commit {checked : Setting} (hconfig : config.IsSettled s)
    (hchecked : checked.IsSettled s) : (s.commit config checked).1.IsSettled s := by
  unfold Schema.commit
  generalize s.fields = fields
  induction fields generalizing config with
  | nil => exact hconfig
  | cons f rest ih =>
    rw [Schema.commitFields]
    split
    · exact ih hconfig
    · rename_i st hst
      split
      · rename_i config' hassign
        refine ih (hconfig.assign (fun g hg again hagain => ?_) hassign)
        -- a section that has been checked is its own check
        obtain ⟨part, hpart, hsection⟩ := hchecked.get? hg
        rw [hst] at hpart
        cases hpart
        rw [hsection.check_self] at hagain
        cases hagain
        exact hsection
      · exact hconfig

end Sectioned

/-! ## Settled settings are their own check -/

theorem Field.Holds.unfold {f : Field} {st : Setting} (h : f.Holds st) :
    ∃ st', st.UnfoldsTo st' ∧ f.HoldsPlain st' := by
  obtain ⟨w, v, rfl, hw, hv⟩ := h
  refine ⟨.value v, ⟨?_, ?_⟩, v, rfl, hv⟩
  · rw [Setting.unfolded?, hw]
    rfl
  · rw [Setting.toValue?, Setting.toValue?, hw, hv.tree]

/-- A section written out, each of whose entries its field leaves as it is. -/
def ListsSection (g : Field) (v : Value) : Prop :=
  ∃ inner es, IsSection g inner ∧ v = .map es ∧ inner.Lists Field.Fixes es

namespace Setting

/-- Settled settings without graphs. -/
def IsPlain (config : Setting) (s : Schema) : Prop :=
  s.Describes (InSection Field.HoldsPlain) config

/-- Settled settings can be unfolded. -/
theorem IsSettled.unfold (h : config.IsSettled s) :
    ∃ config', config.UnfoldsTo config' ∧ config'.IsPlain s := by
  refine Schema.Describes.unfold h fun g _ st ⟨inner, hinner, hst⟩ => ?_
  obtain ⟨st', hunfolds, hst'⟩ := hst.unfold fun f _ part hpart => hpart.unfold
  exact ⟨st', hunfolds, inner, hinner, hst'⟩

/-- Settled settings can be written out. -/
theorem IsSettled.toValue (h : config.IsSettled s) :
    ∃ base, config.toValue? = some (.map base) ∧ s.Lists ListsSection base := by
  refine Schema.Describes.toValue h fun g _ st ⟨inner, hinner, hst⟩ => ?_
  obtain ⟨es, hes, hlists⟩ := hst.toValue fun f _ part ⟨w, v, hpart, hw, hv⟩ => by
    subst hpart
    exact ⟨v, by rw [Setting.toValue?, hw], hv⟩
  exact ⟨.map es, hes, inner, es, hinner, rfl, hlists⟩

theorem IsSettled.inSections (hs : Sectioned s) (h : config.IsSettled s) :
    config.InSections s := by
  intro g hg inner hinner
  obtain ⟨st, hst, inner', hinner', fs, rfl, _⟩ := h.get? (field?_of_mem hs.distinct hg)
  exact ⟨fs, hinner.unique hinner' ▸ hst⟩

/-- A leaf of settled settings is written out as a value that its field leaves as it is. -/
theorem IsSettled.leaf (hs : Sectioned s) (h : config.IsSettled s) {l : Leaf} (hl : l ∈ s.leaves) :
    ∃ leaf v, config.leaf? l = some leaf ∧ leaf.toValue? = some v ∧ l.field.Fixes v := by
  obtain ⟨g, hg, inner, hinner, hgroup, hf⟩ := hs.of_mem_leaves hl
  obtain ⟨st, hst, inner', hinner', hfields⟩ := h.get? (field?_of_mem hs.distinct hg)
  obtain rfl := hinner.unique hinner'
  obtain ⟨leaf, hleaf, w, v, rfl, hw, hv⟩ := hfields.get? (field?_of_mem hinner.distinct hf)
  refine ⟨.value w, v, ?_, by rw [Setting.toValue?, hw], hv⟩
  unfold Setting.leaf?
  rw [hgroup, hst]
  exact hleaf

theorem IsPlain.check (hs : Sectioned s) (h : config.IsPlain s) :
    ∃ v, config.toValue? = some v ∧ s.check v = .ok config := by
  refine Schema.Describes.check h hs.distinct fun g _ st ⟨inner, hinner, hst⟩ => ?_
  obtain ⟨v, hvalue, hcheck⟩ := hst.check hinner.distinct fun f _ part ⟨v, hpart, hv⟩ => by
    subst hpart
    exact ⟨v, by rw [Setting.toValue?, hv.tree], hv.check⟩
  exact ⟨v, hvalue, by rw [hinner.check_eq]; exact hcheck⟩

/-- **Settled settings are their own check.** They can be unfolded and written out, and what they
are written out as is accepted and checked to be the same settings. -/
theorem IsSettled.check_again (hs : Sectioned s) (h : config.IsSettled s) :
    ∃ config' v, config.unfolded? = some config' ∧ config'.IsPlain s ∧
      config.toValue? = some v ∧ s.check v = .ok config' := by
  obtain ⟨config', ⟨hunfold, hsame⟩, hplain⟩ := h.unfold
  obtain ⟨v, hvalue, hcheck⟩ := hplain.check hs
  exact ⟨config', v, hunfold, hplain, hsame ▸ hvalue, hcheck⟩

end Setting

end BootConfig
