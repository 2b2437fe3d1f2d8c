import BootConfig.Proofs.Schema.Fields
import Mathlib.Data.List.Nodup

/-!
# Schemas in sections

A schema in sections has nothing but groups of leaves. A leaf is known by the names of its section
and of its field, in settings as in documents.

* `Sectioned`: schemas of this form, whose defaults are settled.
* `Sectioned.leaf?_check`: a leaf of checked settings holds what the check of its field makes of its
  own value in the document, or of its default.
-/

namespace BootConfig

/-! ## Leaves -/

/-- A field of a section. -/
structure Leaf where
  group : String
  field : Field

def Leaf.path (l : Leaf) : String := l.group ++ "." ++ l.field.1.name

def Schema.leaves (s : Schema) : List Leaf :=
  s.fields.flatMap fun g => match g.2 with
    | .group _ fields => fields.map (Leaf.mk g.1.name)
    | _ => []

/-- What settings hold for a leaf. -/
def Setting.leaf? (config : Setting) (l : Leaf) : Option Setting :=
  (config.get? l.group).bind fun g => g.get? l.field.1.name

/-- The value under the key of a leaf, in the mapping under the key of its section. -/
def Entries.leaf? (document : Entries) (l : Leaf) : Option Value :=
  ((Entries.get? document (.text (Text.ofString l.group))).bind Value.entries?).bind fun es =>
    Entries.get? es l.field.1.key

/-- How a leaf changes from some settings to others. If a value is given for it, the new settings
hold what the check of its field makes of that value, and else what the old ones held. -/
def Leaf.Takes (l : Leaf) (given : Option Value) (old new : Setting) : Prop :=
  ∃ leaf, new.leaf? l = some leaf ∧
    match given with
    | some v => l.field.check (.value v) = .ok leaf
    | none => old.leaf? l = some leaf

/-- Of two values given one after the other the second counts. -/
theorem Leaf.Takes.trans {l : Leaf} {first second : Option Value} {old mid new : Setting}
    (h : l.Takes first old mid) (h' : l.Takes second mid new) :
    l.Takes (second.or first) old new := by
  obtain ⟨leaf, hleaf, hfirst⟩ := h
  obtain ⟨leaf', hleaf', hsecond⟩ := h'
  refine ⟨leaf', hleaf', ?_⟩
  cases second with
  | some v => exact hsecond
  | none =>
    have hsame : leaf = leaf' := Option.some.inj (hleaf.symm.trans hsecond)
    subst hsame
    cases first with
    | some v => exact hfirst
    | none => exact hfirst

/-! ## Well-formed schemas -/

/-- A field whose default is a value without graphs and mappings, which its own check leaves as it
is. -/
def Settled (f : Field) : Prop :=
  ∃ d, f.1.default? = some d ∧ f.check (.value d) = .ok (.value d) ∧ d.tree? = some d ∧
    ∀ upper, Value.overlay d upper = upper

/-- A field that is a group of leaves, and nothing more than that group. -/
structure IsSection (g : Field) (inner : Schema) : Prop where
  type : g.2 = inner.toType
  default : g.1.default? = none
  upperCase : g.1.upperCase = false
  rule : g.1.rule = none
  distinct : (inner.fields.map fun f => f.1.name).Nodup
  noPoint : ∀ f ∈ inner.fields, '.' ∉ f.1.name.toList
  leaf : ∀ f ∈ inner.fields, IsLeaf f.2
  settled : ∀ f ∈ inner.fields, Settled f

/-- A schema all of whose fields are sections. -/
structure Sectioned (s : Schema) : Prop where
  distinct : (s.fields.map fun g => g.1.name).Nodup
  noPoint : ∀ g ∈ s.fields, '.' ∉ g.1.name.toList
  sections : ∀ g ∈ s.fields, ∃ inner, IsSection g inner

variable {s inner : Schema} {g : Field} {l : Leaf}

theorem Sectioned.of_mem_leaves (hs : Sectioned s) (hl : l ∈ s.leaves) :
    ∃ g ∈ s.fields, ∃ inner, IsSection g inner ∧ l.group = g.1.name ∧ l.field ∈ inner.fields := by
  obtain ⟨g, hg, hl⟩ := List.mem_flatMap.mp hl
  obtain ⟨inner, hinner⟩ := hs.sections g hg
  rw [hinner.type] at hl
  obtain ⟨f, hf, rfl⟩ := List.mem_map.mp hl
  exact ⟨g, hg, inner, hinner, rfl, hf⟩

theorem Sectioned.mem_leaves (hg : g ∈ s.fields) (hinner : IsSection g inner) {f : Field}
    (hf : f ∈ inner.fields) : ⟨g.1.name, f⟩ ∈ s.leaves := by
  refine List.mem_flatMap.mpr ⟨g, hg, ?_⟩
  rw [hinner.type]
  exact List.mem_map.mpr ⟨f, hf, rfl⟩

/-- A leaf is known by its group and its name. -/
theorem Sectioned.leaf_ext (hs : Sectioned s) {l l' : Leaf} (hl : l ∈ s.leaves)
    (hl' : l' ∈ s.leaves) (hgroup : l.group = l'.group)
    (hname : l.field.1.name = l'.field.1.name) : l = l' := by
  obtain ⟨g, hg, inner, hinner, hlg, hf⟩ := hs.of_mem_leaves hl
  obtain ⟨g', hg', inner', hinner', hlg', hf'⟩ := hs.of_mem_leaves hl'
  have hsame : g = g' := by
    refine List.inj_on_of_nodup_map hs.distinct hg hg' ?_
    rw [← hlg, ← hlg', hgroup]
  subst hsame
  have hinners : inner.fields = inner'.fields := by
    have htype := hinner.type.symm.trans hinner'.type
    injection htype
  rw [← hinners] at hf'
  have hfield : l.field = l'.field := List.inj_on_of_nodup_map hinner.distinct hf hf' hname
  cases l
  cases l'
  cases hgroup
  cases hfield
  rfl

/-! ## Fields by name -/

theorem find?_of_mem {fields : List Field} (hnames : (fields.map fun g => g.1.name).Nodup)
    (hg : g ∈ fields) : (fields.find? fun f => f.1.name == g.1.name) = some g := by
  induction fields with
  | nil => cases hg
  | cons f rest ih =>
    obtain ⟨hnot, hrest⟩ := List.nodup_cons.mp hnames
    rw [List.find?_cons]
    rcases List.mem_cons.mp hg with rfl | hg
    · simp
    · rw [beq_name_eq_false hnot hg]
      exact ih hrest hg

theorem groupNamed?_toType (inner : Schema) : inner.toType.groupNamed? inner.name = some inner := by
  unfold Schema.toType FieldType.groupNamed?
  simp

theorem field?_of_mem (hnames : (s.fields.map fun g => g.1.name).Nodup) (hg : g ∈ s.fields) :
    s.field? g.1.name = some g :=
  find?_of_mem hnames hg

/-! ## Checks -/

theorem IsSection.check_eq (h : IsSection g inner) (input : Setting) :
    g.check input = inner.toType.check input := by
  have hprepare : g.1.prepare input = input := by
    unfold FieldInfo.prepare
    rw [h.upperCase]
  have hobey : g.1.obey = Except.ok := by
    funext st
    unfold FieldInfo.obey
    rw [h.rule]
  unfold Field.check
  rw [hprepare, hobey, h.type]
  cases inner.toType.check input <;> rfl

theorem IsSection.tellsFault (h : IsSection g inner) (input : Setting) :
    (g.check input).TellsFault := by
  rw [h.check_eq]
  exact tellsFault_group _ _ _

theorem IsLeaf.valueIn? {f : Field} (h : IsLeaf f.2) (es : Entries) :
    f.valueIn? es = (Entries.get? es f.1.key).or f.1.default? := by
  unfold Field.valueIn?
  obtain ⟨info, t⟩ := f
  have hown : t.ownDefault? = none := by cases h <;> rfl
  rw [hown, Option.or_none]

theorem IsSection.check (h : IsSection g inner) {v : Value} {st : Setting}
    (hst : g.check (.value v) = .ok st) :
    ∃ es gs, v.entries? = some es ∧ st = .group inner.name gs ∧
      ∀ f ∈ inner.fields, ∃ w leaf, (Entries.get? es f.1.key).or f.1.default? = some w ∧
        f.check (.value w) = .ok leaf ∧ gs.lookup f.1.name = some leaf := by
  rw [h.check_eq] at hst
  obtain ⟨es, hes, hnil, rfl⟩ := check_group hst
  refine ⟨es, _, hes, rfl, fun f hf => ?_⟩
  have hfields : ∀ f ∈ inner.fields, ∀ input, (f.check input).TellsFault :=
    fun f hf input => Field.tellsFault (h.leaf f hf).tellsFault input
  obtain ⟨w, leaf, hw, hleaf, hlookup⟩ := lookup_checkFields hfields h.distinct hnil f hf
  rw [(h.leaf f hf).valueIn?] at hw
  exact ⟨w, leaf, hw, hleaf, hlookup⟩

theorem Sectioned.check (hs : Sectioned s) {es : Entries} {config : Setting}
    (h : s.check (.map es) = .ok config) :
    ∃ fs, config = .group s.name fs ∧ ∀ g ∈ s.fields, ∃ w st, g.valueIn? es = some w ∧
      g.check (.value w) = .ok st ∧ fs.lookup g.1.name = some st := by
  obtain ⟨es', hes, hnil, rfl⟩ := check_group h
  cases hes
  refine ⟨_, rfl, lookup_checkFields (fun g hg input => ?_) hs.distinct hnil⟩
  obtain ⟨inner, hinner⟩ := hs.sections g hg
  exact hinner.tellsFault input

/-- A leaf of checked settings holds what the check of its field makes of its own value in the
document, or of its default. -/
theorem Sectioned.leaf?_check (hs : Sectioned s) {es : Entries} {config : Setting}
    (h : s.check (.map es) = .ok config) (hl : l ∈ s.leaves) :
    ∃ w leaf, (es.leaf? l).or l.field.1.default? = some w ∧
      l.field.check (.value w) = .ok leaf ∧ config.leaf? l = some leaf := by
  obtain ⟨fs, rfl, hfields⟩ := hs.check h
  obtain ⟨g, hg, inner, hinner, hgroup, hf⟩ := hs.of_mem_leaves hl
  obtain ⟨w, st, hw, hst, hlookup⟩ := hfields g hg
  obtain ⟨es', gs, hes', rfl, hleaves⟩ := hinner.check hst
  obtain ⟨v, leaf, hv, hleaf, hleafLookup⟩ := hleaves l.field hf
  refine ⟨v, leaf, ?_, hleaf, ?_⟩
  · rw [← hv]
    unfold Entries.leaf? Field.valueIn? at *
    rw [hgroup]
    rw [hinner.default, hinner.type, Option.or_none] at hw
    cases hget : Entries.get? es g.1.key with
    | none =>
      -- the section itself is missing, so it is an empty mapping by default
      rw [hget] at hw
      cases hw
      cases hes'
      rw [show Scalar.text (Text.ofString g.1.name) = g.1.key from rfl, hget]
      rfl
    | some u =>
      rw [hget] at hw
      cases hw
      rw [show Scalar.text (Text.ofString g.1.name) = g.1.key from rfl, hget]
      simp [hes']
  · unfold Setting.leaf?
    rw [hgroup, show Setting.get? (.group s.name fs) g.1.name = _ from hlookup]
    exact hleafLookup

/-- What a document that is accepted holds for a section is a mapping. -/
theorem Sectioned.isSome_entries_check (hs : Sectioned s) {es : Entries} {config : Setting}
    (h : s.check (.map es) = .ok config) (hl : l ∈ s.leaves) {v : Value}
    (hv : Entries.get? es (.text (Text.ofString l.group)) = some v) :
    v.entries?.isSome = true := by
  obtain ⟨fs, rfl, hfields⟩ := hs.check h
  obtain ⟨g, hg, inner, hinner, hgroup, _⟩ := hs.of_mem_leaves hl
  obtain ⟨w, st, hw, hst, _⟩ := hfields g hg
  obtain ⟨es', _, hes', _⟩ := hinner.check hst
  rw [hgroup] at hv
  unfold Field.valueIn? FieldInfo.key at hw
  rw [hv] at hw
  cases hw
  rw [hes']
  rfl

/-- Settings with a group of the right name for every section. -/
def Setting.InSections (config : Setting) (s : Schema) : Prop :=
  ∀ g ∈ s.fields, ∀ inner, IsSection g inner →
    ∃ gs, config.get? g.1.name = some (.group inner.name gs)

theorem Sectioned.inSections (hs : Sectioned s) {es : Entries} {config : Setting}
    (h : s.check (.map es) = .ok config) : config.InSections s := by
  obtain ⟨fs, rfl, hfields⟩ := hs.check h
  intro g hg inner hinner
  obtain ⟨w, st, _, hst, hlookup⟩ := hfields g hg
  obtain ⟨es', gs, _, rfl, _⟩ := hinner.check hst
  exact ⟨gs, hlookup⟩

/-- The leaves of the default settings hold their settled defaults. -/
theorem Sectioned.leaf?_defaults (hs : Sectioned s) {config : Setting}
    (h : s.defaults = .ok config) (hl : l ∈ s.leaves) :
    ∃ d, l.field.1.default? = some d ∧ l.field.check (.value d) = .ok (.value d) ∧
      d.tree? = some d ∧ (∀ upper, Value.overlay d upper = upper) ∧
      config.leaf? l = some (.value d) := by
  obtain ⟨g, hg, inner, hinner, hgroup, hf⟩ := hs.of_mem_leaves hl
  obtain ⟨d, hd, hsettled, htree, hplain⟩ := hinner.settled l.field hf
  obtain ⟨w, leaf, hw, hleaf, hconfig⟩ := hs.leaf?_check h hl
  have hempty : Entries.leaf? [] l = none := rfl
  rw [hempty, hd] at hw
  cases hw
  rw [hsettled] at hleaf
  cases hleaf
  exact ⟨d, hd, hsettled, htree, hplain, hconfig⟩

end BootConfig
