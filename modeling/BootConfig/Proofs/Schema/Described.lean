import BootConfig.Proofs.Schema.Assign
import Mathlib.Data.List.Forall2

/-!
# Settings described by a schema

Settings that have the fields of a schema, in their order, are known by what their fields hold. A
check makes such settings and an assignment leaves them. Written out and checked again they are what
they have been, if their fields are.

* `Schema.Describes`: a schema describes settings, with a property of what each field holds.
* `Schema.describes_check`, `Schema.Describes.assign`: what checks and assignments make.
* `Setting.unfolded?`, `Schema.Describes.unfold`: settings without graphs.
* `Schema.Describes.toValue`, `Schema.Describes.check`: settings as a mapping, and its check.
-/

namespace BootConfig

open List (Forall₂)

variable {s : Schema} {P Q : Field → Setting → Prop} {st config : Setting}

/-! ## Fields in the order of a schema -/

/-- Settings that are a group of a schema: they have its fields, in their order, and each of them
holds something with a property. -/
def Schema.Describes (s : Schema) (P : Field → Setting → Prop) (st : Setting) : Prop :=
  ∃ fs, st = .group s.name fs ∧ Forall₂ (fun f p => p.1 = f.1.name ∧ P f p.2) s.fields fs

theorem forall₂_checkFields {fields : List Field} {es : Entries}
    (htells : ∀ f ∈ fields, ∀ input, (f.check input).TellsFault)
    (hP : ∀ f ∈ fields, ∀ v st, f.check (.value v) = .ok st → P f st)
    (h : (checkFields fields es).1 = []) :
    Forall₂ (fun f p => p.1 = f.1.name ∧ P f p.2) fields (checkFields fields es).2 := by
  induction fields with
  | nil =>
    rw [checkFields]
    exact .nil
  | cons f rest ih =>
    rw [List.forall_mem_cons] at htells hP
    obtain ⟨v, st, _, hst, hnil, hcons⟩ := checkFields_cons htells.1 h
    rw [hcons]
    exact .cons ⟨rfl, hP.1 v st hst⟩ (ih htells.2 hP.2 hnil)

/-- A mapping that is accepted becomes settings whose fields hold what their checks have made. -/
theorem Schema.describes_check {v : Value}
    (htells : ∀ f ∈ s.fields, ∀ input, (f.check input).TellsFault)
    (hP : ∀ f ∈ s.fields, ∀ v st, f.check (.value v) = .ok st → P f st)
    (h : s.toType.check (.value v) = .ok st) : s.Describes P st := by
  obtain ⟨es, _, hnil, rfl⟩ := check_group h
  exact ⟨_, rfl, forall₂_checkFields htells hP hnil⟩

namespace Schema.Describes

theorem imp (h : s.Describes P st) (hPQ : ∀ f ∈ s.fields, ∀ st, P f st → Q f st) :
    s.Describes Q st := by
  obtain ⟨fs, rfl, hfs⟩ := h
  have hboth := (List.forall₂_and_left s.fields fs).mpr ⟨fun f hf => hf, hfs⟩
  exact ⟨fs, rfl, hboth.imp fun f p ⟨hf, hname, hp⟩ => ⟨hname, hPQ f hf _ hp⟩⟩

theorem get? (h : s.Describes P st) {name : String} {f : Field} (hf : s.field? name = some f) :
    ∃ part, st.get? name = some part ∧ P f part := by
  obtain ⟨fs, rfl, hfs⟩ := h
  show ∃ part, fs.lookup name = some part ∧ P f part
  unfold field? at hf
  generalize s.fields = fields at hf hfs
  induction hfs with
  | nil => cases hf
  | @cons g p _ _ hhead _ ih =>
    obtain ⟨hname, hp⟩ := hhead
    rw [List.find?_cons] at hf
    rw [List.lookup_cons, hname, BEq.comm]
    cases hsame : g.1.name == name with
    | true =>
      rw [hsame] at hf
      cases hf
      exact ⟨p.2, rfl, hp⟩
    | false =>
      rw [hsame] at hf
      exact ih hf

theorem put (h : s.Describes P config) {name : String} {f : Field} (hf : s.field? name = some f)
    {new : Setting} (hnew : P f new) : s.Describes P (config.put name new) := by
  obtain ⟨fs, rfl, hfs⟩ := h
  refine ⟨Setting.replace name new fs, rfl, ?_⟩
  unfold field? at hf
  generalize s.fields = fields at hf hfs ⊢
  induction hfs with
  | nil => exact .nil
  | @cons g p _ _ hhead htail ih =>
    rw [List.find?_cons] at hf
    rw [Setting.replace, hhead.1]
    cases hsame : g.1.name == name with
    | true =>
      rw [hsame] at hf
      cases hf
      exact .cons ⟨rfl, hnew⟩ htail
    | false =>
      rw [hsame] at hf
      exact .cons hhead (ih hf)

/-- An assignment leaves settings of the schema, if what is checked for the field has its
property. -/
theorem assign (h : s.Describes P config) {name : String} {input config' : Setting}
    (hP : ∀ f, s.field? name = some f → ∀ st, f.check input = .ok st → P f st)
    (hassign : s.assign config name input = .ok config') : s.Describes P config' := by
  cases hfield : s.field? name with
  | none =>
    -- nothing is assigned to a private name
    unfold Schema.assign at hassign
    rw [hfield] at hassign
    simp only at hassign
    split at hassign
    · cases hassign
      exact h
    · cases hassign
  | some f =>
    obtain ⟨st, hst, rfl⟩ := assign_eq_ok hfield hassign
    exact h.put hfield (hP f hfield st hst)

end Schema.Describes

/-! ## Settings without graphs -/

namespace Setting

mutual

/-- The settings with every graph in them unfolded; nothing if one contains a cycle. -/
def unfolded? : Setting → Option Setting
  | .value v => v.tree?.map .value
  | .group n fs => (unfoldedFields? fs).map (.group n)

def unfoldedFields? : List (String × Setting) → Option (List (String × Setting))
  | [] => some []
  | (name, st) :: rest => match st.unfolded?, unfoldedFields? rest with
    | some st, some rest => some ((name, st) :: rest)
    | _, _ => none

end

/-- Settings unfold to others, which are the same when they are written out. -/
def UnfoldsTo (st st' : Setting) : Prop := st.unfolded? = some st' ∧ st'.toValue? = st.toValue?

theorem lookup_unfoldedFields {fs fs' : List (String × Setting)} {name : String} {part' : Setting}
    (h : unfoldedFields? fs = some fs') (hpart : fs'.lookup name = some part') :
    ∃ part, fs.lookup name = some part ∧ part.unfolded? = some part' := by
  induction fs generalizing fs' with
  | nil =>
    cases h
    cases hpart
  | cons f rest ih =>
    obtain ⟨key, st⟩ := f
    rw [unfoldedFields?] at h
    split at h
    · rename_i st' rest' hst hrest
      cases h
      rw [List.lookup_cons] at hpart ⊢
      cases hkey : name == key with
      | true =>
        rw [hkey] at hpart
        cases hpart
        exact ⟨st, rfl, hst⟩
      | false =>
        rw [hkey] at hpart
        exact ih hrest hpart
    · cases h

/-- A part of unfolded settings is a part of the settings, unfolded. -/
theorem get?_unfolded {st st' part' : Setting} {name : String} (h : st.unfolded? = some st')
    (hpart : st'.get? name = some part') :
    ∃ part, st.get? name = some part ∧ part.unfolded? = some part' := by
  cases st with
  | value v =>
    -- a value is unfolded to a value, which has no parts
    rw [unfolded?] at h
    obtain ⟨v', -, rfl⟩ := Option.map_eq_some_iff.mp h
    cases hpart
  | group n fs =>
    rw [unfolded?] at h
    obtain ⟨fs', hfs, rfl⟩ := Option.map_eq_some_iff.mp h
    exact lookup_unfoldedFields hfs hpart

theorem view_of_tree? {v : Value} {s : Scalar} (h : v.tree? = some (.scalar s)) :
    v.view = .scalar s := by
  cases v with
  | scalar s' =>
    cases h
    rfl
  | list items =>
    rw [Value.tree?] at h
    obtain ⟨_, -, hlist⟩ := Option.map_eq_some_iff.mp h
    cases hlist
  | pair a b =>
    rw [Value.tree?] at h
    split at h <;> cases h
  | set members => cases h
  | map entries =>
    rw [Value.tree?] at h
    obtain ⟨_, -, hmap⟩ := Option.map_eq_some_iff.mp h
    cases hmap
  | graph g =>
    rw [Value.tree?, Graph.tree?, Graph.treeFrom] at h
    show Value.viewGraph g = _
    -- the root of the graph decides, and nothing but a scalar unfolds to one
    split at h
    · rename_i s' hroot
      cases h
      unfold Value.viewGraph
      rw [hroot]
    · obtain ⟨_, -, hlist⟩ := Option.map_eq_some_iff.mp h
      cases hlist
    · obtain ⟨_, -, hlist⟩ := Option.map_eq_some_iff.mp h
      cases hlist
    · cases h
    · obtain ⟨_, -, hmap⟩ := Option.map_eq_some_iff.mp h
      cases hmap

/-- What is unfolded to a scalar is that scalar, whether or not it is in a graph. -/
theorem scalar?_unfolded {st : Setting} {s : Scalar}
    (h : st.unfolded? = some (.value (.scalar s))) : st.scalar? = some s := by
  cases st with
  | value v =>
    rw [unfolded?] at h
    obtain ⟨v', hv, hvalue⟩ := Option.map_eq_some_iff.mp h
    cases hvalue
    simp only [scalar?, view_of_tree? hv]
  | group n fs =>
    rw [unfolded?] at h
    obtain ⟨_, -, hgroup⟩ := Option.map_eq_some_iff.mp h
    cases hgroup

end Setting

/-- Settings of a schema are unfolded field by field. -/
theorem Schema.Describes.unfold (h : s.Describes P st)
    (hP : ∀ f ∈ s.fields, ∀ st, P f st → ∃ st', st.UnfoldsTo st' ∧ Q f st') :
    ∃ st', st.UnfoldsTo st' ∧ s.Describes Q st' := by
  obtain ⟨fs, rfl, hfs⟩ := h
  suffices hfields : ∃ fs', Setting.unfoldedFields? fs = some fs' ∧
      Setting.fieldValues? fs' = Setting.fieldValues? fs ∧
      Forall₂ (fun f p => p.1 = f.1.name ∧ Q f p.2) s.fields fs' by
    obtain ⟨fs', hunfold, hvalues, hfs'⟩ := hfields
    refine ⟨.group s.name fs', ⟨?_, ?_⟩, fs', rfl, hfs'⟩
    · rw [Setting.unfolded?, hunfold]
      rfl
    · rw [Setting.toValue?, Setting.toValue?, hvalues]
  generalize s.fields = fields at hP hfs ⊢
  induction hfs with
  | nil => exact ⟨[], rfl, rfl, .nil⟩
  | @cons f p _ _ hhead _ ih =>
    rw [List.forall_mem_cons] at hP
    obtain ⟨name, part⟩ := p
    obtain ⟨rfl, hp⟩ := hhead
    obtain ⟨part', ⟨hunfold, hvalue⟩, hQ⟩ := hP.1 part hp
    obtain ⟨rest', hrest, hvalues, hrest'⟩ := ih hP.2
    refine ⟨(f.1.name, part') :: rest', ?_, ?_, .cons ⟨rfl, hQ⟩ hrest'⟩
    · rw [Setting.unfoldedFields?, hunfold, hrest]
    · rw [Setting.fieldValues?, Setting.fieldValues?, hvalue, hvalues]

/-! ## Settings as mappings -/

/-- The entries that are the fields of a schema, in their order, and are each bound to a value with
a property. -/
def Schema.Lists (s : Schema) (R : Field → Value → Prop) (es : Entries) : Prop :=
  Forall₂ (fun f e => e.1 = f.1.key ∧ R f e.2) s.fields es

variable {R : Field → Value → Prop} {es : Entries}

theorem FieldInfo.key_eq {info info' : FieldInfo} (h : info.key = info'.key) :
    info.name = info'.name := by
  injection h with htext
  exact Text.ofString_injective htext

theorem FieldInfo.sameKey_key {info info' : FieldInfo} (h : info.name ≠ info'.name) :
    info.key.sameKey info'.key = false :=
  Bool.eq_false_iff.mpr fun hsame => h (FieldInfo.key_eq (Scalar.sameKey_text.mp hsame))

theorem FieldInfo.sameKey_self (info : FieldInfo) : info.key.sameKey info.key = true :=
  Scalar.sameKey_text.mpr rfl

namespace Schema.Lists

theorem mem (h : s.Lists R es) : ∀ e ∈ es, ∃ f ∈ s.fields, e.1 = f.1.key := by
  unfold Lists at h
  generalize s.fields = fields at h ⊢
  induction h with
  | nil =>
    intro e he
    cases he
  | @cons f e _ _ hhead _ ih =>
    rw [List.forall_mem_cons]
    refine ⟨⟨f, List.mem_cons_self, hhead.1⟩, fun e he => ?_⟩
    obtain ⟨g, hg, hkey⟩ := ih e he
    exact ⟨g, List.mem_cons_of_mem _ hg, hkey⟩

theorem get? (h : s.Lists R es) (hnames : (s.fields.map fun f => f.1.name).Nodup) :
    ∀ f ∈ s.fields, ∃ v, Entries.get? es f.1.key = some v ∧ R f v := by
  unfold Lists at h
  generalize s.fields = fields at h hnames ⊢
  induction h with
  | nil =>
    intro f hf
    cases hf
  | @cons g e rest _ hhead _ ih =>
    obtain ⟨hkey, he⟩ := hhead
    obtain ⟨hnot, hrest⟩ := List.nodup_cons.mp hnames
    rw [List.forall_mem_cons]
    refine ⟨⟨e.2, ?_, he⟩, fun f hf => ?_⟩
    · rw [Entries.get?_cons, hkey, if_pos g.1.sameKey_self]
    · obtain ⟨v, hv, hR⟩ := ih hrest f hf
      have hne : g.1.name ≠ f.1.name := beq_eq_false_iff_ne.mp (beq_name_eq_false hnot hf)
      rw [Entries.get?_cons, hkey, FieldInfo.sameKey_key hne]
      exact ⟨v, hv, hR⟩

end Schema.Lists

/-- Settings of a schema are written out field by field. -/
theorem Schema.Describes.toValue (h : s.Describes P st)
    (hP : ∀ f ∈ s.fields, ∀ st, P f st → ∃ v, st.toValue? = some v ∧ R f v) :
    ∃ es, st.toValue? = some (.map es) ∧ s.Lists R es := by
  obtain ⟨fs, rfl, hfs⟩ := h
  suffices hfields : ∃ es, Setting.fieldValues? fs = some es ∧
      Forall₂ (fun f e => e.1 = f.1.key ∧ R f e.2) s.fields es by
    obtain ⟨es, hes, hlists⟩ := hfields
    refine ⟨es, ?_, hlists⟩
    rw [Setting.toValue?, hes]
    rfl
  generalize s.fields = fields at hP hfs ⊢
  induction hfs with
  | nil => exact ⟨[], rfl, .nil⟩
  | @cons f p _ _ hhead _ ih =>
    rw [List.forall_mem_cons] at hP
    obtain ⟨name, part⟩ := p
    obtain ⟨rfl, hp⟩ := hhead
    obtain ⟨v, hv, hR⟩ := hP.1 part hp
    obtain ⟨es, hes, hlists⟩ := ih hP.2
    refine ⟨(f.1.key, v) :: es, ?_, .cons ⟨rfl, hR⟩ hlists⟩
    rw [Setting.fieldValues?, hv, hes]
    rfl

/-! ## Checks of settings that have been written out -/

/-- Without faults in the fields a mapping is accepted if all its keys are names of fields. -/
theorem finishGroup_of_keys {fields : List Field} (hkeys : ∀ e ∈ es, ∃ f ∈ fields, e.1 = f.1.key)
    (name : String) (settings : List (String × Setting)) :
    finishGroup name fields es ([], settings) = .ok (.group name settings) := by
  have hreadable : hasUnreadableKey es = false := by
    unfold hasUnreadableKey
    rw [List.any_eq_false]
    intro e he
    obtain ⟨f, _, hkey⟩ := hkeys e he
    simp [hkey, FieldInfo.key, Text.toString?_ofString]
  have hknown : strayKeys fields es = [] := by
    unfold strayKeys
    rw [List.filterMap_eq_nil_iff]
    intro e he
    obtain ⟨f, hf, hkey⟩ := hkeys e he
    have hany : (fields.any fun g => g.1.key == f.1.key) = true :=
      List.any_eq_true.mpr ⟨f, hf, beq_self_eq_true _⟩
    rw [hkey]
    show (if fields.any fun g => g.1.key == f.1.key then none else _) = none
    rw [if_pos hany]
  unfold finishGroup
  rw [hreadable, hknown]
  rfl

/-- Fields that are the checks of what they are written out as. The mapping that is checked may have
other entries: the induction is on the fields, and the mapping stays the whole one. -/
theorem checkFields_fieldValues {fields : List Field} {fs : List (String × Setting)}
    {es whole : Entries} (hnames : (fields.map fun f => f.1.name).Nodup)
    (h : Forall₂ (fun f p => p.1 = f.1.name ∧
      ∃ v, p.2.toValue? = some v ∧ f.check (.value v) = .ok p.2) fields fs)
    (hes : Setting.fieldValues? fs = some es)
    (hwhole : ∀ f ∈ fields, Entries.get? whole f.1.key = Entries.get? es f.1.key) :
    checkFields fields whole = ([], fs) := by
  induction h generalizing es with
  | nil => rw [checkFields]
  | @cons f p fields fs hhead _ ih =>
    obtain ⟨hnot, hrestNames⟩ := List.nodup_cons.mp hnames
    obtain ⟨hfirst, hothers⟩ := List.forall_mem_cons.mp hwhole
    obtain ⟨info, t⟩ := f
    obtain ⟨name, part⟩ := p
    obtain ⟨rfl, v, hv, hcheck⟩ := hhead
    rw [Setting.fieldValues?, hv] at hes
    cases hrest : Setting.fieldValues? fs with
    | none =>
      rw [hrest] at hes
      cases hes
    | some es' =>
      rw [hrest] at hes
      cases hes
      have hothers : ∀ g ∈ fields, Entries.get? whole g.1.key = Entries.get? es' g.1.key := by
        intro g hg
        have hne : info.name ≠ g.1.name := beq_eq_false_iff_ne.mp (beq_name_eq_false hnot hg)
        rw [hothers g hg, Entries.get?_cons]
        show (if info.key.sameKey g.1.key then _ else _) = _
        rw [FieldInfo.sameKey_key hne]
        rfl
      have hvalue : Field.valueIn? (info, t) whole = some v := by
        unfold Field.valueIn?
        rw [hfirst, Entries.get?_cons]
        show ((if info.key.sameKey info.key then some v else _).or _).or _ = _
        rw [if_pos info.sameKey_self]
        rfl
      have hfield : (t.check (info.prepare (.value v))).bind info.obey = .ok part := hcheck
      rw [checkFields, ih hrestNames hrest hothers, hvalue]
      simp only [hfield]
      rfl

/-- Settings of a schema whose fields are the checks of what they are written out as are themselves
the check of what they are written out as. -/
theorem Schema.Describes.check (h : s.Describes P st)
    (hnames : (s.fields.map fun f => f.1.name).Nodup)
    (hP : ∀ f ∈ s.fields, ∀ st, P f st → ∃ v, st.toValue? = some v ∧ f.check (.value v) = .ok st) :
    ∃ v, st.toValue? = some v ∧ s.toType.check (.value v) = .ok st := by
  -- first only the keys count: none of them is unknown
  obtain ⟨es, hvalue, hlists⟩ := h.toValue (R := fun _ _ => True) fun f hf st hst => by
    obtain ⟨v, hv, _⟩ := hP f hf st hst
    exact ⟨v, hv, trivial⟩
  obtain ⟨fs, rfl, hfs⟩ := h.imp hP
  refine ⟨.map es, hvalue, ?_⟩
  rw [Setting.toValue?] at hvalue
  obtain ⟨es', hes, hmap⟩ := Option.map_eq_some_iff.mp hvalue
  cases hmap
  have hchecked := checkFields_fieldValues hnames hfs hes fun f hf => rfl
  show FieldType.check (.group s.name s.fields) (.value (.map es)) = _
  rw [FieldType.check]
  show finishGroup s.name s.fields es (checkFields s.fields es) = _
  rw [hchecked]
  exact finishGroup_of_keys hlists.mem _ _

end BootConfig
