import BootConfig.Proofs.Schema.Recheck

/-!
# Sections within sections

Schemas whose groups nest to any depth. A group that may be left out is a section like any other, if
it is declared as a choice.

* `FieldType.section?`, `Schema.fieldAt?`: sections, and the field that a path of names leads to.
* `FieldType.Proper`: types as a program declares them.
* `FieldType.Proper.tellsFault`: their checks tell a fault if they fail.
* `FieldType.check_section`: what a section holds once it has been checked.
-/

namespace BootConfig

/-! ## Paths through sections -/

/-- The schema of a section: of a group, or of a choice between a group and null. -/
def FieldType.section? : FieldType → Option Schema
  | .group name fields => some ⟨name, fields⟩
  | .union .choice _ [t] => t.section?
  | _ => none

namespace Schema

/-- The field that a path of names leads to. All names but the last one are those of sections. -/
def fieldAt? (s : Schema) : List String → Option Field
  | [] => none
  | [name] => s.field? name
  | name :: next :: path =>
    ((s.field? name).bind fun f => f.2.section?).bind fun inner => inner.fieldAt? (next :: path)

variable {s inner : Schema} {name : String} {path rest : List String} {f g : Field}

theorem name_of_field? (h : s.field? name = some f) : f.1.name = name := by
  unfold field? at h
  simpa using List.find?_some h

theorem fieldAt?_cons (hg : s.field? name = some g) (hinner : g.2.section? = some inner)
    (hpath : path ≠ []) : s.fieldAt? (name :: path) = inner.fieldAt? path := by
  obtain ⟨next, path, rfl⟩ := List.exists_cons_of_ne_nil hpath
  rw [fieldAt?, hg, Option.bind_some, hinner, Option.bind_some]

/-- A path to a field starts with a field; if it goes on, that one is a section. -/
theorem fieldAt?_cases (h : s.fieldAt? path = some f) :
    (∃ name, path = [name] ∧ s.field? name = some f) ∨
      ∃ name below g inner, path = name :: below ∧ below ≠ [] ∧ s.field? name = some g ∧
        g.2.section? = some inner ∧ inner.fieldAt? below = some f := by
  match path with
  | [] => cases h
  | [name] => exact .inl ⟨name, rfl, h⟩
  | name :: next :: path =>
    obtain ⟨inner, hinner, hf⟩ := Option.bind_eq_some_iff.mp h
    obtain ⟨g, hg, hsection⟩ := Option.bind_eq_some_iff.mp hinner
    exact .inr ⟨name, next :: path, g, inner, rfl, List.cons_ne_nil _ _, hg, hsection, hf⟩

/-- No path leads on from a field that is no section. -/
theorem eq_nil_of_fieldAt?_append (h : s.fieldAt? path = some f) (hleaf : f.2.section? = none)
    (hrest : s.fieldAt? (path ++ rest) = some g) : rest = [] := by
  induction path generalizing s with
  | nil => cases h
  | cons name path ih =>
    obtain ⟨_, hpath, hf⟩ | ⟨_, below, g', inner, hpath, hne, hg', hinner, hf⟩ :=
      fieldAt?_cases h
    · cases hpath
      cases rest with
      | nil => rfl
      | cons next rest =>
        rw [List.singleton_append, fieldAt?, hf, Option.bind_some, hleaf] at hrest
        cases hrest
    · cases hpath
      rw [List.cons_append, fieldAt?_cons hg' hinner (by simp [hne])] at hrest
      exact ih hf hrest

end Schema

/-! ## Declared types -/

/-- A name as identifiers are: without points and hyphens. -/
def IsPlainName (name : String) : Prop := '.' ∉ name.toList ∧ '-' ∉ name.toList

instance : DecidablePred IsPlainName := fun _ => inferInstanceAs (Decidable (_ ∧ _))

/-- Types as a program declares them: alternatives are there, and the fields of a group have plain
names that differ. -/
inductive FieldType.Proper : FieldType → Prop
  | scalar (t : ScalarType) : Proper (.scalar t)
  | any : Proper .any
  | mapping : Proper .mapping
  | bareList : Proper .bareList
  | list (item : Option ScalarType) : Proper (.list item)
  | enumeration (e : Enumeration) : Proper (.enumeration e)
  | union {style : UnionStyle} {nullable : Bool} {members : List FieldType} :
      members ≠ [] → (∀ t ∈ members, Proper t) → Proper (.union style nullable members)
  | group {name : String} {fields : List Field} :
      (fields.map fun f => f.1.name).Nodup → (∀ f ∈ fields, IsPlainName f.1.name) →
      (∀ f ∈ fields, Proper f.2) → Proper (.group name fields)

def Schema.Proper (s : Schema) : Prop := s.toType.Proper

namespace Schema.Proper

variable {s : Schema} {name : String} {f : Field}

theorem distinct (h : s.Proper) : (s.fields.map fun f => f.1.name).Nodup := by
  cases h with
  | group hdistinct _ _ => exact hdistinct

theorem plain (h : s.Proper) : ∀ f ∈ s.fields, IsPlainName f.1.name := by
  cases h with
  | group _ hplain _ => exact hplain

theorem type (h : s.Proper) : ∀ f ∈ s.fields, f.2.Proper := by
  cases h with
  | group _ _ htype => exact htype

end Schema.Proper

theorem FieldType.Proper.section {t : FieldType} (h : t.Proper) {inner : Schema}
    (hinner : t.section? = some inner) : inner.Proper := by
  induction h with
  | group hdistinct hplain htype _ =>
    cases hinner
    exact .group hdistinct hplain htype
  | @union style nullable members _ _ ih =>
    unfold section? at hinner
    split at hinner
    · rename_i heq
      cases heq
    · rename_i t heq
      cases heq
      exact ih t List.mem_cons_self hinner
    · cases hinner
  | _ => cases hinner

/-- All names on a path to a field are plain. -/
theorem Schema.Proper.plain_path {s : Schema} (hs : s.Proper) {path : List String} {f : Field}
    (h : s.fieldAt? path = some f) : path ≠ [] ∧ ∀ name ∈ path, IsPlainName name := by
  induction path generalizing s with
  | nil => cases h
  | cons name path ih =>
    refine ⟨List.cons_ne_nil _ _, ?_⟩
    have hplain : ∀ g, s.field? name = some g → IsPlainName name := by
      intro g hg
      rw [← name_of_field? hg]
      exact hs.plain g (List.mem_of_find?_eq_some hg)
    obtain ⟨_, hpath, hf⟩ | ⟨_, below, g, inner, hpath, _, hg, hinner, hf⟩ := fieldAt?_cases h
    · cases hpath
      exact List.forall_mem_singleton.mpr (hplain f hf)
    · cases hpath
      have htype := hs.type g (List.mem_of_find?_eq_some hg)
      exact List.forall_mem_cons.mpr ⟨hplain g hg, (ih (htype.section hinner) hf).2⟩

/-! ## Faults -/

/-- If no alternative takes a value, and each of them tells why, then so does the choice. -/
theorem Trial.tellsFault_choose {ts : List Trial} (hne : ts ≠ [])
    (h : ∀ r ∈ ts, r.result.TellsFault) : (choose ts).TellsFault := by
  unfold choose
  split
  · exact h _ (List.mem_singleton_self _)
  · split
    · exact Checked.tellsFault_ok _
    · rename_i hnone
      intro hempty
      obtain ⟨t, rest, rfl⟩ := List.exists_cons_of_ne_nil hne
      -- the first alternative fails, so that its faults are among those of the choice
      cases hresult : t.result with
      | ok s =>
        have hsome : ((t :: rest).foldl better none).isSome = true :=
          isSome_foldl_better (.inr ⟨t, List.mem_cons_self, s, hresult⟩)
        rw [hnone] at hsome
        cases hsome
      | error found =>
        injection hempty with hempty
        have hfirst := (List.append_eq_nil_iff.mp hempty).1
        rw [issues, hresult, List.map_eq_nil_iff] at hfirst
        exact h t List.mem_cons_self (hfirst ▸ hresult)

theorem FieldType.Proper.tellsFault {t : FieldType} (h : t.Proper) (input : Setting) :
    (t.check input).TellsFault := by
  induction h with
  | scalar t => exact tellsFault_scalar t input
  | any =>
    rw [FieldType.check]
    exact Checked.tellsFault_ok _
  | mapping =>
    rw [FieldType.check]
    split
    · exact Checked.tellsFault_ok _
    · exact Checked.tellsFault_fault _
  | bareList =>
    have hlist := (IsLeaf.list none).tellsFault input
    rw [FieldType.check] at hlist
    rw [FieldType.check]
    exact hlist
  | list item => exact (IsLeaf.list item).tellsFault input
  | enumeration e => exact (IsLeaf.enumeration e).tellsFault input
  | @union style nullable members hne _ ih =>
    rw [FieldType.check]
    split
    · exact Checked.tellsFault_ok _
    · rw [trials_eq_map]
      refine Trial.tellsFault_choose (by simpa using hne) fun r hr => ?_
      obtain ⟨t, ht, rfl⟩ := List.mem_map.mp hr
      exact ih t ht
  | group => exact tellsFault_group _ _ _

/-! ## Checked sections -/

namespace FieldType

variable {t : FieldType} {inner : Schema}

/-- What a section holds is null, or a group of its own schema. -/
theorem check_section (hinner : t.section? = some inner) {v : Value} {st : Setting}
    (h : t.check (.value v) = .ok st) :
    st.isNull = true ∨ inner.toType.check (.value v) = .ok st := by
  fun_induction section? t with
  | case1 name fields =>
    cases hinner
    exact .inr h
  | case2 nullable t ih =>
    rw [FieldType.check] at h
    split at h
    · rename_i hnull
      cases h
      exact .inl (Bool.and_eq_true_iff.mp hnull).2
    · rw [trials, trials] at h
      exact ih hinner h
  | case3 => cases hinner

/-- A section admits the groups of its own schema. -/
theorem groupNamed?_of_section (hinner : t.section? = some inner) :
    t.groupNamed? inner.name = some inner := by
  fun_induction section? t with
  | case1 name fields =>
    cases hinner
    exact groupNamed?_toType ⟨name, fields⟩
  | case2 nullable t ih =>
    rw [groupNamed?, groupNamed?.inMembers, ih hinner]
  | case3 => cases hinner

end FieldType

end BootConfig
