import BootConfig.Schema.Check
import BootConfig.Proofs.Data.Overlay

/-!
# Checked fields

What the check of a group says about each of its fields.

* `IsLeaf`: the types of fields that have no fields themselves. Their checks tell a fault if they
  fail (`IsLeaf.check_ne`).
* `lookup_checkFields`: without a fault, every field holds what its check makes of its value.
* `check_group`: what a group that is accepted is.
-/

namespace BootConfig

/-! ## Faults -/

/-- The faults that a check finds; nothing if the value is accepted. -/
def Checked.issues? {α : Type} : Checked α → Option (List Issue)
  | .ok _ => none
  | .error issues => some issues

/-- A check that fails tells why. -/
def Checked.TellsFault {α : Type} (r : Checked α) : Prop := r ≠ .error []

theorem Checked.tellsFault_fault {α : Type} (kind : IssueKind) :
    (Checked.fault kind : Checked α).TellsFault := by
  intro h
  cases h

theorem Checked.tellsFault_ok {α : Type} (a : α) : Checked.TellsFault (.ok a) := by
  intro h
  cases h

theorem FieldInfo.tellsFault_obey (info : FieldInfo) (s : Setting) :
    (info.obey s).TellsFault := by
  unfold FieldInfo.obey
  split
  · split
    · exact Checked.tellsFault_ok _
    · exact Checked.tellsFault_fault _
  · exact Checked.tellsFault_ok _

theorem Checked.tellsFault_issues {α : Type} (issues : List Issue) (a : α) :
    Checked.TellsFault (if issues.isEmpty then .ok a else .error issues) := by
  split
  · exact Checked.tellsFault_ok a
  · rename_i hissues
    intro h
    injection h with h
    exact hissues (List.isEmpty_iff.mpr h)

inductive IsLeaf : FieldType → Prop
  | scalar (t : ScalarType) : IsLeaf (.scalar t)
  | list (item : Option ScalarType) : IsLeaf (.list item)
  | enumeration (e : Enumeration) : IsLeaf (.enumeration e)
  | optional (t : ScalarType) : IsLeaf (.union .choice true [.scalar t])

theorem tellsFault_scalar (t : ScalarType) (input : Setting) :
    (FieldType.check (.scalar t) input).TellsFault := by
  rw [FieldType.check]
  split
  · exact Checked.tellsFault_ok _
  · exact Checked.tellsFault_fault _

theorem IsLeaf.tellsFault {t : FieldType} (h : IsLeaf t) (input : Setting) :
    (t.check input).TellsFault := by
  cases h with
  | scalar t => exact tellsFault_scalar t input
  | list item =>
    rw [FieldType.check]
    unfold checkList
    split
    · exact Checked.tellsFault_fault _
    · split
      · exact Checked.tellsFault_ok _
      · exact Checked.tellsFault_issues _ _
  | enumeration e =>
    rw [FieldType.check]
    unfold Enumeration.check
    split
    · exact Checked.tellsFault_ok _
    · exact Checked.tellsFault_fault _
  | optional t =>
    rw [FieldType.check]
    split
    · exact Checked.tellsFault_ok _
    · rw [trials, trials]
      exact tellsFault_scalar t input

theorem tellsFault_group (name : String) (fields : List Field) (input : Setting) :
    (FieldType.check (.group name fields) input).TellsFault := by
  cases input with
  | group n gs =>
    rw [FieldType.check]
    split
    · exact Checked.tellsFault_ok _
    · exact Checked.tellsFault_fault _
  | value v =>
    rw [FieldType.check]
    split
    · exact Checked.tellsFault_fault _
    · unfold finishGroup
      split
      · exact Checked.tellsFault_fault _
      · exact Checked.tellsFault_issues _ _

theorem Field.tellsFault {f : Field} (h : ∀ input, (f.2.check input).TellsFault) (input : Setting) :
    (f.check input).TellsFault := by
  unfold Field.check
  cases hcheck : f.2.check (f.1.prepare input) with
  | ok s => exact f.1.tellsFault_obey s
  | error issues =>
    intro herror
    cases herror
    exact h _ hcheck

/-! ## Groups -/

/-- A field has another name than the field before it, if names are distinct. -/
theorem beq_name_eq_false {f g : Field} {rest : List Field}
    (hnot : g.1.name ∉ rest.map fun f => f.1.name) (hf : f ∈ rest) :
    (g.1.name == f.1.name) = false := by
  rw [beq_eq_false_iff_ne]
  intro heq
  exact hnot (List.mem_map.mpr ⟨f, hf, heq.symm⟩)

/-- The first field, if there is no fault among the fields. -/
theorem checkFields_cons {f : Field} {rest : List Field} {es : Entries}
    (hf : ∀ input, (f.check input).TellsFault) (h : (checkFields (f :: rest) es).1 = []) :
    ∃ v s, f.valueIn? es = some v ∧ f.check (.value v) = .ok s ∧ (checkFields rest es).1 = [] ∧
      (checkFields (f :: rest) es).2 = (f.1.name, s) :: (checkFields rest es).2 := by
  obtain ⟨info, t⟩ := f
  rw [checkFields] at h ⊢
  cases hv : Field.valueIn? (info, t) es with
  | none =>
    rw [hv] at h
    cases h
  | some v =>
    have hcheck : (t.check (info.prepare (.value v))).bind info.obey =
        Field.check (info, t) (.value v) := rfl
    simp only [hv, hcheck] at h ⊢
    cases hs : Field.check (info, t) (.value v) with
    | error found =>
      rw [hs] at h
      have hfound : found = [] := by
        have happ : found.map (Issue.under (PathStep.ofString info.name)) ++
            (checkFields rest es).1 = [] := h
        exact List.map_eq_nil_iff.mp (List.append_eq_nil_iff.mp happ).1
      exact (hf _ (hfound ▸ hs)).elim
    | ok s =>
      rw [hs] at h
      exact ⟨v, s, rfl, hs, h, rfl⟩

/-- Without a fault, every field holds what its check makes of its value. -/
theorem lookup_checkFields {fields : List Field} {es : Entries}
    (hfields : ∀ f ∈ fields, ∀ input, (f.check input).TellsFault)
    (hnames : (fields.map fun f => f.1.name).Nodup) (h : (checkFields fields es).1 = []) :
    ∀ f ∈ fields, ∃ v s, f.valueIn? es = some v ∧ f.check (.value v) = .ok s ∧
      (checkFields fields es).2.lookup f.1.name = some s := by
  induction fields with
  | nil => intro f hf; cases hf
  | cons g rest ih =>
    obtain ⟨hnot, hrest⟩ := List.nodup_cons.mp hnames
    obtain ⟨v, s, hv, hs, hnil, hcons⟩ := checkFields_cons (hfields g List.mem_cons_self) h
    intro f hf
    rw [hcons]
    rcases List.mem_cons.mp hf with rfl | hf
    · exact ⟨v, s, hv, hs, by simp⟩
    · obtain ⟨w, t, hw, ht, hlookup⟩ :=
        ih (fun f hf => hfields f (List.mem_cons_of_mem _ hf)) hrest hnil f hf
      refine ⟨w, t, hw, ht, ?_⟩
      rw [List.lookup_cons, BEq.comm, beq_name_eq_false hnot hf]
      exact hlookup

/-- A mapping that is accepted as a group has no faults in its fields. -/
theorem check_group {name : String} {fields : List Field} {v : Value} {s : Setting}
    (h : FieldType.check (.group name fields) (.value v) = .ok s) :
    ∃ es, v.entries? = some es ∧ (checkFields fields es).1 = [] ∧
      s = .group name (checkFields fields es).2 := by
  rw [FieldType.check] at h
  split at h
  · cases h
  · rename_i es hes
    unfold finishGroup at h
    split at h
    · cases h
    · simp only at h
      split at h
      · rename_i hissues
        cases h
        exact ⟨es, hes, (List.append_eq_nil_iff.mp (List.isEmpty_iff.mp hissues)).1, rfl⟩
      · cases h

/-- A group that has been checked is taken as it is. -/
theorem check_checked_group (name : String) (fields : List Field) (gs : List (String × Setting)) :
    FieldType.check (.group name fields) (.group name gs) = .ok (.group name gs) := by
  rw [FieldType.check]
  simp

end BootConfig
