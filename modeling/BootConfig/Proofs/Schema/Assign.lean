import BootConfig.Flags
import BootConfig.Proofs.Schema.Sections

/-!
# Assigned fields

Assigning a field changes what settings hold for it, and nothing else.

* `Setting.get?_put`: the fields of a group after one of them has been replaced.
* `Schema.assign_eq_ok`: what an assignment that is accepted does.
* `Schema.Changes`: what an assignment or a flag at a path does to settings, in groups within
  groups.
-/

namespace BootConfig

namespace Setting

theorem lookup_replace (name : String) (new : Setting) (fs : List (String × Setting)) (q : String) :
    (replace name new fs).lookup q =
      if q == name then (fs.lookup q).map fun _ => new else fs.lookup q := by
  induction fs with
  | nil => cases q == name <;> rfl
  | cons f rest ih =>
    rw [replace]
    split
    · rename_i hf
      rw [List.lookup_cons, List.lookup_cons, eq_of_beq hf]
      cases q == name <;> rfl
    · rename_i hf
      rw [List.lookup_cons, List.lookup_cons, ih]
      cases hq : q == f.1 with
      | false => rfl
      | true =>
        have hne : (q == name) = false := by
          rw [eq_of_beq hq]
          exact eq_false_of_ne_true hf
        simp [hne]

/-- The fields of a group after one of them has been replaced. -/
theorem get?_put (config : Setting) (name : String) (new : Setting) (q : String) :
    (config.put name new).get? q =
      if q == name then (config.get? q).map fun _ => new else config.get? q := by
  cases config with
  | value v => cases q == name <;> rfl
  | group n fs => exact lookup_replace name new fs q

theorem get?_put_self {config old : Setting} {name : String} (new : Setting)
    (h : config.get? name = some old) : (config.put name new).get? name = some new := by
  rw [get?_put, h]
  simp

theorem get?_put_of_ne (config : Setting) {name q : String} (new : Setting) (h : q ≠ name) :
    (config.put name new).get? q = config.get? q := by
  rw [get?_put, beq_eq_false_iff_ne.mpr h]
  rfl

end Setting

namespace Schema

/-- An assignment that is accepted puts the checked value in the place of the field. -/
theorem assign_eq_ok {s : Schema} {current config input : Setting} {name : String} {f : Field}
    (hf : s.field? name = some f) (h : s.assign current name input = .ok config) :
    ∃ v, f.check input = .ok v ∧ config = current.put name v := by
  unfold assign at h
  rw [hf] at h
  have h : Checked.under (PathStep.ofString name) ((f.check input).map (current.put name)) =
      .ok config := h
  cases hcheck : f.check input with
  | error issues =>
    rw [hcheck] at h
    cases h
  | ok v =>
    rw [hcheck] at h
    cases h
    exact ⟨v, rfl, rfl⟩

/-! ## Values at paths -/

/-- How settings change if a value is given somewhere in them. -/
inductive Changes : Schema → Setting → Setting → Prop
  | same (s : Schema) (config : Setting) : Changes s config config
  | here {s : Schema} {config config' : Setting} {name : String} {v : Value} :
      s.assign config name (.value v) = .ok config' → Changes s config config'
  | inside {s inner : Schema} {config part : Setting} {name n : String} {f : Field}
      {fields : List (String × Setting)} :
      s.field? name = some f → config.get? name = some (.group n fields) →
      f.2.groupNamed? n = some inner → Changes inner (.group n fields) part →
      Changes s config (config.put name part)

theorem changes_assignAt {s : Schema} {config config' : Setting} {v : Value} {names : List String}
    (h : s.assignAt config v names = .ok config') : s.Changes config config' := by
  induction names generalizing s config config' with
  | nil =>
    cases h
    exact .same s config
  | cons name rest ih =>
    cases rest with
    | nil =>
      unfold assignAt at h
      cases hassign : s.assign config name (.value v) with
      | error issues =>
        rw [hassign] at h
        cases h
      | ok assigned =>
        rw [hassign] at h
        cases h
        exact .here hassign
    | cons next rest =>
      unfold assignAt at h
      split at h
      · rename_i t n fields hfield hget
        split at h
        · rename_i inner hinner
          cases hpart : assignAt inner (.group n fields) v (next :: rest) with
          | error f =>
            rw [hpart] at h
            cases h
          | ok part =>
            rw [hpart] at h
            cases h
            exact .inside hfield hget hinner (ih hpart)
        · cases h
      · cases h
      · cases h

theorem changes_applyAt {s : Schema} {config config' : Setting} {v : Value} {names : List String}
    (h : s.applyAt config v names = .assigned config') : s.Changes config config' := by
  induction names generalizing s config config' with
  | nil => cases h
  | cons name rest ih =>
    cases rest with
    | nil =>
      unfold applyAt at h
      split at h
      · cases h
      · split at h
        · rename_i assigned hassign
          cases h
          exact .here hassign
        · cases h
    | cons next rest =>
      unfold applyAt at h
      split at h
      · rename_i t n fields hfield hget
        split at h
        · rename_i inner hinner
          cases hpart : applyAt inner (.group n fields) v (next :: rest) with
          | assigned part =>
            rw [hpart] at h
            cases h
            exact .inside hfield hget hinner (ih hpart)
          | _ =>
            rw [hpart] at h
            cases h
        · cases h
      · unfold Flags.beyond at h
        split at h <;> cases h
      · cases h

end Schema

end BootConfig
