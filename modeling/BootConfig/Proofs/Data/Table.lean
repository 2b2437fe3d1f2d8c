import Mathlib.Data.List.Nodup

/-!
# Lookups in tables

Tables are lists of names with what they stand for. If the names are distinct, what is looked up is
what is listed, in whatever order.

* `mem_iff_lookup`: entries and lookups.
* `lookup_of_perm`: lookups do not depend on the order.
* `filter_eq_lookup`: there is one entry at most for a name.
-/

namespace BootConfig

variable {κ α : Type} [BEq κ] [LawfulBEq κ] {table table' : List (κ × α)} {key key' : κ} {a : α}

theorem lookup_cons_of_ne (h : key ≠ key') : List.lookup key ((key', a) :: table) =
    table.lookup key := by
  rw [List.lookup_cons, beq_eq_false_iff_ne.mpr h]

theorem lookup_filter_of_ne (h : key ≠ key') :
    (table.filter fun p => p.1 != key').lookup key = table.lookup key := by
  induction table with
  | nil => rfl
  | cons p rest ih =>
    obtain ⟨name, a⟩ := p
    rw [List.filter_cons]
    by_cases hname : name = key'
    · subst hname
      rw [lookup_cons_of_ne h, ← ih]
      simp
    · simp only [bne_iff_ne, ne_eq, hname, not_false_eq_true, if_true]
      rw [List.lookup_cons, List.lookup_cons, ih]

theorem mem_of_lookup (h : table.lookup key = some a) : (key, a) ∈ table := by
  obtain ⟨before, later, rfl, _⟩ := List.lookup_eq_some_iff.mp h
  exact List.mem_append_right _ List.mem_cons_self

/-! ## Distinct names -/

theorem lookup_of_mem (hnodup : (table.map Prod.fst).Nodup) (h : (key, a) ∈ table) :
    table.lookup key = some a := by
  induction table with
  | nil => cases h
  | cons p rest ih =>
    obtain ⟨hnot, hrest⟩ := List.nodup_cons.mp hnodup
    rcases List.mem_cons.mp h with rfl | h
    · simp
    · have hne : key ≠ p.1 := fun heq => hnot (heq ▸ List.mem_map_of_mem h)
      rw [lookup_cons_of_ne hne, ih hrest h]

theorem mem_iff_lookup (hnodup : (table.map Prod.fst).Nodup) :
    (key, a) ∈ table ↔ table.lookup key = some a :=
  ⟨lookup_of_mem hnodup, mem_of_lookup⟩

theorem lookup_of_perm (hnodup : (table.map Prod.fst).Nodup) (hperm : table.Perm table')
    (key : κ) : table.lookup key = table'.lookup key := by
  have hnodup' := ((hperm.map Prod.fst).nodup_iff).mp hnodup
  refine Option.ext fun a => ?_
  rw [← mem_iff_lookup hnodup, ← mem_iff_lookup hnodup', hperm.mem_iff]

/-- There is one entry at most for a name. -/
theorem filter_eq_lookup (hnodup : (table.map Prod.fst).Nodup) (key : κ) :
    (table.filter fun p => p.1 == key).map Prod.snd = (table.lookup key).toList := by
  induction table with
  | nil => rfl
  | cons p rest ih =>
    obtain ⟨name, a⟩ := p
    obtain ⟨hnot, hrest⟩ := List.nodup_cons.mp hnodup
    rw [List.filter_cons]
    by_cases hname : name = key
    · subst hname
      have hnone : rest.filter (fun p => p.1 == name) = [] := by
        refine List.filter_eq_nil_iff.mpr fun p hp heq => hnot ?_
        exact List.mem_map.mpr ⟨p, hp, eq_of_beq heq⟩
      simp [hnone]
    · rw [lookup_cons_of_ne (Ne.symm hname), ← ih hrest]
      simp [hname]

end BootConfig
