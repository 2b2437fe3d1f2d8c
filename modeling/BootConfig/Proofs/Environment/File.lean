import BootConfig.Environment.File
import BootConfig.Proofs.Placeholder.RawEnvironment

/-!
# Environment files

Of the environment files in a directory and above it, a run loads the nearest one. It takes from it
the variables that its environment lacks. Those that it has keep their values, also when the file
cannot be loaded as a whole.

* `nearest?_eq_some`, `nearest?_eq_none_iff`: which file is loaded.
* `get?_supply`: a variable that is there stays, whatever the file gives it.
* `get?_loadNearest`: so it does when the file is looked for and loaded.
-/

namespace BootConfig.EnvironmentFile

/-! ## The nearest file -/

section Nearest

variable {t : FileTree} {directory names : List FileName}

theorem mem_directories {d names : List FileName} : d ∈ directories names ↔ d <+: names := by
  induction names generalizing d with
  | nil => rw [directories, List.mem_singleton, List.prefix_nil]
  | cons name rest ih =>
    rw [directories, List.mem_append, List.mem_map, List.mem_singleton, List.prefix_cons_iff, or_comm]
    refine or_congr_right ⟨?_, ?_⟩
    · rintro ⟨d, hd, rfl⟩
      exact ⟨d, rfl, ih.mp hd⟩
    · rintro ⟨d, rfl, hd⟩
      exact ⟨d, ih.mpr hd, rfl⟩

/-- The directories further up come later. -/
theorem pairwise_directories (names : List FileName) :
    (directories names).Pairwise fun d d' => d'.length < d.length := by
  induction names with
  | nil => exact List.pairwise_singleton _ _
  | cons name rest ih =>
    rw [directories, List.pairwise_append, List.pairwise_map]
    refine ⟨ih.imp fun h => Nat.succ_lt_succ h, List.pairwise_singleton _ _, ?_⟩
    intro d hd d' hd'
    obtain ⟨d, -, rfl⟩ := List.mem_map.mp hd
    rw [List.mem_singleton.mp hd']
    exact Nat.succ_pos _

/-- The environment file that is loaded stands in the directory or above it, and in no directory
between the two there is one. -/
theorem nearest?_eq_some (h : nearest? t directory = some names) :
    ∃ d, d <+: directory ∧ names = d ++ [fileName] ∧ t.isFile names = true ∧
      ∀ d', d' <+: directory → d.length < d'.length → t.isFile (d' ++ [fileName]) = false := by
  rw [nearest?, List.find?_map, Option.map_eq_some_iff] at h
  obtain ⟨d, hfind, rfl⟩ := h
  obtain ⟨hfile, before, after, hsplit, hbefore⟩ := List.find?_eq_some_iff_append.mp hfind
  have hmem := List.mem_of_find?_eq_some hfind
  refine ⟨d, mem_directories.mp hmem, rfl, hfile, fun d' hprefix hlength => ?_⟩
  have hmem' := mem_directories.mpr hprefix
  have hpairwise := pairwise_directories directory
  rw [hsplit] at hmem' hpairwise
  rcases List.mem_append.mp hmem' with hd' | hd'
  · simpa using hbefore d' hd'
  · rcases List.mem_cons.mp hd' with rfl | hd'
    · exact absurd hlength (Nat.lt_irrefl _)
    · have hlt := (List.pairwise_cons.mp (List.pairwise_append.mp hpairwise).2.1).1 d' hd'
      exact absurd hlength (Nat.lt_asymm hlt)

theorem nearest?_eq_none_iff : nearest? t directory = none ↔
    ∀ d, d <+: directory → t.isFile (d ++ [fileName]) = false := by
  rw [nearest?, List.find?_map, Option.map_eq_none_iff, List.find?_eq_none]
  simp only [mem_directories, Function.comp_apply, Bool.not_eq_true]

end Nearest

/-! ## Variables that are there -/

section Kept

variable {env : Environment} {name value : Text}

/-- By induction on the variables of the file: each that is set was missing, so it is another one
than the one that is there. -/
theorem get?_supply (vs : Variables) (h : env.get? name = some value) :
    (supply env vs).1.get? name = some value := by
  induction vs generalizing env with
  | nil => exact h
  | cons v rest ih =>
    obtain ⟨given, content⟩ := v
    unfold supply
    split
    · rename_i content hmissing
      have hne : name ≠ Text.ofString given := by
        rintro rfl
        cases h.symm.trans hmissing
      split
      · exact h
      · exact ih ((Environment.get?_insert_of_ne hne).trans h)
    · exact ih h

theorem get?_load (content : Bytes) (h : env.get? name = some value) :
    (load env content).1.get? name = some value := by
  unfold load
  split
  · exact h
  · exact get?_supply _ h

theorem get?_loadNearest (t : FileTree) (directory : List FileName)
    (h : env.get? name = some value) :
    (loadNearest env t directory).1.get? name = some value := by
  unfold loadNearest
  split
  · exact h
  · split
    · exact h
    · split
      · exact h
      · split
        · exact get?_load _ h
        · exact h

end Kept

end BootConfig.EnvironmentFile
