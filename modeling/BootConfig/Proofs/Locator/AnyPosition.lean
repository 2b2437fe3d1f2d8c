import BootConfig.Proofs.Locator.LastOccurrence

/-!
# A path at any position

Where a path that is attached to its option may stand among other arguments. What stands before it
cannot hide it; behind it, one ambiguous argument before the next separator can, and then only the
arguments up to the last separator before it count.
-/

namespace BootConfig.Locator

open Options (separator)

/-- The argument that attaches a path to its option. -/
def attachedPath (path : String) : String := "--" ++ fileOption ++ "=" ++ path

theorem mention?_attachedPath (path : String) :
    StartupOption.mention? .configFile (attachedPath path) = some (some path) :=
  StartupOption.mention?_attached_iff.mpr ⟨"--" ++ fileOption, by decide, rfl⟩

/-- The beginning of a list that ends with its last separator; nothing if it has none. -/
def throughLastSeparator : List String → List String
  | [] => []
  | arg :: rest => if separator ∈ arg :: rest then arg :: throughLastSeparator rest else []

theorem throughLastSeparator_of_not_mem {args : List String} (h : separator ∉ args) :
    throughLastSeparator args = [] := by
  cases args with
  | nil => rfl
  | cons arg rest => rw [throughLastSeparator, if_neg h]

theorem head?_throughLastSeparator {args : List String} (h : separator ∈ args) :
    (throughLastSeparator args).head? = args.head? := by
  cases args with
  | nil => cases h
  | cons arg rest => rw [throughLastSeparator, if_pos h]; rfl

/-! ## Liveness of a list that is continued -/

theorem isLive_append_of_mem {args : List String} (later : List String) (h : separator ∈ args) :
    isLive (args ++ later) = isLive args := by
  induction args with
  | nil => cases h
  | cons arg rest ih =>
    by_cases hsep : arg = separator
    · subst hsep
      rw [List.cons_append, isLive_separator, isLive_separator]
    · have hrest : separator ∈ rest := List.mem_of_ne_of_mem (Ne.symm hsep) h
      rw [List.cons_append, isLive_cons _ hsep, isLive_cons _ hsep, ih hrest]

theorem isLive_append_of_not_mem {args later : List String} (h : separator ∉ args)
    (hlater : isLive later = false) : isLive (args ++ later) = false := by
  induction args with
  | nil => exact hlater
  | cons arg rest ih =>
    have hsep : arg ≠ separator := fun he => h (he ▸ List.mem_cons_self)
    rw [List.cons_append, isLive_cons _ hsep, ih fun hm => h (List.mem_cons_of_mem _ hm)]
    exact Bool.and_false _

theorem isLive_throughLastSeparator {args : List String} (h : separator ∈ args) :
    isLive (throughLastSeparator args) = isLive args := by
  induction args with
  | nil => cases h
  | cons arg rest ih =>
    rw [throughLastSeparator, if_pos h]
    by_cases hsep : arg = separator
    · subst hsep
      rw [isLive_separator, isLive_separator]
    · have hrest : separator ∈ rest := List.mem_of_ne_of_mem (Ne.symm hsep) h
      rw [isLive_cons _ hsep, isLive_cons _ hsep, ih hrest]

/-! ## Paths of a list that is continued -/

theorem givenPath?_congr (arg : String) {rest rest' : List String} (h : rest.head? = rest'.head?) :
    givenPath? arg rest = givenPath? arg rest' := by
  unfold givenPath? following?
  rw [h]

/-- Before arguments that are spoiled, what stands behind the last separator gives nothing. -/
theorem givenPaths_append {later : List String} (hlater : isLive later = false)
    (args : List String) :
    givenPaths (args ++ later) = givenPaths (throughLastSeparator args) ++ givenPaths later := by
  unfold givenPaths
  induction args with
  | nil => rfl
  | cons arg rest ih =>
    rw [List.cons_append, given, ih, throughLastSeparator]
    by_cases hrest : separator ∈ rest
    · -- the next separator comes before the spoiled part, which then has no influence
      rw [if_pos (List.mem_cons_of_mem _ hrest), given, isLive_append_of_mem later hrest,
        isLive_throughLastSeparator hrest, List.append_assoc]
      have hhead : (rest ++ later).head? = (throughLastSeparator rest).head? := by
        rw [head?_throughLastSeparator hrest]
        cases rest with
        | nil => cases hrest
        | cons r rs => rfl
      rw [givenPath?_congr arg hhead]
    · rw [isLive_append_of_not_mem hrest hlater, throughLastSeparator_of_not_mem hrest]
      by_cases hmem : separator ∈ arg :: rest
      · -- the argument is the separator itself, which gives nothing
        have harg : separator = arg := by
          rcases List.mem_cons.mp hmem with h | h
          · exact h
          · exact absurd h hrest
        subst harg
        simp [given, givenPath?, mention?_separator]
      · rw [if_neg hmem]
        rfl

theorem givenPaths_eq_nil {args : List String}
    (h : ∀ arg ∈ args, StartupOption.mention? .configFile arg = none) : givenPaths args = [] := by
  unfold givenPaths
  induction args with
  | nil => rfl
  | cons arg rest ih =>
    rw [given, ih fun a ha => h a (List.mem_cons_of_mem _ ha)]
    simp [givenPath?, h arg List.mem_cons_self]

/-! ## The path that is located -/

section

variable {path : String} {pre post : List String}
  (hpost : ∀ arg ∈ post, StartupOption.mention? .configFile arg = none)

include hpost

/-- With nothing ambiguous behind it the attached path is located, unless it is two hyphens. -/
theorem locate_attachedPath_of_live (hlive : isLive post = true) :
    (locate (pre ++ [attachedPath path] ++ post)).configFile =
      if path == separator then "" else path := by
  have hpaths : givenPaths (attachedPath path :: post) =
      [if path == separator then "" else path] := by
    have hrest := givenPaths_eq_nil hpost
    unfold givenPaths at hrest ⊢
    rw [given, if_pos hlive, hrest]
    simp [givenPath?, mention?_attachedPath]
  have hlast : ∀ args : List String, (givenPaths (args ++ attachedPath path :: post)).getLast? =
      some (if path == separator then "" else path) := by
    intro args
    induction args with
    | nil => rw [List.nil_append, hpaths]; rfl
    | cons arg rest ih =>
      unfold givenPaths at ih ⊢
      rw [List.cons_append, given, List.getLast?_append, ih]
      rfl
  rw [locate_configFile, List.append_assoc, List.singleton_append, List.getLastD_eq_getLast?,
    hlast pre]
  rfl

/-- With an ambiguous argument behind it, it is as if the list ended at the last separator before
it. -/
theorem locate_attachedPath_of_not_live (hlive : isLive post = false) :
    (locate (pre ++ [attachedPath path] ++ post)).configFile =
      (locate (throughLastSeparator pre)).configFile := by
  have hsep : attachedPath path ≠ separator := by
    intro h
    have hmention := mention?_attachedPath path
    rw [h, mention?_separator] at hmention
    cases hmention
  have hspoiled : isLive (attachedPath path :: post) = false := by
    rw [isLive_cons _ hsep, hlive, Bool.and_false]
  have hnone : givenPaths (attachedPath path :: post) = [] := by
    have hrest := givenPaths_eq_nil hpost
    unfold givenPaths at hrest ⊢
    rw [given, hlive, hrest]
    rfl
  rw [locate_configFile, locate_configFile, List.append_assoc, List.singleton_append,
    givenPaths_append hspoiled pre, hnone, List.append_nil]

/-- **When an attached path is located.** If no later argument spells the option, the path is
located exactly if it is not two hyphens and no ambiguous argument follows before the next
separator; or else if the arguments up to the last separator before it happen to give the same
path. -/
theorem locate_attachedPath_iff (hpath : path ≠ "") :
    (locate (pre ++ [attachedPath path] ++ post)).configFile = path ↔
      (isLive post = true ∧ path ≠ separator) ∨
        (isLive post = false ∧ (locate (throughLastSeparator pre)).configFile = path) := by
  cases hlive : isLive post with
  | true =>
    rw [locate_attachedPath_of_live hpost hlive]
    by_cases hsep : path = separator
    · subst hsep
      simp [hpath.symm]
    · simp [hsep]
  | false =>
    rw [locate_attachedPath_of_not_live hpost hlive]
    simp

end

/-- The path is located between unknown arguments and arguments that would be ambiguous behind no
separator. -/
theorem locate_attachedPath_between :
    "cfg.yaml" ≠ "" ∧
      (∀ arg ∈ ["-x", "--", "-c"], StartupOption.mention? .configFile arg = none) ∧
      ((locate (["-c", "--config.file"] ++ [attachedPath "cfg.yaml"] ++
          ["-x", "--", "-c"])).configFile = "cfg.yaml" ↔
        (isLive ["-x", "--", "-c"] = true ∧ "cfg.yaml" ≠ separator) ∨
          (isLive ["-x", "--", "-c"] = false ∧
            (locate (throughLastSeparator ["-c", "--config.file"])).configFile = "cfg.yaml")) := by
  have hpath : "cfg.yaml" ≠ "" := by decide
  have hpost : ∀ arg ∈ ["-x", "--", "-c"], StartupOption.mention? .configFile arg = none := by
    decide
  exact ⟨hpath, hpost, locate_attachedPath_iff hpost hpath⟩

/-- An ambiguous argument that spells no option hides the path before it. -/
theorem locate_hidden_by_ambiguous :
    "cfg.yaml" ≠ "" ∧ (∀ arg ∈ ["-c"], StartupOption.mention? .configFile arg = none) ∧
      (locate ([] ++ [attachedPath "cfg.yaml"] ++ ["-c"])).configFile ≠ "cfg.yaml" := by
  decide +kernel

end BootConfig.Locator
