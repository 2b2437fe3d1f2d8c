import BootConfig.Flags
import BootConfig.Proofs.Options.Accepted
import BootConfig.Proofs.Schema.Assign

/-!
# Applied flags

Values laid at the paths of leaves change these leaves, and no others.

* `names_path`: the names along the path of a leaf.
* `applyAt_leaf`: one value laid at the path of a leaf.
* `Sectioned.applyFlags`: all values that are given.
-/

namespace BootConfig

open Options (Assignments CommandOption)

variable {s : Schema} {l : Leaf}

/-! ## Paths -/

namespace Flags

theorem segments_of_noPoint {cs : List Char} (h : '.' ∉ cs) : segments cs = [cs] := by
  induction cs with
  | nil => rfl
  | cons c cs ih =>
    obtain ⟨hc, hcs⟩ := not_or.mp (mt List.mem_cons.mpr h)
    have hne : (c == '.') = false := beq_eq_false_iff_ne.mpr (Ne.symm hc)
    rw [segments, hne, ih hcs]
    rfl

theorem segments_append {a b : List Char} (h : '.' ∉ a) :
    segments (a ++ '.' :: b) = a :: segments b := by
  induction a with
  | nil => rfl
  | cons c a ih =>
    obtain ⟨hc, ha⟩ := not_or.mp (mt List.mem_cons.mpr h)
    have hne : (c == '.') = false := beq_eq_false_iff_ne.mpr (Ne.symm hc)
    rw [List.cons_append, segments, hne, ih ha]
    rfl

theorem names_of_noPoint {name : String} (h : '.' ∉ name.toList) : names name = [name] := by
  rw [names, segments_of_noPoint h, List.map_singleton, String.ofList_toList]

theorem names_append {name : String} (h : '.' ∉ name.toList) (path : String) :
    names (name ++ "." ++ path) = name :: names path := by
  have hsplit : (name ++ "." ++ path).toList = name.toList ++ '.' :: path.toList := by
    rw [String.toList_append, String.toList_append, List.append_assoc]
    rfl
  rw [names, hsplit, segments_append h, List.map_cons, String.ofList_toList]
  rfl

end Flags

/-- The names along the path of a leaf are those of its section and of its field. -/
theorem Sectioned.names_path (hs : Sectioned s) (hl : l ∈ s.leaves) :
    Flags.names l.path = [l.group, l.field.1.name] := by
  obtain ⟨g, hg, inner, hinner, hgroup, hf⟩ := hs.of_mem_leaves hl
  rw [Leaf.path, Flags.names_append (hgroup ▸ hs.noPoint g hg),
    Flags.names_of_noPoint (hinner.noPoint l.field hf)]

theorem Sectioned.eq_of_path (hs : Sectioned s) {l l' : Leaf} (hl : l ∈ s.leaves)
    (hl' : l' ∈ s.leaves) (h : l.path = l'.path) : l = l' := by
  have hnames := hs.names_path hl
  rw [h, hs.names_path hl'] at hnames
  injection hnames with hgroup hrest
  injection hrest with hname _
  exact hs.leaf_ext hl hl' hgroup.symm hname.symm

/-! ## One value -/

/-- What the whole settings are after one leaf has been replaced. -/
def Setting.putLeaf (config : Setting) (l : Leaf) (leaf : Setting) : Setting :=
  match config.get? l.group with
  | some g => config.put l.group (g.put l.field.1.name leaf)
  | none => config

theorem leaf?_putLeaf {config leaf old : Setting} (h : config.leaf? l = some old) :
    (config.putLeaf l leaf).leaf? l = some leaf := by
  obtain ⟨g, hg, hfield⟩ := Option.bind_eq_some_iff.mp h
  unfold Setting.leaf? Setting.putLeaf
  rw [hg]
  simp only
  rw [Setting.get?_put_self _ hg, Option.bind_some, Setting.get?_put_self _ hfield]

theorem leaf?_putLeaf_of_ne {config leaf : Setting} {l' : Leaf}
    (h : l'.group ≠ l.group ∨ l'.field.1.name ≠ l.field.1.name) :
    (config.putLeaf l leaf).leaf? l' = config.leaf? l' := by
  unfold Setting.leaf? Setting.putLeaf
  split
  · rename_i g hg
    by_cases hgroup : l'.group = l.group
    · have hname : l'.field.1.name ≠ l.field.1.name := h.resolve_left fun hne => hne hgroup
      rw [hgroup, Setting.get?_put_self _ hg, hg]
      exact Setting.get?_put_of_ne g leaf hname
    · rw [Setting.get?_put_of_ne _ _ hgroup]
  · rfl

theorem inSections_putLeaf {config leaf : Setting} (h : config.InSections s) :
    (config.putLeaf l leaf).InSections s := by
  intro g hg inner hinner
  obtain ⟨gs, hgs⟩ := h g hg inner hinner
  unfold Setting.putLeaf
  split
  · rename_i group hgroup
    by_cases hname : g.1.name = l.group
    · rw [hname] at hgs ⊢
      rw [hgroup] at hgs
      cases hgs
      rw [Setting.get?_put_self _ hgroup]
      exact ⟨_, rfl⟩
    · rw [Setting.get?_put_of_ne _ _ hname]
      exact ⟨gs, hgs⟩
  · exact ⟨gs, hgs⟩

/-- A value laid at the path of a leaf is checked for it, and replaces it or is refused. -/
theorem Sectioned.applyAt_leaf (hs : Sectioned s) {config : Setting} (hconfig : config.InSections s)
    (hl : l ∈ s.leaves) (v : Value) :
    s.applyAt config v (Flags.names l.path) = match l.field.check (.value v) with
      | .ok leaf => .assigned (config.putLeaf l leaf)
      | .error issues => .refused (issues.map (Issue.under (PathStep.ofString l.field.1.name))) := by
  obtain ⟨g, hg, inner, hinner, hgroup, hf⟩ := hs.of_mem_leaves hl
  obtain ⟨gs, hgs⟩ := hconfig g hg inner hinner
  have hfield := field?_of_mem hinner.distinct hf
  have hsection : s.applyAt config v (Flags.names l.path) =
      (inner.applyAt (.group inner.name gs) v [l.field.1.name]).inside (config.put l.group) := by
    rw [hs.names_path hl, hgroup]
    conv_lhs => unfold Schema.applyAt
    rw [field?_of_mem hs.distinct hg, hgs]
    simp only [hinner.type, groupNamed?_toType]
  rw [hsection, Schema.applyAt, Schema.assign, hfield]
  simp only [Option.isNone_some, Bool.false_eq_true, if_false]
  cases l.field.check (.value v) with
  | error issues => rfl
  | ok leaf =>
    unfold Setting.putLeaf
    rw [hgroup, hgs]
    rfl

/-! ## All values -/

/-- With distinct paths it does not matter which value of a list is looked at first. -/
theorem lookup_cons_of_distinct {path : String} {v : Value} {rest : Assignments}
    (h : Assignments.Distinct ((path, v) :: rest)) (q : String) :
    List.lookup q ((path, v) :: rest) = (rest.lookup q).or (List.lookup q [(path, v)]) := by
  rw [List.lookup_cons, List.lookup_cons]
  cases hq : q == path with
  | false => exact (Option.or_none).symm
  | true =>
    have hnone : rest.lookup q = none := by
      refine List.lookup_eq_none_iff.mpr fun p hp => bne_iff_ne.mpr fun heq => ?_
      refine (List.nodup_cons.mp h).1 (List.mem_map.mpr ⟨p, hp, ?_⟩)
      rw [← heq, eq_of_beq hq]
    rw [hnone]
    rfl

/-- A leaf that is replaced takes its value, and the other leaves keep theirs. -/
theorem Sectioned.takes_putLeaf (hs : Sectioned s) {config leaf : Setting} {target : Leaf}
    {v : Value} (hleaves : ∀ l ∈ s.leaves, (config.leaf? l).isSome = true)
    (htarget : target ∈ s.leaves) (hcheck : target.field.check (.value v) = .ok leaf) :
    ∀ l ∈ s.leaves,
      l.Takes (List.lookup l.path [(target.path, v)]) config (config.putLeaf target leaf) := by
  intro l hl
  obtain ⟨old, hold⟩ := Option.isSome_iff_exists.mp (hleaves l hl)
  rw [List.lookup_cons]
  by_cases hsame : l = target
  · subst hsame
    rw [beq_self_eq_true]
    exact ⟨leaf, leaf?_putLeaf hold, hcheck⟩
  · have hpath : (l.path == target.path) = false :=
      beq_eq_false_iff_ne.mpr fun heq => hsame (hs.eq_of_path hl htarget heq)
    rw [hpath]
    refine ⟨old, ?_, hold⟩
    rw [leaf?_putLeaf_of_ne, hold]
    exact not_and_or.mp fun ⟨hgroup, hname⟩ => hsame (hs.leaf_ext hl htarget hgroup hname)

/-- Values laid at the paths of leaves one after the other. The induction is on the values: what the
first one changes is what the others start from. -/
theorem Sectioned.applyEach (hs : Sectioned s) {config : Setting} {done as : Assignments}
    (hconfig : config.InSections s) (hleaves : ∀ l ∈ s.leaves, (config.leaf? l).isSome = true)
    (hdistinct : as.Distinct) (hpaths : ∀ path ∈ as.map Prod.fst, ∃ l ∈ s.leaves, l.path = path)
    (h : (Flags.applyEach s config done as).stop = none) :
    ∀ l ∈ s.leaves,
      l.Takes (as.lookup l.path) config (Flags.applyEach s config done as).config := by
  induction as generalizing config done with
  | nil =>
    intro l hl
    obtain ⟨leaf, hleaf⟩ := Option.isSome_iff_exists.mp (hleaves l hl)
    exact ⟨leaf, hleaf, hleaf⟩
  | cons a rest ih =>
    obtain ⟨path, v⟩ := a
    obtain ⟨target, htarget, rfl⟩ := hpaths path List.mem_cons_self
    rw [Flags.applyEach] at h ⊢
    rw [hs.applyAt_leaf hconfig htarget] at h ⊢
    cases hcheck : target.field.check (.value v) with
    | ok leaf =>
      rw [hcheck] at h
      simp only at h ⊢
      have hfirst := hs.takes_putLeaf hleaves htarget hcheck
      have hleaves' : ∀ l ∈ s.leaves, ((config.putLeaf target leaf).leaf? l).isSome = true := by
        intro l hl
        obtain ⟨new, hnew, _⟩ := hfirst l hl
        rw [hnew]
        rfl
      have hrest := ih (inSections_putLeaf hconfig) hleaves' (List.nodup_cons.mp hdistinct).2
        (fun path hpath => hpaths path (List.mem_cons_of_mem _ hpath)) h
      intro l hl
      rw [lookup_cons_of_distinct hdistinct]
      exact (hfirst l hl).trans (hrest l hl)
    | error issues =>
      rw [hcheck] at h
      cases h

/-- Values that their leaves accept are laid at their paths without a stop. -/
theorem Sectioned.applyEach_accepted (hs : Sectioned s) {config : Setting} {done as : Assignments}
    (hconfig : config.InSections s) (has : ∀ a ∈ as, ∃ l ∈ s.leaves, l.path = a.1 ∧
      ∃ leaf, l.field.check (.value a.2) = .ok leaf) :
    (Flags.applyEach s config done as).stop = none := by
  induction as generalizing config done with
  | nil => rfl
  | cons a rest ih =>
    obtain ⟨path, v⟩ := a
    obtain ⟨⟨l, hl, rfl, leaf, hcheck⟩, hrest⟩ := List.forall_mem_cons.mp has
    rw [Flags.applyEach, hs.applyAt_leaf hconfig hl, hcheck]
    exact ih (inSections_putLeaf hconfig) hrest

theorem Sectioned.applyFlags_accepted (hs : Sectioned s) {config : Setting} {as : Assignments}
    (hconfig : config.InSections s) (has : ∀ a ∈ as, ∃ l ∈ s.leaves, l.path = a.1 ∧
      ∃ leaf, l.field.check (.value a.2) = .ok leaf) : (s.applyFlags config as).stop = none :=
  hs.applyEach_accepted hconfig fun a ha => has a ((List.mergeSort_perm _ _).mem_iff.mp ha)

/-- All values that are given, laid at the paths of leaves in the order of the paths. -/
theorem Sectioned.applyFlags (hs : Sectioned s) {config : Setting} {as : Assignments}
    (hconfig : config.InSections s) (hleaves : ∀ l ∈ s.leaves, (config.leaf? l).isSome = true)
    (hdistinct : as.Distinct) (hpaths : ∀ path ∈ as.map Prod.fst, ∃ l ∈ s.leaves, l.path = path)
    (h : (s.applyFlags config as).stop = none) :
    ∀ l ∈ s.leaves, l.Takes (as.lookup l.path) config (s.applyFlags config as).config := by
  have hperm : (as.mergeSort Flags.inOrder).Perm as := List.mergeSort_perm _ _
  have hsorted : Assignments.Distinct (as.mergeSort Flags.inOrder) :=
    ((hperm.map Prod.fst).nodup_iff).mpr hdistinct
  have hpaths' : ∀ path ∈ (as.mergeSort Flags.inOrder).map Prod.fst, ∃ l ∈ s.leaves,
      l.path = path := fun path hpath => hpaths path ((hperm.map Prod.fst).mem_iff.mp hpath)
  intro l hl
  rw [hdistinct.lookup_perm hperm.symm]
  exact hs.applyEach hconfig hleaves hsorted hpaths' h l hl

/-! ## The flags of a schema -/

theorem Flags.mem_ofFields {start : String} {fields : List Field} {o : CommandOption}
    (h : o ∈ ofFields start fields) :
    ∃ f ∈ fields, o ∈ ofType (start ++ f.1.name) f.1.help f.2 := by
  induction fields with
  | nil =>
    rw [ofFields] at h
    cases h
  | cons f rest ih =>
    obtain ⟨info, t⟩ := f
    rw [ofFields] at h
    rcases List.mem_append.mp h with h | h
    · exact ⟨(info, t), List.mem_cons_self, h⟩
    · obtain ⟨f, hf, ho⟩ := ih h
      exact ⟨f, List.mem_cons_of_mem _ hf, ho⟩

theorem Flags.mem_ofFields_of_mem {start : String} {fields : List Field} {f : Field}
    {o : CommandOption} (hf : f ∈ fields) (ho : o ∈ ofType (start ++ f.1.name) f.1.help f.2) :
    o ∈ ofFields start fields := by
  induction fields with
  | nil => cases hf
  | cons g rest ih =>
    obtain ⟨info, t⟩ := g
    rw [ofFields]
    rcases List.mem_cons.mp hf with rfl | hf
    · exact List.mem_append_left _ ho
    · exact List.mem_append_right _ (ih hf)

theorem IsLeaf.purpose {t : FieldType} (ht : IsLeaf t) {path : String} {help : Option String}
    {o : CommandOption} (h : o ∈ Flags.ofType path help t) : o.meaning.purpose = .setting path := by
  cases ht with
  | scalar t =>
    rw [Flags.ofType, List.mem_singleton] at h
    subst h
    cases t <;> rfl
  | list item =>
    rw [Flags.ofType, List.mem_singleton] at h
    subst h
    rfl
  | enumeration e =>
    rw [Flags.ofType, List.mem_singleton] at h
    subst h
    rfl
  | optional t =>
    rw [Flags.ofType, Flags.ofType, List.mem_singleton] at h
    subst h
    cases t <;> rfl

/-- The flags of a schema in sections set its leaves. -/
theorem Sectioned.path_of_mem_flags (hs : Sectioned s) {o : CommandOption} {path : String}
    (ho : o ∈ s.flags) (hpath : o.meaning.purpose = .setting path) :
    ∃ l ∈ s.leaves, l.path = path := by
  obtain ⟨g, hg, ho⟩ := Flags.mem_ofFields ho
  obtain ⟨inner, hinner⟩ := hs.sections g hg
  rw [hinner.type, Schema.toType, Flags.ofType] at ho
  obtain ⟨f, hf, ho⟩ := Flags.mem_ofFields ho
  rw [(hinner.leaf f hf).purpose ho] at hpath
  cases hpath
  refine ⟨⟨g.1.name, f⟩, Sectioned.mem_leaves hg hinner hf, ?_⟩
  rw [Leaf.path, String.empty_append]

/-- The options of a leaf are flags of its schema. -/
theorem Sectioned.mem_flags (hs : Sectioned s) (hl : l ∈ s.leaves) {o : CommandOption}
    (ho : o ∈ Flags.ofType l.path l.field.1.help l.field.2) : o ∈ s.flags := by
  obtain ⟨g, hg, inner, hinner, hgroup, hf⟩ := hs.of_mem_leaves hl
  refine Flags.mem_ofFields_of_mem hg ?_
  rw [hinner.type, Schema.toType, Flags.ofType, String.empty_append]
  refine Flags.mem_ofFields_of_mem hf ?_
  rw [← hgroup]
  exact ho

end BootConfig
