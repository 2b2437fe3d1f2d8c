import BootConfig.Load.File
import BootConfig.Proofs.Schema.Assign

/-!
# Documents laid over settings

A document that is absorbed changes the leaves whose keys it contains, and no others.

* `Sectioned.absorb`: one document over default settings.
* `Load.document?`: the document that a load takes in, and `Sectioned.load` for the whole load.
-/

namespace BootConfig

variable {s : Schema} {l : Leaf}

/-! ## Settings as mappings -/

theorem get?_fieldValues {fs : List (String × Setting)} {es : Entries} {name : String}
    {st : Setting} (h : Setting.fieldValues? fs = some es) (hname : fs.lookup name = some st) :
    ∃ v, st.toValue? = some v ∧ Entries.get? es (.text (Text.ofString name)) = some v := by
  induction fs generalizing es with
  | nil => cases hname
  | cons f rest ih =>
    obtain ⟨key, first⟩ := f
    rw [Setting.fieldValues?] at h
    split at h
    · rename_i v es' hv hes'
      cases h
      rw [List.lookup_cons] at hname
      cases hkey : name == key with
      | true =>
        rw [hkey] at hname
        cases hname
        refine ⟨v, hv, ?_⟩
        rw [Entries.get?_cons, eq_of_beq hkey, if_pos (Scalar.sameKey_text.mpr rfl)]
      | false =>
        rw [hkey] at hname
        obtain ⟨w, hw, hget⟩ := ih hes' hname
        refine ⟨w, hw, ?_⟩
        rw [Entries.get?_cons, if_neg, hget]
        intro hsame
        have htext := Scalar.sameKey_text.mp hsame
        injection htext with htext
        exact absurd (Text.ofString_injective htext).symm (beq_eq_false_iff_ne.mp hkey)
    · cases h

/-- The leaf of a group of groups, in the mapping that the settings are. -/
theorem leaf?_toValue {config leaf : Setting} {base : Entries} {v : Value}
    (h : config.toValue?.bind Value.entries? = some base) (hv : leaf.toValue? = some v)
    (hleaf : config.leaf? l = some leaf) :
    ∃ inner, Entries.get? base (.text (Text.ofString l.group)) = some (.map inner) ∧
      Entries.get? inner l.field.1.key = some v := by
  obtain ⟨st, hst, hfield⟩ := Option.bind_eq_some_iff.mp hleaf
  cases config with
  | value w => cases hst
  | group n fs =>
    cases st with
    | value w => cases hfield
    | group m gs =>
      rw [Setting.toValue?] at h
      obtain ⟨w, hw, hbase⟩ := Option.bind_eq_some_iff.mp h
      obtain ⟨es, hes, rfl⟩ := Option.map_eq_some_iff.mp hw
      cases hbase
      obtain ⟨u, hu, hget⟩ := get?_fieldValues hes hst
      rw [Setting.toValue?] at hu
      obtain ⟨inner, hinner, rfl⟩ := Option.map_eq_some_iff.mp hu
      obtain ⟨x, hx, hgetInner⟩ := get?_fieldValues hinner hfield
      rw [hv] at hx
      cases hx
      exact ⟨inner, hget, hgetInner⟩

/-! ## Leaves of an overlay -/

/-- A leaf that is a plain value below gets the value under its key above, if there is one and its
section is still a mapping. -/
theorem leaf?_overlay {base upper inner : Entries} {d : Value}
    (hbase : Entries.get? base (.text (Text.ofString l.group)) = some (.map inner))
    (hinner : Entries.get? inner l.field.1.key = some d)
    (hplain : ∀ upper, Value.overlay d upper = upper)
    (hmapping : ∀ v, Entries.get? (Entries.overlay base upper) (.text (Text.ofString l.group)) =
      some v → v.entries?.isSome = true) :
    (Entries.overlay base upper).leaf? l = some ((upper.leaf? l).getD d) := by
  rw [Entries.get?_overlay hbase] at hmapping
  have hmapping := hmapping _ rfl
  unfold Entries.leaf?
  rw [Entries.get?_overlay hbase, Option.bind_some]
  unfold Entries.laid at hmapping ⊢
  cases hupper : Entries.get? upper (.text (Text.ofString l.group)) with
  | none => exact hinner
  | some u =>
    rw [hupper] at hmapping
    simp only [Value.overlay] at hmapping ⊢
    cases hu : u.entries? with
    | none =>
      simp [hu] at hmapping
    | some up =>
      rw [Option.bind_some, hu]
      show Entries.get? (Entries.overlay inner up) l.field.1.key =
        some ((Entries.get? up l.field.1.key).getD d)
      rw [Entries.get?_overlay hinner, Entries.laid]
      cases Entries.get? up l.field.1.key with
      | none => rfl
      | some w => exact congrArg some (hplain w)

/-! ## Committing -/

/-- Fields that settings hold in the form that their own checks give them. -/
def Holds (s : Schema) (checked : Setting) (g : Field) : Prop :=
  s.field? g.1.name = some g ∧ ∃ st, checked.get? g.1.name = some st ∧ g.check st = .ok st

theorem commitFields_cons {target checked : Setting} {g : Field} {rest : List Field}
    (hg : Holds s checked g) (h : (s.commitFields target checked (g :: rest)).2 = none) :
    ∃ st, checked.get? g.1.name = some st ∧ s.commitFields target checked (g :: rest) =
      s.commitFields (target.put g.1.name st) checked rest := by
  obtain ⟨hfield, st, hst, hcheck⟩ := hg
  rw [Schema.commitFields, hst] at h ⊢
  simp only at h ⊢
  split at h
  · rename_i config hassign
    obtain ⟨v, hv, rfl⟩ := Schema.assign_eq_ok hfield hassign
    rw [hcheck] at hv
    cases hv
    exact ⟨st, rfl, rfl⟩
  · cases h

/-- Fields that are not committed stay as they are. -/
theorem get?_commitFields_of_ne {target checked : Setting} {fields : List Field}
    (hfields : ∀ g ∈ fields, Holds s checked g)
    (h : (s.commitFields target checked fields).2 = none) {q : String}
    (hq : ∀ g ∈ fields, q ≠ g.1.name) :
    (s.commitFields target checked fields).1.get? q = target.get? q := by
  induction fields generalizing target with
  | nil => rfl
  | cons g rest ih =>
    obtain ⟨st, _, hcons⟩ := commitFields_cons (hfields g List.mem_cons_self) h
    rw [hcons] at h ⊢
    rw [ih (fun g hg => hfields g (List.mem_cons_of_mem _ hg)) h
      (fun g hg => hq g (List.mem_cons_of_mem _ hg))]
    exact Setting.get?_put_of_ne _ _ (hq g List.mem_cons_self)

/-- Committed fields hold what the checked settings hold for them. -/
theorem get?_commitFields {target checked : Setting} {fields : List Field}
    (hnames : (fields.map fun g => g.1.name).Nodup) (hfields : ∀ g ∈ fields, Holds s checked g)
    (h : (s.commitFields target checked fields).2 = none) {g : Field} (hg : g ∈ fields)
    (hold : (target.get? g.1.name).isSome = true) :
    (s.commitFields target checked fields).1.get? g.1.name = checked.get? g.1.name := by
  induction fields generalizing target with
  | nil => cases hg
  | cons f rest ih =>
    obtain ⟨hnot, hrest⟩ := List.nodup_cons.mp hnames
    obtain ⟨st, hst, hcons⟩ := commitFields_cons (hfields f List.mem_cons_self) h
    have hfields' := fun g hg => hfields g (List.mem_cons_of_mem _ hg)
    rw [hcons] at h ⊢
    have hne : ∀ g ∈ rest, f.1.name ≠ g.1.name := fun g hg =>
      beq_eq_false_iff_ne.mp (beq_name_eq_false hnot hg)
    rcases List.mem_cons.mp hg with rfl | hg
    · obtain ⟨old, hold⟩ := Option.isSome_iff_exists.mp hold
      rw [get?_commitFields_of_ne hfields' h hne, Setting.get?_put_self st hold, hst]
    · refine ih hrest hfields' h hg ?_
      rwa [Setting.get?_put_of_ne _ _ (hne g hg).symm]

/-! ## Absorbing a document -/

/-- Every section is committed as it has been checked. -/
theorem Sectioned.get?_commitFields (hs : Sectioned s) {config checked : Setting} {es : Entries}
    (hchecked : s.check (.map es) = .ok checked) (hconfig : config.InSections s)
    (h : (s.commitFields config checked s.fields).2 = none) :
    ∀ g ∈ s.fields,
      (s.commitFields config checked s.fields).1.get? g.1.name = checked.get? g.1.name := by
  -- a section that has been checked with the whole is its own check
  have hholds : ∀ g ∈ s.fields, Holds s checked g := by
    intro g hg
    obtain ⟨inner, hinner⟩ := hs.sections g hg
    obtain ⟨gs, hgs⟩ := hs.inSections hchecked g hg inner hinner
    refine ⟨field?_of_mem hs.distinct hg, _, hgs, ?_⟩
    rw [hinner.check_eq]
    exact check_checked_group _ _ _
  intro g hg
  obtain ⟨inner, hinner⟩ := hs.sections g hg
  obtain ⟨gs, hgs⟩ := hconfig g hg inner hinner
  exact BootConfig.get?_commitFields hs.distinct hholds h hg (by rw [hgs]; rfl)

/-- Every leaf is committed as it has been checked. -/
theorem Sectioned.leaf?_commit (hs : Sectioned s) {config checked : Setting} {es : Entries}
    (hchecked : s.check (.map es) = .ok checked) (hconfig : config.InSections s)
    (h : (s.commit config checked).2 = none) :
    ∀ l ∈ s.leaves, (s.commit config checked).1.leaf? l = checked.leaf? l := by
  intro l hl
  obtain ⟨g, hg, _, _, hgroup, _⟩ := hs.of_mem_leaves hl
  unfold Setting.leaf? Schema.commit
  rw [hgroup, hs.get?_commitFields hchecked hconfig h g hg]

/-- Checked as a whole, a document over settings gives each leaf what the check of its field makes
of the value under its key, or else of the value that the settings hold. -/
theorem Sectioned.leaf?_checkOverlay (hs : Sectioned s) {config checked leaf : Setting}
    {base upper : Entries} {v : Value}
    (hbase : config.toValue?.bind Value.entries? = some base)
    (hchecked : s.check (.map (Entries.overlay base upper)) = .ok checked) (hl : l ∈ s.leaves)
    (hleaf : config.leaf? l = some leaf) (hv : leaf.toValue? = some v)
    (hplain : ∀ upper, Value.overlay v upper = upper) :
    ∃ new, checked.leaf? l = some new ∧
      l.field.check (.value ((upper.leaf? l).getD v)) = .ok new := by
  obtain ⟨inner, hsection, hfield⟩ := leaf?_toValue hbase hv hleaf
  obtain ⟨w, new, hw, hcheck, hnew⟩ := hs.leaf?_check hchecked hl
  rw [leaf?_overlay hsection hfield hplain fun u hu => hs.isSome_entries_check hchecked hl hu] at hw
  cases hw
  exact ⟨new, hnew, hcheck⟩

/-- Checked as a whole, a document over default settings changes the leaves that it has keys for. -/
theorem Sectioned.takes_check (hs : Sectioned s) {config checked : Setting} {base upper : Entries}
    (hdefaults : s.defaults = .ok config)
    (hbase : config.toValue?.bind Value.entries? = some base)
    (hchecked : s.check (.map (Entries.overlay base upper)) = .ok checked) :
    ∀ l ∈ s.leaves, l.Takes (upper.leaf? l) config checked := by
  intro l hl
  obtain ⟨d, _, hsettled, htree, hplain, hleaf⟩ := hs.leaf?_defaults hdefaults hl
  obtain ⟨leaf, hnew, hcheck⟩ := hs.leaf?_checkOverlay hbase hchecked hl hleaf htree hplain
  refine ⟨leaf, hnew, ?_⟩
  cases hupper : upper.leaf? l with
  | some v =>
    rw [hupper] at hcheck
    exact hcheck
  | none =>
    -- the document is silent, and the default is its own check
    rw [hupper, Option.getD_none, hsettled] at hcheck
    cases hcheck
    exact hleaf

theorem Sectioned.absorb (hs : Sectioned s) {config config' : Setting} {upper : Entries}
    (path : String) (hdefaults : s.defaults = .ok config)
    (h : s.absorb path config upper = (config', none)) :
    config'.InSections s ∧ ∀ l ∈ s.leaves, l.Takes (upper.leaf? l) config config' := by
  unfold Schema.absorb at h
  split at h
  · cases h
  · rename_i base hbase
    split at h
    · cases h
    · rename_i checked hchecked
      obtain ⟨rfl, hnone⟩ := Prod.mk.inj h
      have hnone := Option.map_eq_none_iff.mp hnone
      have hget := hs.get?_commitFields hchecked (hs.inSections hdefaults) hnone
      refine ⟨fun g hg inner hinner => ?_, fun l hl => ?_⟩
      · rw [hget g hg]
        exact hs.inSections hchecked g hg inner hinner
      · obtain ⟨leaf, hleaf, htakes⟩ := hs.takes_check hdefaults hbase hchecked l hl
        exact ⟨leaf, (hs.leaf?_commit hchecked (hs.inSections hdefaults) hnone l hl).trans hleaf,
          htakes⟩

/-! ## A whole load -/

/-- The mapping that a load takes in: that of the document in the file, after expansion if it is
asked for. An empty document is none. -/
def Load.document? (files : FileTree) (env : Environment) (r : Load.Request) : Option Entries :=
  (Load.readFile files r.path).toOption.bind fun content =>
    (if r.expand then Placeholder.expand env content else .ok content).toOption.bind fun content =>
      (Yaml.Document.ofBytes .unique content).toOption.bind Value.entries?

theorem Sectioned.apply (hs : Sectioned s) {config config' : Setting} {path : String}
    {content : Bytes} {notices : List Notice} (hdefaults : s.defaults = .ok config)
    (h : Load.apply s path config content = (config', notices, none)) :
    config'.InSections s ∧ ∀ l ∈ s.leaves, l.Takes
      (((Yaml.Document.ofBytes .unique content).toOption.bind Value.entries?).bind (·.leaf? l))
      config config' := by
  unfold Load.apply at h
  split at h
  · cases h
  · cases h
  · rename_i v hv
    rw [hv]
    split at h
    · rename_i hnull
      cases h
      refine ⟨hs.inSections hdefaults, fun l hl => ?_⟩
      obtain ⟨d, _, _, _, _, hleaf⟩ := hs.leaf?_defaults hdefaults hl
      have hnone : v.entries? = none := by
        unfold Value.entries?
        rw [hnull]
      rw [Except.toOption, Option.bind_some, hnone]
      exact ⟨_, hleaf, hleaf⟩
    · rename_i upper hmap
      have hsome : v.entries? = some upper := by
        unfold Value.entries?
        rw [hmap]
      rw [Except.toOption, Option.bind_some, hsome]
      refine hs.absorb path hdefaults ?_
      obtain ⟨hconfig, hrest⟩ := Prod.mk.inj h
      exact Prod.ext hconfig (Prod.mk.inj hrest).2
    · cases h

theorem Sectioned.load (hs : Sectioned s) {files : FileTree} {env : Environment} {r : Load.Request}
    {config : Setting} {metric : Metric} {fingerprint : String}
    (hdefaults : s.defaults = .ok config)
    (h : (Load.run s files env r config metric).result = .ok fingerprint) :
    (Load.run s files env r config metric).config.InSections s ∧ ∀ l ∈ s.leaves,
      l.Takes ((Load.document? files env r).bind (·.leaf? l)) config
        (Load.run s files env r config metric).config := by
  unfold Load.run at h ⊢
  unfold Load.document?
  cases hread : Load.readFile files r.path with
  | error f =>
    rw [hread] at h
    cases h
  | ok content =>
    rw [hread] at h
    simp only at h ⊢
    cases hexpand : (if r.expand then Placeholder.expand env content else .ok content) with
    | error u =>
      rw [hexpand] at h
      cases h
    | ok content' =>
      rw [hexpand] at h
      rw [Except.toOption, Option.bind_some, hexpand]
      simp only at h ⊢
      split at h
      · cases h
      · rename_i config' notices happly
        exact hs.apply hdefaults happly

end BootConfig
