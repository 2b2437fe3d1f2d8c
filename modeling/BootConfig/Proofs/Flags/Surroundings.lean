import BootConfig.Proofs.Flags.Order

/-!
# Names looked up in a running program

The names along a path are looked up one after the other, each in what the names before it have led
to. A running program holds more than settings: sections have attributes besides their fields, and
so have values and whatever an attribute holds. What these are is no matter of the schema, so it is
a parameter here.

* `Flags.Surroundings`: what else can be looked up.
* `Surroundings.reach?`: where names lead.
* `Surroundings.applyFlags`: all values laid at their paths, up to the first that is refused, or
  whose path ends behind something that has no fields.
* `Sectioned.applyFlags_eq`: where names lead to nothing but fields, this is `Schema.applyFlags`.
-/

namespace BootConfig

open Options (Assignments)

namespace Flags

/-! ## Where names lead -/

/-- What names can lead to in a running program. -/
inductive Place (Object : Type) where
  /-- A section of the settings, known by its path. -/
  | settings (path : List String)
  /-- A value that a setting holds, other than null. -/
  | value (v : Value)
  /-- Something that is neither. It has no fields. -/
  | object (o : Object)

/-- What can be looked up in a running program besides fields. -/
structure Surroundings where
  Object : Type
  /-- The kind of an object, in the words of the messages. -/
  kindName : Object → String
  /-- Where an attribute leads that is no field. One that holds null counts as missing. -/
  attribute? : Setting → Place Object → String → Option (Place Object)

/-- The last of the names along a path. -/
def lastName (path : String) : String := (names path).getLastD ""

namespace Surroundings

variable (r : Surroundings)

/-- What settings hold at a path, unless they hold null there. -/
def held? (config : Setting) (path : List String) : Option (Place r.Object) :=
  match config.at? path with
  | some (.group _ _) => some (.settings path)
  | some (.value v) => if (Setting.value v).isNull then none else some (.value v)
  | none => none

/-- Where a name leads from some place. Fields of a section come before its other attributes. -/
def step (s : Schema) (config : Setting) (place : Place r.Object) (name : String) :
    Option (Place r.Object) :=
  match place with
  | .settings path =>
    if (s.fieldAt? (path ++ [name])).isSome then r.held? config (path ++ [name])
    else r.attribute? config place name
  | _ => r.attribute? config place name

/-- Where names lead from the top of the settings. -/
def reach? (s : Schema) (config : Setting) (path : List String) : Option (Place r.Object) :=
  path.foldlM (r.step s config) (.settings [])

/-- The place in front of the last name of a path. -/
def front? (s : Schema) (config : Setting) (path : String) : Option (Place r.Object) :=
  r.reach? s config (names path).dropLast

/-- What a value laid at a path does. Its last name has to be that of a field in front of it. -/
def effect (s : Schema) (config : Setting) (a : String × Value) : Effect :=
  match r.front? s config a.1 with
  | none => .skipped
  | some (.settings path) =>
    .of config (path ++ [lastName a.1]) (s.checkAt? (path ++ [lastName a.1]) a.2)
  | some (.value v) => .noFields v.kindName
  | some (.object o) => .noFields (r.kindName o)

end Surroundings

/-! ## All values -/

/-- Lays values at their paths one after the other, if it is known what each of them does. -/
def run (effect : Setting → String × Value → Effect) (config : Setting) (done : Assignments) :
    Assignments → Application
  | [] => ⟨config, done, none⟩
  | a :: rest =>
    match effect config a with
    | .skipped => run effect config done rest
    | .assigned config => run effect config (done ++ [a]) rest
    | .refused issues => ⟨config, done, some (.refused issues)⟩
    | .noFields kind => ⟨config, done, some (.noFields kind)⟩

theorem applyEach_eq_run (s : Schema) (config : Setting) (done as : Assignments) :
    applyEach s config done as =
      run (fun config a => s.applyAt config a.2 (names a.1)) config done as := by
  induction as generalizing config done with
  | nil => rfl
  | cons a rest ih =>
    rw [applyEach, run]
    cases s.applyAt config a.2 (names a.1) with
    | skipped => exact ih config done
    | assigned config' => exact ih config' _
    | refused issues => rfl
    | noFields kind => rfl

section

variable {effect effect' : Setting → String × Value → Effect} {config : Setting}
  {done as : Assignments} {a : String × Value}

/-- Values behind others that do not stop. -/
theorem run_append (bs : Assignments) :
    run effect config done (as ++ bs) =
      let r := run effect config done as
      if r.stop.isSome then r else run effect r.config r.applied bs := by
  induction as generalizing config done with
  | nil => rfl
  | cons a rest ih =>
    rw [List.cons_append, run, run]
    cases effect config a with
    | skipped => exact ih
    | assigned config' => exact ih
    | refused issues => rfl
    | noFields kind => rfl

/-- What is applied has been given. -/
theorem mem_of_applied (h : a ∈ (run effect config done as).applied) : a ∈ done ∨ a ∈ as := by
  induction as generalizing config done with
  | nil => exact .inl h
  | cons b rest ih =>
    rw [run] at h
    cases heffect : effect config b with
    | skipped =>
      rw [heffect] at h
      exact (ih h).imp_right (List.mem_cons_of_mem b)
    | assigned config' =>
      rw [heffect] at h
      rcases ih h with hdone | hrest
      · rcases List.mem_append.mp hdone with hdone | hlast
        · exact .inl hdone
        · exact .inr (List.mem_singleton.mp hlast ▸ List.mem_cons_self)
      · exact .inr (List.mem_cons_of_mem b hrest)
    | refused issues =>
      rw [heffect] at h
      exact .inl h
    | noFields kind =>
      rw [heffect] at h
      exact .inl h

/-- What every value that is assigned keeps, all of them keep. -/
theorem run_keeps (Kind : Setting → Prop)
    (h : ∀ config a new, Kind config → effect config a = .assigned new → Kind new)
    (hconfig : Kind config) : Kind (run effect config done as).config := by
  induction as generalizing config done with
  | nil => exact hconfig
  | cons a rest ih =>
    rw [run]
    cases heffect : effect config a with
    | skipped => exact ih hconfig
    | assigned new => exact ih (h config a new hconfig heffect)
    | refused issues => exact hconfig
    | noFields kind => exact hconfig

/-- Effects that agree on settings of a kind, which they keep, come to the same. -/
theorem run_congr (Kind : Setting → Prop)
    (h : ∀ config a new, Kind config → effect config a = .assigned new → Kind new)
    (has : ∀ a ∈ as, ∀ config, Kind config → effect config a = effect' config a)
    (hconfig : Kind config) : run effect config done as = run effect' config done as := by
  induction as generalizing config done with
  | nil => rfl
  | cons a rest ih =>
    obtain ⟨ha, hrest⟩ := List.forall_mem_cons.mp has
    rw [run, run, ← ha config hconfig]
    cases heffect : effect config a with
    | skipped => exact ih hrest hconfig
    | assigned new => exact ih hrest (h config a new hconfig heffect)
    | refused issues => rfl
    | noFields kind => rfl

end

/-! ## The order of values -/

/-- Some of the values stand in the same order by themselves. -/
theorem sorted_filter {as : Assignments} (h : as.Distinct) (p : String × Value → Bool) :
    sorted (as.filter p) = (sorted as).filter p := by
  have hdistinct : Assignments.Distinct (as.filter p) :=
    h.sublist (List.filter_sublist.map Prod.fst)
  have hperm : (sorted (as.filter p)).Perm ((sorted as).filter p) :=
    (sorted_perm _).trans ((sorted_perm as).filter p).symm
  refine hperm.eq_of_pairwise (fun a b _ _ hab hba => ?_) (sorted_ascends hdistinct)
    ((sorted_ascends h).filter p)
  exact (String.lt_asymm hab hba).elim

/-- A value stands behind those with lesser paths and in front of the others. -/
theorem sorted_split {as : Assignments} (h : as.Distinct) {a : String × Value} (ha : a ∈ as) :
    ∃ after, sorted as = sorted (as.filter fun b => b.1 < a.1) ++ a :: after ∧
      sorted (as.filter fun b => b.1 ≠ a.1) = sorted (as.filter fun b => b.1 < a.1) ++ after := by
  obtain ⟨before, after, hsplit⟩ := List.append_of_mem ((sorted_perm as).mem_iff.mpr ha)
  have hascend := sorted_ascends h
  rw [hsplit] at hascend
  obtain ⟨_, hrest, hless⟩ := List.pairwise_append.mp hascend
  have hbefore : ∀ b ∈ before, b.1 < a.1 := fun b hb => hless b hb a List.mem_cons_self
  have hafter : ∀ b ∈ after, a.1 < b.1 := (List.pairwise_cons.mp hrest).1
  have hlesser : sorted (as.filter fun b => b.1 < a.1) = before := by
    rw [sorted_filter h, hsplit, List.filter_append, List.filter_cons_of_neg (by simp),
      List.filter_eq_self.mpr fun b hb => decide_eq_true (hbefore b hb),
      List.filter_eq_nil_iff.mpr fun b hb => by simpa using String.lt_asymm (hafter b hb),
      List.append_nil]
  have hothers : sorted (as.filter fun b => b.1 ≠ a.1) = before ++ after := by
    rw [sorted_filter h, hsplit, List.filter_append, List.filter_cons_of_neg (by simp),
      List.filter_eq_self.mpr fun b hb => decide_eq_true (String.ne_of_lt (hbefore b hb)),
      List.filter_eq_self.mpr fun b hb => decide_eq_true (String.ne_of_lt (hafter b hb)).symm]
  exact ⟨after, by rw [hlesser, hsplit], by rw [hothers, hlesser]⟩

/-- The names along a path are those in front of the last one, and that one. -/
theorem dropLast_names (path : String) : (names path).dropLast ++ [lastName path] = names path := by
  have hne : names path ≠ [] := by simp [names, segments_ne_nil]
  rw [lastName, List.getLastD_eq_getLast?, List.getLast?_eq_some_getLast hne]
  exact List.dropLast_append_getLast hne

end Flags

/-! ## Names behind leaves -/

/-- A path leads one name further than a leaf that holds a value other than null. -/
def Schema.LeadsBehind (s : Schema) (config : Setting) (path : List String) (v : Value) : Prop :=
  ∃ l ∈ s.leaves, ∃ name, path = [l.group, l.field.1.name, name] ∧
    config.leaf? l = some (.value v) ∧ (Setting.value v).isNull = false

theorem IsLeaf.groupNamed?_eq_none {t : FieldType} (h : IsLeaf t) (name : String) :
    t.groupNamed? name = none := by
  cases h <;> rfl

theorem Flags.beyond_singleton {v : Value} (h : (Setting.value v).isNull = false) (name : String) :
    beyond v [name] = .noFields v.kindName := by
  unfold Setting.isNull Setting.scalar? at h
  unfold beyond
  cases hview : v.view with
  | scalar x => cases x <;> simp_all
  | _ => rfl

/-- Behind null nothing is found, and neither is anything two names further. -/
theorem Flags.beyond_eq_skipped {v : Value} {name : String} {path : List String}
    (h : (Setting.value v).isNull = false → path ≠ []) : beyond v (name :: path) = .skipped := by
  cases hnull : (Setting.value v).isNull with
  | true =>
    unfold beyond
    rw [Setting.view_of_isNull hnull]
  | false =>
    obtain ⟨next, path, rfl⟩ := List.exists_cons_of_ne_nil (h hnull)
    unfold beyond
    split
    · rfl
    · rename_i heq _
      cases heq
    · rfl

section

variable {s : Schema} {config : Setting} {path : List String} {v w : Value}

/-- What complete settings hold for a section is a group that has all its fields. -/
theorem Setting.IsComplete.group (h : config.IsComplete s) {name : String} {g : Field}
    (hg : s.field? name = some g) :
    ∃ inner parts, IsSection g inner ∧ config.get? name = some (.group inner.name parts) ∧
      ∀ x f, inner.field? x = some f →
        ∃ leaf, (Setting.group inner.name parts).get? x = some leaf := by
  obtain ⟨part, hpart, inner, hinner, hfields⟩ := h.get? hg
  obtain ⟨parts, rfl, _⟩ := id hfields
  refine ⟨inner, parts, hinner, hpart, fun x f hf => ?_⟩
  obtain ⟨leaf, hleaf, _⟩ := hfields.get? hf
  exact ⟨leaf, hleaf⟩

/-- A value laid below a section is laid in it. -/
theorem Schema.applyAt_section {name next : String} {g : Field} {inner : Schema}
    {parts : List (String × Setting)} (hg : s.field? name = some g) (hinner : IsSection g inner)
    (hpart : config.get? name = some (.group inner.name parts)) :
    s.applyAt config w (name :: next :: path) =
      (inner.applyAt (.group inner.name parts) w (next :: path)).inside (config.put name) := by
  conv_lhs => unfold Schema.applyAt
  rw [hg, hpart]
  simp only [hinner.type, groupNamed?_toType]

/-- A value is passed over if its path leads to no field, unless it leads behind a leaf that holds
something. -/
theorem Setting.IsComplete.applyAt_unknown (hconfig : config.IsComplete s)
    (hunknown : s.fieldAt? path = none) (h : ∀ v, ¬ s.LeadsBehind config path v) :
    s.applyAt config w path = .skipped := by
  match path with
  | [] => rfl
  | [name] =>
    have hnone : s.field? name = none := hunknown
    rw [Schema.applyAt, hnone]
    rfl
  | name :: next :: path =>
    cases hg : s.field? name with
    | none =>
      rw [Schema.applyAt, hg]
      exact List.cons_ne_nil _ _
    | some g =>
      obtain ⟨inner, parts, hinner, hpart, hleaves⟩ := hconfig.group hg
      have hsection : g.2.section? = some inner := by
        rw [hinner.type]
        rfl
      rw [Schema.fieldAt?_cons hg hsection (List.cons_ne_nil _ _)] at hunknown
      rw [Schema.applyAt_section hg hinner hpart]
      suffices hskipped : inner.applyAt (.group inner.name parts) w (next :: path) = .skipped by
        rw [hskipped]
        rfl
      cases hf : inner.field? next with
      | none =>
        cases path with
        | nil =>
          rw [Schema.applyAt, hf]
          rfl
        | cons _ _ =>
          rw [Schema.applyAt, hf]
          exact List.cons_ne_nil _ _
      | some f =>
        obtain ⟨leaf, hleaf⟩ := hleaves next f hf
        obtain ⟨last, path, rfl⟩ := List.exists_cons_of_ne_nil
          (show path ≠ [] by rintro rfl; rw [Schema.fieldAt?, hf] at hunknown; cases hunknown)
        rw [Schema.applyAt, hf, hleaf]
        · cases leaf with
          | group n _ =>
            have hmem := List.mem_of_find?_eq_some hf
            simp only [(hinner.leaf f hmem).groupNamed?_eq_none]
          | value held =>
            refine Flags.beyond_eq_skipped fun hset => ?_
            rintro rfl
            obtain rfl := Schema.name_of_field? hg
            obtain rfl := Schema.name_of_field? hf
            refine h held ⟨⟨g.1.name, f⟩, ?_, last, rfl, ?_, hset⟩
            · exact Sectioned.mem_leaves (List.mem_of_find?_eq_some hg) hinner
                (List.mem_of_find?_eq_some hf)
            · rw [Setting.leaf?, hpart]
              exact hleaf
        · exact List.cons_ne_nil _ _

namespace Sectioned

/-- A value cannot be laid behind a leaf that holds something. -/
theorem applyAt_behind (hs : Sectioned s) (hconfig : config.IsComplete s)
    (h : s.LeadsBehind config path v) : s.applyAt config w path = .noFields v.kindName := by
  obtain ⟨l, hl, name, rfl, hleaf, hset⟩ := h
  obtain ⟨g, hg, inner, hinner, hgroup, hf⟩ := hs.of_mem_leaves hl
  have hfield := field?_of_mem hs.distinct hg
  rw [← hgroup] at hfield
  obtain ⟨inner', parts, hinner', hpart, _⟩ := hconfig.group hfield
  obtain rfl := hinner.unique hinner'
  rw [Setting.leaf?, hpart, Option.bind_some] at hleaf
  rw [Schema.applyAt_section hfield hinner hpart, Schema.applyAt, field?_of_mem hinner.distinct hf,
    hleaf]
  · simp only [Flags.beyond_singleton hset]
    rfl
  · exact List.cons_ne_nil _ _

end Sectioned

/-! ## Names that no attribute has -/

namespace Flags.Surroundings

variable {r : Surroundings} {name : String} {place : Place r.Object}

/-- No attribute has a name, wherever it is looked up. -/
def Lacks (r : Surroundings) (name : String) : Prop :=
  ∀ config place, r.attribute? config place name = none

theorem reach?_append (path : List String) : r.reach? s config (path ++ [name]) =
    (r.reach? s config path).bind fun place => r.step s config place name := by
  simp [reach?, List.foldlM_append]

theorem step_section : r.step s config (.settings path) name =
    if (s.fieldAt? (path ++ [name])).isSome then r.held? config (path ++ [name])
    else r.attribute? config (.settings path) name := rfl

theorem held?_eq_some (h : r.held? config path = some place) :
    place = .settings path ∨
      ∃ v, config.at? path = some (.value v) ∧ (Setting.value v).isNull = false ∧
        place = .value v := by
  unfold held? at h
  split at h
  · cases h
    exact .inl rfl
  · split at h
    · cases h
    · rename_i v hv hnull
      cases h
      exact .inr ⟨v, hv, eq_false_of_ne_true hnull, rfl⟩
  · cases h

/-- Names that no attribute has lead to sections along their path, and to values that leaves hold.
The induction is on the names, from the last one. -/
theorem reach?_cases (hs : Sectioned s) (hconfig : config.IsComplete s)
    (hlacks : ∀ name ∈ path, r.Lacks name) (h : r.reach? s config path = some place) :
    place = .settings path ∨ ∃ l ∈ s.leaves, ∃ v, path = [l.group, l.field.1.name] ∧
      config.leaf? l = some (.value v) ∧ (Setting.value v).isNull = false ∧ place = .value v := by
  induction path using List.reverseRecOn generalizing place with
  | nil =>
    cases h
    exact .inl rfl
  | append_singleton path name ih =>
    obtain ⟨hpath, hname⟩ := List.forall_mem_append.mp hlacks
    have hname := hname name (List.mem_singleton_self name)
    rw [reach?_append] at h
    obtain ⟨front, hfront, hstep⟩ := Option.bind_eq_some_iff.mp h
    rcases ih hpath hfront with rfl | ⟨_, _, v, _, _, _, rfl⟩
    · rw [step_section] at hstep
      split at hstep
      · rename_i hfield
        rcases held?_eq_some hstep with rfl | ⟨v, hv, hset, rfl⟩
        · exact .inl rfl
        · -- a value is held by a leaf, because sections are groups
          obtain ⟨f, hf⟩ := Option.isSome_iff_exists.mp hfield
          obtain ⟨inner, hnames, hf, _⟩ | ⟨g, inner, hnames, hg, hinner, hf⟩ :=
            hs.fieldAt?_cases hf
          · obtain ⟨_, _, _, hpart, _⟩ := hconfig.group hf
            rw [hnames, Setting.at?, hpart] at hv
            cases hv
          · refine .inr ⟨⟨g.1.name, f⟩, ?_, v, hnames, ?_, hset, rfl⟩
            · exact Sectioned.mem_leaves (List.mem_of_find?_eq_some hg) hinner
                (List.mem_of_find?_eq_some hf)
            · rw [Setting.leaf?_eq_at?, ← hnames]
              exact hv
      · rw [hname] at hstep
        cases hstep
    · have hnone : r.step s config (.value v) name = none := hname config _
      rw [hnone] at hstep
      cases hstep

/-- The name of a section leads to it. -/
theorem reach?_section (hconfig : config.IsComplete s) {g : Field} (hg : s.field? name = some g) :
    r.reach? s config [name] = some (.settings [name]) := by
  obtain ⟨inner, parts, _, hpart, _⟩ := hconfig.group hg
  have hfield : (s.fieldAt? ([] ++ [name])).isSome = true := by
    rw [List.nil_append, Schema.fieldAt?, hg]
    rfl
  show (r.step s config (.settings []) name).bind some = _
  rw [step_section, if_pos hfield, held?, List.nil_append, Setting.at?, hpart]
  rfl

/-- A leaf that holds something leads to its value. -/
theorem reach?_leaf (hs : Sectioned s) (hconfig : config.IsComplete s) {l : Leaf}
    (hl : l ∈ s.leaves) (hleaf : config.leaf? l = some (.value v))
    (hset : (Setting.value v).isNull = false) :
    r.reach? s config [l.group, l.field.1.name] = some (.value v) := by
  have hpath := hs.fieldAt?_leaf hl
  rw [hs.names_path hl] at hpath
  obtain ⟨g, hg, _, _, hgroup, _⟩ := hs.of_mem_leaves hl
  have hfield := field?_of_mem hs.distinct hg
  rw [← hgroup] at hfield
  have hheld : r.held? config [l.group, l.field.1.name] = some (.value v) := by
    rw [held?, ← Setting.leaf?_eq_at?, hleaf]
    simp [hset]
  have happend : r.reach? s config ([l.group] ++ [l.field.1.name]) = _ := reach?_append _
  rw [reach?_section hconfig hfield, Option.bind_some, step_section, List.singleton_append, hpath,
    hheld] at happend
  exact happend

/-! ### The place in front of the last name -/

theorem front?_behind (hs : Sectioned s) (hconfig : config.IsComplete s) {p : String}
    (h : s.LeadsBehind config (names p) v) : r.front? s config p = some (.value v) := by
  obtain ⟨l, hl, name, hnames, hleaf, hset⟩ := h
  rw [front?, hnames]
  exact reach?_leaf hs hconfig hl hleaf hset

/-- If no attribute has one of the names in front of the last one, they lead nowhere, to a section
along their path, or to the value of a leaf. -/
theorem front?_cases (hs : Sectioned s) (hconfig : config.IsComplete s) {p : String}
    (hlacks : ∀ name ∈ (names p).dropLast, r.Lacks name) :
    r.front? s config p = none ∨ r.front? s config p = some (.settings (names p).dropLast) ∨
      ∃ v, s.LeadsBehind config (names p) v ∧ r.front? s config p = some (.value v) := by
  cases hfront : r.front? s config p with
  | none => exact .inl rfl
  | some place =>
    rcases reach?_cases hs hconfig hlacks hfront with rfl | ⟨l, hl, v, hnames, hleaf, hset, rfl⟩
    · exact .inr (.inl rfl)
    · refine .inr (.inr ⟨v, ⟨l, hl, lastName p, ?_, hleaf, hset⟩, rfl⟩)
      rw [← dropLast_names, hnames]
      rfl

/-! ### Effects -/

variable {a : String × Value}

theorem effect_of_none (h : r.front? s config a.1 = none) : r.effect s config a = .skipped := by
  rw [effect, h]

theorem effect_of_section (h : r.front? s config a.1 = some (.settings path)) :
    r.effect s config a =
      .of config (path ++ [lastName a.1]) (s.checkAt? (path ++ [lastName a.1]) a.2) := by
  rw [effect, h]

theorem effect_of_value (h : r.front? s config a.1 = some (.value v)) :
    r.effect s config a = .noFields v.kindName := by
  rw [effect, h]

theorem effect_of_object {o : r.Object} (h : r.front? s config a.1 = some (.object o)) :
    r.effect s config a = .noFields (r.kindName o) := by
  rw [effect, h]

/-- Where no attribute has one of the names in front of the last one, a value does what it does
without surroundings. -/
theorem effect_eq_applyAt (hs : Sectioned s) (hconfig : config.IsComplete s)
    (hlacks : ∀ name ∈ (names a.1).dropLast, r.Lacks name) :
    r.effect s config a = s.applyAt config a.2 (names a.1) := by
  cases hfield : s.fieldAt? (names a.1) with
  | some f =>
    have hfront : r.front? s config a.1 = some (.settings (names a.1).dropLast) := by
      obtain ⟨_, hnames, _, _⟩ | ⟨g, _, hnames, hg, _, _⟩ := hs.fieldAt?_cases hfield
      · rw [front?, hnames]
        rfl
      · rw [front?, hnames]
        exact reach?_section hconfig hg
    rw [effect_of_section hfront, dropLast_names, (hs.reaches hconfig hfield).applyAt,
      Schema.checkAt?, hfield]
    rfl
  | none =>
    rcases front?_cases hs hconfig hlacks with hfront | hfront | ⟨v, hbehind, hfront⟩
    · rw [effect_of_none hfront, hconfig.applyAt_unknown hfield fun v hbehind => ?_]
      rw [front?_behind hs hconfig hbehind] at hfront
      cases hfront
    · rw [effect_of_section hfront, dropLast_names, Schema.checkAt?, hfield,
        hconfig.applyAt_unknown hfield fun v hbehind => ?_]
      · rfl
      · rw [front?_behind hs hconfig hbehind] at hfront
        cases hfront
    · rw [effect_of_value hfront, hs.applyAt_behind hconfig hbehind]

/-- Whatever a value does, complete settings stay complete. -/
theorem isComplete_effect (hs : Sectioned s) (hconfig : config.IsComplete s) {new : Setting}
    (h : r.effect s config a = .assigned new) : new.IsComplete s := by
  cases hfront : r.front? s config a.1 with
  | none =>
    rw [effect_of_none hfront] at h
    cases h
  | some place =>
    cases place with
    | value v =>
      rw [effect_of_value hfront] at h
      cases h
    | object o =>
      rw [effect_of_object hfront] at h
      cases h
    | settings path =>
      rw [effect_of_section hfront, Schema.checkAt?] at h
      cases hfield : s.fieldAt? (path ++ [lastName a.1]) with
      | none =>
        rw [hfield] at h
        cases h
      | some f =>
        rw [hfield, Option.map_some] at h
        cases hcheck : f.check (.value a.2) with
        | error issues =>
          rw [hcheck] at h
          cases h
        | ok part =>
          rw [hcheck] at h
          cases h
          exact hs.isComplete_putAt hconfig hfield hcheck

/-! ## All values -/

/-- Lays all given values at their paths, in the order of the paths, in a running program. -/
def applyFlags (r : Surroundings) (s : Schema) (config : Setting) (as : Assignments) :
    Application :=
  run (r.effect s) config [] (sorted as)

end Flags.Surroundings

/-- Values whose names lead to no attribute do what they do without surroundings. -/
theorem Sectioned.applyFlags_eq (hs : Sectioned s) (hconfig : config.IsComplete s)
    {r : Flags.Surroundings} {as : Assignments}
    (hlacks : ∀ a ∈ as, ∀ name ∈ (Flags.names a.1).dropLast, r.Lacks name) :
    r.applyFlags s config as = s.applyFlags config as := by
  refine Eq.trans ?_ (Flags.applyEach_eq_run s config [] (Flags.sorted as)).symm
  refine Flags.run_congr (fun config => config.IsComplete s)
    (fun _ _ _ hconfig h => Flags.Surroundings.isComplete_effect hs hconfig h)
    (fun a ha config hconfig => ?_) hconfig
  exact Flags.Surroundings.effect_eq_applyAt hs hconfig
    (hlacks a ((Flags.sorted_perm as).mem_iff.mp ha))

end

end BootConfig
