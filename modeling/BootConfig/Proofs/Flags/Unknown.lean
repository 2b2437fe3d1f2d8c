import BootConfig.Proofs.Flags.Surroundings

/-!
# Flags for no field

A path that leads to no field is passed over: whatever else is given comes to the same without it.
But what stands in front of its last name has to be a section, or nothing. Behind a value that is
set, or behind an attribute that is no section, the application stops, because these have no fields.

* `Surroundings.PassesOver`, `Surroundings.StopsAt`: what becomes of a path when its turn comes.
* `Surroundings.applyFlags_split`: what is given with less a path, the path, and the rest.
* `Ingester.applyFlags_unknown`: what a path to no field does among other values.
-/

namespace BootConfig

open Options (Assignments)

namespace Flags.Surroundings

variable {r : Surroundings} {s : Schema} {config : Setting} {p : String}

/-- The names in front of the last one lead nowhere, or to a section that has no such field. -/
def PassesOver (r : Surroundings) (s : Schema) (config : Setting) (p : String) : Prop :=
  ∀ place, r.front? s config p = some place →
    ∃ path, place = .settings path ∧ s.fieldAt? (path ++ [lastName p]) = none

/-- The names in front of the last one lead to something of a kind that has no fields. -/
def StopsAt (r : Surroundings) (s : Schema) (config : Setting) (p kind : String) : Prop :=
  (∃ v, r.front? s config p = some (.value v) ∧ v.kindName = kind) ∨
    ∃ o, r.front? s config p = some (.object o) ∧ r.kindName o = kind

/-- The names in front of the last one lead, by way of attributes, to a section that has a field of
the last name. -/
def Strays (r : Surroundings) (s : Schema) (config : Setting) (p : String) : Prop :=
  ∃ path f, r.front? s config p = some (.settings path) ∧ path ++ [lastName p] ≠ names p ∧
    s.fieldAt? (path ++ [lastName p]) = some f

instance : Decidable (r.PassesOver s config p) :=
  decidable_of_iff ((r.front? s config p).all fun
    | .settings path => (s.fieldAt? (path ++ [lastName p])).isNone
    | _ => false) (by
    rw [PassesOver]
    rcases r.front? s config p with _ | place
    · simp
    · cases place <;> simp)

theorem PassesOver.effect {a : String × Value} (h : r.PassesOver s config a.1) :
    r.effect s config a = .skipped := by
  cases hfront : r.front? s config a.1 with
  | none => exact effect_of_none hfront
  | some place =>
    obtain ⟨path, rfl, hfield⟩ := h place hfront
    rw [effect_of_section hfront, Schema.checkAt?, hfield]
    rfl

theorem StopsAt.effect {a : String × Value} {kind : String} (h : r.StopsAt s config a.1 kind) :
    r.effect s config a = .noFields kind := by
  rcases h with ⟨v, hfront, rfl⟩ | ⟨o, hfront, rfl⟩
  · exact effect_of_value hfront
  · exact effect_of_object hfront

/-- A path to no field is passed over or stops, if it does not stray. -/
theorem passesOver_or_stopsAt (hunknown : s.fieldAt? (names p) = none) :
    r.PassesOver s config p ∨ (∃ kind, r.StopsAt s config p kind) ∨ r.Strays s config p := by
  cases hfront : r.front? s config p with
  | none => exact .inl fun place hplace => by rw [hfront] at hplace; cases hplace
  | some place =>
    cases place with
    | value v => exact .inr (.inl ⟨_, .inl ⟨v, hfront, rfl⟩⟩)
    | object o => exact .inr (.inl ⟨_, .inr ⟨o, hfront, rfl⟩⟩)
    | settings path =>
      cases hfield : s.fieldAt? (path ++ [lastName p]) with
      | none =>
        refine .inl fun place hplace => ⟨path, ?_, hfield⟩
        rw [hfront] at hplace
        exact (Option.some.inj hplace).symm
      | some f =>
        refine .inr (.inr ⟨path, f, hfront, fun heq => ?_, hfield⟩)
        rw [heq, hunknown] at hfield
        cases hfield

/-- Where no attribute has one of the names in front of the last one, a path to no field is passed
over unless it leads behind a leaf that holds something. -/
theorem passesOver_iff (hs : Sectioned s) (hconfig : config.IsComplete s)
    (hunknown : s.fieldAt? (names p) = none) (hlacks : ∀ name ∈ (names p).dropLast, r.Lacks name) :
    r.PassesOver s config p ↔ ∀ v, ¬ s.LeadsBehind config (names p) v := by
  constructor
  · intro hpasses v hbehind
    obtain ⟨path, hplace, _⟩ := hpasses _ (front?_behind hs hconfig hbehind)
    cases hplace
  · intro hnot place hplace
    rcases front?_cases hs hconfig hlacks with hfront | hfront | ⟨v, hbehind, _⟩
    · rw [hfront] at hplace
      cases hplace
    · rw [hfront] at hplace
      exact ⟨_, (Option.some.inj hplace).symm, by rw [dropLast_names, hunknown]⟩
    · exact (hnot v hbehind).elim

/-! ## One value among others -/

variable {as : Assignments} {a : String × Value}

theorem isComplete_applyFlags (hs : Sectioned s) (hconfig : config.IsComplete s)
    (as : Assignments) : (r.applyFlags s config as).config.IsComplete s :=
  run_keeps (fun config => config.IsComplete s)
    (fun _ _ _ hconfig h => isComplete_effect hs hconfig h) hconfig

theorem not_mem_applied {q : String} (h : q ∉ as.map Prod.fst) :
    q ∉ (r.applyFlags s config as).applied.map Prod.fst := by
  intro hmem
  obtain ⟨b, hb, rfl⟩ := List.mem_map.mp hmem
  rcases mem_of_applied hb with hnil | hb
  · cases hnil
  · exact h (List.mem_map_of_mem ((sorted_perm as).mem_iff.mp hb))

/-- Values with lesser paths come first. If they stop, so do all values; and else the value comes
next, and the others after it. -/
theorem applyFlags_split (r : Surroundings) (s : Schema) (config : Setting)
    (hdistinct : as.Distinct) (ha : a ∈ as) :
    let before := r.applyFlags s config (as.filter fun b => b.1 < a.1)
    (before.stop.isSome = true ∧ r.applyFlags s config as = before ∧
      r.applyFlags s config (as.filter fun b => b.1 ≠ a.1) = before) ∨
    (before.stop = none ∧ ∃ after,
      r.applyFlags s config as = run (r.effect s) before.config before.applied (a :: after) ∧
      r.applyFlags s config (as.filter fun b => b.1 ≠ a.1) =
        run (r.effect s) before.config before.applied after) := by
  intro before
  obtain ⟨after, hall, hothers⟩ := sorted_split hdistinct ha
  have hbefore : before = run (r.effect s) config [] (sorted (as.filter fun b => b.1 < a.1)) := rfl
  rw [applyFlags, applyFlags, hall, hothers, run_append, run_append, ← hbefore]
  cases hstop : before.stop with
  | some stop => exact .inl ⟨rfl, by simp [hstop], by simp [hstop]⟩
  | none => exact .inr ⟨rfl, after, by simp [hstop], by simp [hstop]⟩

end Flags.Surroundings

namespace Ingester

open Flags (names)

/-- **A path that leads to no field is passed over, unless it leads behind something that has no
fields.** Let values be given for different paths, in a running program with attributes of any kind,
and let one of the paths lead to no field. When its turn comes, those with lesser paths have been
dealt with. If they have stopped, or if the names in front of its last one lead nowhere or to a
section that has no such field, then all values come to what they come to without this one, which
is not among those applied. If these names lead to a value or to something else that has no fields,
the application stops there and says so. The only other case is that attributes lead back to a
section, and then to a field of it. Where no attribute has one of the names, values do what
`Schema.applyFlags` does, and the path is passed over unless it leads one name further than a leaf
that holds something. -/
theorem applyFlags_unknown {r : Flags.Surroundings} {config : Setting}
    (hconfig : config.IsComplete schema) {as : Assignments} (hdistinct : as.Distinct)
    {a : String × Value} (ha : a ∈ as) (hunknown : schema.fieldAt? (names a.1) = none) :
    let before := r.applyFlags schema config (as.filter fun b => b.1 < a.1)
    let without := r.applyFlags schema config (as.filter fun b => b.1 ≠ a.1)
    let all := r.applyFlags schema config as
    (before.stop.isSome = true ∨ r.PassesOver schema before.config a.1 →
      all = without ∧ a.1 ∉ all.applied.map Prod.fst) ∧
    (∀ kind, before.stop = none → r.StopsAt schema before.config a.1 kind →
      all = ⟨before.config, before.applied, some (.noFields kind)⟩) ∧
    (r.PassesOver schema before.config a.1 ∨ (∃ kind, r.StopsAt schema before.config a.1 kind) ∨
      r.Strays schema before.config a.1) ∧
    ((∀ b ∈ as, ∀ name ∈ (names b.1).dropLast, r.Lacks name) →
      all = schema.applyFlags config as ∧
      (r.PassesOver schema before.config a.1 ↔
        ∀ v, ¬ schema.LeadsBehind before.config (names a.1) v)) := by
  intro before without all
  have hbefore : before.config.IsComplete schema :=
    Flags.Surroundings.isComplete_applyFlags sectioned hconfig _
  have habsent : a.1 ∉ without.applied.map Prod.fst :=
    Flags.Surroundings.not_mem_applied (by simp)
  refine ⟨fun h => ?_, fun kind hnone hstops => ?_,
    Flags.Surroundings.passesOver_or_stopsAt hunknown, fun hlacks => ⟨?_, ?_⟩⟩
  · suffices hsame : all = without from ⟨hsame, hsame ▸ habsent⟩
    obtain ⟨_, hall, hwithout⟩ | ⟨hnone, after, hall, hwithout⟩ :=
      Flags.Surroundings.applyFlags_split r schema config hdistinct ha
    · exact hall.trans hwithout.symm
    · have hpasses := h.resolve_left (by rw [hnone]; exact Bool.false_ne_true)
      rw [Flags.run, hpasses.effect] at hall
      exact hall.trans hwithout.symm
  · obtain ⟨hsome, _, _⟩ | ⟨_, after, hall, _⟩ :=
      Flags.Surroundings.applyFlags_split r schema config hdistinct ha
    · rw [hnone] at hsome
      cases hsome
    · rw [Flags.run, hstops.effect] at hall
      exact hall
  · exact sectioned.applyFlags_eq hconfig hlacks
  · exact Flags.Surroundings.passesOver_iff sectioned hbefore hunknown (hlacks a ha)

/-- Attributes that lead from a section to one of its methods, and from there back to the section.
-/
def methodSurroundings : Flags.Surroundings where
  Object := List String
  kindName _ := "method"
  attribute?
    | _, .settings path, name => if name = "model_dump" then some (.object path) else none
    | _, .object path, name => if name = "__self__" then some (.settings path) else none
    | _, .value _, _ => none

/-- Attributes lead to a section, but to none of its fields; null in front, a refused value behind.
-/
theorem applyFlags_unknown_attributes :
    let as : Assignments := [("log.file.x", .int 1), ("server.model_dump.__self__.nope", .int 2),
      ("storage.backend", .string "ftp")]
    ∃ config, schema.defaults = .ok config ∧ as.Distinct ∧
      schema.fieldAt? (names "server.model_dump.__self__.nope") = none ∧
      let all := methodSurroundings.applyFlags schema config as
      all = methodSurroundings.applyFlags schema config
          [("log.file.x", .int 1), ("storage.backend", .string "ftp")] ∧
        "server.model_dump.__self__.nope" ∉ all.applied.map Prod.fst := by
  intro as
  let a : String × Value := ("server.model_dump.__self__.nope", .int 2)
  have hchecked : (schema.defaults.toOption.any fun config =>
      let before := Flags.run (methodSurroundings.effect schema) config [] [("log.file.x", .int 1)]
      decide (methodSurroundings.PassesOver schema before.config a.1)) = true := by
    decide +kernel
  obtain ⟨config, hdefaults, hpasses⟩ := (Option.any_eq_true ..).mp hchecked
  have hdefaults := eq_ok_of_toOption hdefaults
  have hconfig : config.IsComplete schema :=
    (sectioned.settled_check exact hdefaults).isComplete
  have hdistinct : as.Distinct := by
    show (as.map Prod.fst).Nodup
    decide
  have hunknown : schema.fieldAt? (names a.1) = none := by decide +kernel
  have hearlier : as.filter (fun b => b.1 < a.1) = [("log.file.x", .int 1)] := by
    rw [List.filter_cons_of_pos (by decide +kernel), List.filter_cons_of_neg (by decide +kernel),
      List.filter_cons_of_neg (by decide +kernel), List.filter_nil]
  have hbefore : methodSurroundings.applyFlags schema config (as.filter fun b => b.1 < a.1) =
      Flags.run (methodSurroundings.effect schema) config [] [("log.file.x", .int 1)] := by
    rw [hearlier, Flags.Surroundings.applyFlags, Flags.sorted, List.mergeSort_singleton]
  refine ⟨config, hdefaults, hdistinct, hunknown, ?_⟩
  refine (applyFlags_unknown hconfig hdistinct (a := a) (by simp [as, a]) hunknown).1 (.inr ?_)
  rw [hbefore]
  exact of_decide_eq_true hpasses

/-- The level of the log is text, and text has no fields. -/
theorem applyFlags_behind_level :
    ∃ config, schema.defaults = .ok config ∧ schema.fieldAt? (names "log.level.x") = none ∧
      schema.applyFlags config [("log.level.x", .int 1)] =
        ⟨config, [], some (.noFields "str")⟩ := by
  have hchecked : (schema.defaults.toOption.any fun config =>
      match schema.applyAt config (.int 1) (names "log.level.x") with
      | .noFields kind => kind == "str"
      | _ => false) = true := by
    decide +kernel
  obtain ⟨config, hdefaults, hstops⟩ := (Option.any_eq_true ..).mp hchecked
  refine ⟨config, eq_ok_of_toOption hdefaults, by decide +kernel, ?_⟩
  rw [Schema.applyFlags, List.mergeSort_singleton, Flags.applyEach]
  split at hstops
  · rename_i kind hkind
    rw [hkind, ← eq_of_beq hstops]
  · cases hstops

end Ingester

end BootConfig
