import BootConfig.Proofs.Options.Groups
import Mathlib.Data.List.Nodup

/-!
# What arguments bind

Of the occurrences that give a value for a path the last one counts, so of the groups of an argument
list only those of one option matter for a path, and of these only the order among themselves.

* `CommandLine.lookup_follow`: the value that is bound to a path.
* `CommandLine.read_groups`: full groups are accepted if their values can be read.
* `CommandLine.read_gives`: groups that agree bind the values that they give.
* `CommandLine.groups_of_read`: what is accepted is such a list of groups.
-/

namespace BootConfig.Options

/-! ## Association lists -/

namespace Assignments

theorem lookup_put (as : Assignments) (path q : String) (v : Value) :
    (as.put path v).lookup q = if q = path then some v else as.lookup q := by
  induction as with
  | nil =>
    rw [put, List.lookup_cons]
    cases hq : q == path with
    | true => rw [if_pos (eq_of_beq hq)]
    | false => rw [if_neg (ne_of_beq_false hq)]
  | cons a rest ih =>
    obtain ⟨p, w⟩ := a
    by_cases hp : p = path
    · subst hp
      rw [put, if_pos (beq_self_eq_true p), List.lookup_cons, List.lookup_cons]
      cases hq : q == p with
      | true => rw [if_pos (eq_of_beq hq)]
      | false => rw [if_neg (ne_of_beq_false hq)]
    · rw [put, if_neg (mt eq_of_beq hp), List.lookup_cons, List.lookup_cons, ih]
      cases hq : q == p with
      | true =>
        have hne : q ≠ path := fun h => hp ((eq_of_beq hq).symm.trans h)
        exact (if_neg hne).symm
      | false => rfl

/-- Bindings of distinct paths are determined by what they bind, up to their order. -/
theorem Distinct.perm {as bs : Assignments} (has : as.Distinct) (hbs : bs.Distinct)
    (h : ∀ path, as.lookup path = bs.lookup path) : as.Perm bs := by
  have hnodup : ∀ {xs : Assignments}, xs.Distinct → xs.Nodup := List.Nodup.of_map _
  refine (List.perm_ext_iff_of_nodup (hnodup has) (hnodup hbs)).mpr ?_
  rintro ⟨path, v⟩
  rw [has.mem_iff, hbs.mem_iff, h]

end Assignments

/-! ## Bindings -/

namespace CommandLine

/-- An occurrence after which the reading goes on: its value can be read, and it is for a setting or
has no effect. -/
structure Settles (o : Occurrence OptionMeaning) : Prop where
  purpose : (∃ path, o.option.meaning.purpose = .setting path) ∨
    o.option.meaning.purpose = .ignored
  value : ∃ v, valueOf o = .ok v

/-- The value that an occurrence binds to a path. -/
def boundTo? (path : String) (o : Occurrence OptionMeaning) : Option Value :=
  if o.option.meaning.purpose = .setting path then (valueOf o).toOption else none

theorem settles_of_follow {as as' : Assignments} {os : List (Occurrence OptionMeaning)}
    (h : follow as os = .ok as') : ∀ o ∈ os, Settles o := by
  induction os generalizing as with
  | nil => intro o ho; cases ho
  | cons o rest ih =>
    obtain ⟨v, hv, ⟨path, hpurpose, hrest⟩ | ⟨hpurpose, hrest⟩⟩ := follow_cons h
    · exact List.forall_mem_cons.mpr ⟨⟨.inl ⟨path, hpurpose⟩, v, hv⟩, ih hrest⟩
    · exact List.forall_mem_cons.mpr ⟨⟨.inr hpurpose, v, hv⟩, ih hrest⟩

theorem follow_of_settles {os : List (Occurrence OptionMeaning)} (h : ∀ o ∈ os, Settles o)
    (as : Assignments) : ∃ as', follow as os = .ok as' := by
  induction os generalizing as with
  | nil => exact ⟨as, rfl⟩
  | cons o rest ih =>
    obtain ⟨⟨hpurpose, v, hv⟩, hrest⟩ := List.forall_mem_cons.mp h
    have hread : o.option.meaning.conversion.readAll o.option.arity o.values = .ok v := hv
    rcases hpurpose with ⟨path, hpurpose⟩ | hpurpose
    · obtain ⟨as', has'⟩ := ih hrest (as.put path v)
      exact ⟨as', by rw [follow, hpurpose]; simp only [hread, has']⟩
    · obtain ⟨as', has'⟩ := ih hrest as
      exact ⟨as', by rw [follow, hpurpose]; simp only [hread, has']⟩

/-- A path is bound to the value of the last occurrence for it. -/
theorem lookup_follow {as as' : Assignments} {os : List (Occurrence OptionMeaning)}
    (h : follow as os = .ok as') (path : String) :
    as'.lookup path = (os.filterMap (boundTo? path)).getLast?.or (as.lookup path) := by
  induction os generalizing as with
  | nil =>
    cases h
    rfl
  | cons o rest ih =>
    have hlast : ((o :: rest).filterMap (boundTo? path)).getLast? =
        (rest.filterMap (boundTo? path)).getLast?.or (boundTo? path o) := by
      rw [List.filterMap_cons]
      cases boundTo? path o with
      | none => rw [Option.or_none]
      | some v =>
        rw [List.getLast?_cons]
        cases (rest.filterMap (boundTo? path)).getLast? <;> rfl
    rw [hlast, Option.or_assoc]
    obtain ⟨v, hv, ⟨p, hpurpose, hrest⟩ | ⟨hpurpose, hrest⟩⟩ := follow_cons h
    · rw [ih hrest, Assignments.lookup_put]
      unfold boundTo?
      rw [hpurpose, hv]
      by_cases hp : path = p
      · subst hp
        simp [Except.toOption]
      · have hne : Purpose.setting p ≠ Purpose.setting path := by simpa using Ne.symm hp
        simp [hp, hne]
    · rw [ih hrest]
      unfold boundTo?
      rw [hpurpose, if_neg (by simp), Option.none_or]

/-! ## Groups on a command line -/

variable {c : CommandLine}

/-- Full groups whose values can be read are accepted, and a path is bound to the value of the last
group for it. -/
theorem read_groups {gs : List (OptionGroup OptionMeaning)} (hfull : ∀ g ∈ gs, g.Full)
    (hstands : ∀ g ∈ gs, g.Stands c.options true) (hsettles : ∀ g ∈ gs, Settles g.occurrence) :
    ∃ as, c.read (gs.flatMap OptionGroup.args) = .settings as ∧ as.Distinct ∧ ∀ path,
      as.lookup path = (gs.filterMap fun g => boundTo? path g.occurrence).getLast? := by
  have hoccurrences : ∀ o ∈ gs.map OptionGroup.occurrence, Settles o := by
    intro o ho
    obtain ⟨g, hg, rfl⟩ := List.mem_map.mp ho
    exact hsettles g hg
  obtain ⟨as, has⟩ := follow_of_settles hoccurrences []
  refine ⟨as, ?_, follow_distinct has List.nodup_nil, fun path => ?_⟩
  · unfold read
    rw [scan_groups hfull hstands]
    simp only [has]
    rfl
  · rw [lookup_follow has, List.filterMap_map]
    exact Option.or_none

/-- A group that is read as a value for a path. -/
structure Gives (c : CommandLine) (g : OptionGroup OptionMeaning) (path : String) (v : Value) :
    Prop where
  full : g.Full
  stands : g.Stands c.options true
  purpose : g.occurrence.option.meaning.purpose = .setting path
  value : valueOf g.occurrence = .ok v

theorem Gives.boundTo?_eq_some {g : OptionGroup OptionMeaning} {path q : String} {v w : Value}
    (h : c.Gives g path v) : boundTo? q g.occurrence = some w ↔ path = q ∧ v = w := by
  rw [boundTo?, h.purpose, h.value]
  simp [Except.toOption]

theorem Gives.unique {g : OptionGroup OptionMeaning} {path path' : String} {v v' : Value}
    (h : c.Gives g path v) (h' : c.Gives g path' v') : path = path' ∧ v = v' :=
  h.boundTo?_eq_some.mp (h'.boundTo?_eq_some.mpr ⟨rfl, rfl⟩)

/-- Groups that agree on the value for each path are accepted, and bind these values. -/
theorem read_gives {gs : List (OptionGroup OptionMeaning)}
    (h : ∀ g ∈ gs, ∃ path v, c.Gives g path v)
    (hagree : ∀ g ∈ gs, ∀ g' ∈ gs, ∀ path v v', c.Gives g path v → c.Gives g' path v' → v = v') :
    ∃ as, c.read (gs.flatMap OptionGroup.args) = .settings as ∧ as.Distinct ∧ ∀ path v,
      as.lookup path = some v ↔ ∃ g ∈ gs, c.Gives g path v := by
  have hfull : ∀ g ∈ gs, g.Full := fun g hg => (h g hg).elim fun _ ⟨_, hgives⟩ => hgives.full
  have hstands : ∀ g ∈ gs, g.Stands c.options true := fun g hg =>
    (h g hg).elim fun _ ⟨_, hgives⟩ => hgives.stands
  have hsettles : ∀ g ∈ gs, Settles g.occurrence := fun g hg =>
    (h g hg).elim fun path ⟨v, hgives⟩ => ⟨.inl ⟨path, hgives.purpose⟩, v, hgives.value⟩
  obtain ⟨as, hread, hdistinct, hlookup⟩ := read_groups hfull hstands hsettles
  refine ⟨as, hread, hdistinct, fun path v => ?_⟩
  have hvalues : ∀ w, w ∈ gs.filterMap (fun g => boundTo? path g.occurrence) ↔
      ∃ g ∈ gs, c.Gives g path w := by
    intro w
    rw [List.mem_filterMap]
    refine exists_congr fun g => and_congr_right fun hg => ?_
    obtain ⟨p, u, hgives⟩ := h g hg
    constructor
    · intro hbound
      obtain ⟨rfl, rfl⟩ := hgives.boundTo?_eq_some.mp hbound
      exact hgives
    · exact fun hgives => hgives.boundTo?_eq_some.mpr ⟨rfl, rfl⟩
  rw [hlookup, ← hvalues]
  refine ⟨List.mem_of_getLast?, fun hv => ?_⟩
  -- some value is the last one, and it is the same as this one
  cases hlast : (gs.filterMap fun g => boundTo? path g.occurrence).getLast? with
  | none =>
    rw [List.getLast?_eq_none_iff.mp hlast] at hv
    cases hv
  | some w =>
    obtain ⟨g, hg, hgives⟩ := (hvalues w).mp (List.mem_of_getLast? hlast)
    obtain ⟨g', hg', hgives'⟩ := (hvalues v).mp hv
    rw [hagree g hg g' hg' path w v hgives hgives']

/-- The groups of an argument list. -/
def groups (c : CommandLine) (args : List String) : List (OptionGroup OptionMeaning) :=
  match classifyAll c.options true args with
  | .ok rs => Options.groups rs
  | .error _ => []

/-- An argument list that is accepted is the list of its groups, which are full and are scanned to
its occurrences, if all options but the requests for a text take values. -/
theorem groups_of_read {args : List String} {as : Assignments}
    (htakes : ∀ o ∈ c.options, (∃ path, o.meaning.purpose = .setting path) ∨
      o.meaning.purpose = .ignored → o.arity ≠ .none)
    (h : c.read args = .settings as) :
    (c.groups args).flatMap OptionGroup.args = args ∧
      scan c.options true args = .ok ⟨(c.groups args).map OptionGroup.occurrence, [], none⟩ ∧
      (∀ g ∈ c.groups args, g.Full) ∧ (∀ g ∈ c.groups args, g.Stands c.options true) ∧
      ∀ g ∈ c.groups args, Settles g.occurrence := by
  obtain ⟨s, hs, hfollow, hfault, hleft⟩ := scan_of_read h
  obtain ⟨rs, hrs, rfl⟩ := scan_eq_ok hs
  have hrun := collects c.options rs
  have hsettles := settles_of_follow hfollow
  obtain ⟨heq, hoccurrences, hfull⟩ := hrun.eq_groups hfault hleft fun o ho =>
    htakes o.option (hrun.mem_table (fromTable_of_classifyAll hrs) o ho) (hsettles o ho).purpose
  have hgroups : c.groups args = Options.groups rs := by
    unfold groups
    rw [hrs]
  obtain ⟨hargs, hreadings⟩ := readings_of_classifyAll hrs (hrun.option_or_plain hfault hleft)
  rw [hgroups]
  refine ⟨?_, ?_, hfull, fun g hg r hr => ?_, fun g hg => ?_⟩
  · rw [← map_fst_readings, ← heq, hargs]
  · rw [hs, ← hoccurrences, ← hfault, ← hleft]
  · exact hreadings r (heq ▸ List.mem_flatMap.mpr ⟨g, hg, hr⟩)
  · exact hsettles _ (hoccurrences ▸ List.mem_map_of_mem hg)

end CommandLine

end BootConfig.Options
