import BootConfig.Options.CommandLine
import BootConfig.Proofs.Data.Table
import BootConfig.Proofs.Options.Mentions
import Mathlib.Data.List.Forall2

/-!
# Accepted arguments

What is known of an argument list that a command line accepts as a list of settings.

* `scan_of_read`: there is no fault, and nothing is left over.
* `follow_converts`: every value that was given could be read.
* `follow_paths`, `follow_distinct`: the values are for paths of options, one for each path.
-/

namespace BootConfig.Options

/-! ## Assignments -/

namespace Assignments

/-- Every path has one value. -/
def Distinct (as : Assignments) : Prop := (as.map Prod.fst).Nodup

theorem mem_paths_put {as : Assignments} {path q : String} {v : Value} :
    q ∈ (as.put path v).map Prod.fst ↔ q = path ∨ q ∈ as.map Prod.fst := by
  induction as with
  | nil => simp [put]
  | cons a rest ih =>
    rw [put]
    split
    · rename_i ha
      simp [eq_of_beq ha]
    · rw [List.map_cons, List.mem_cons, ih, List.map_cons, List.mem_cons]
      exact or_left_comm

theorem Distinct.put {as : Assignments} (h : as.Distinct) (path : String) (v : Value) :
    (as.put path v).Distinct := by
  induction as with
  | nil => simp [Distinct, Assignments.put]
  | cons a rest ih =>
    obtain ⟨hnot, hrest⟩ := List.nodup_cons.mp h
    rw [Assignments.put]
    split
    · rename_i ha
      rw [eq_of_beq ha] at hnot
      exact List.nodup_cons.mpr ⟨hnot, hrest⟩
    · rename_i ha
      refine List.nodup_cons.mpr ⟨fun hmem => ?_, ih hrest⟩
      rcases mem_paths_put.mp hmem with heq | hmem
      · exact ha (beq_iff_eq.mpr heq)
      · exact hnot hmem

theorem Distinct.mem_iff {as : Assignments} (h : as.Distinct) {path : String} {v : Value} :
    (path, v) ∈ as ↔ as.lookup path = some v :=
  mem_iff_lookup h

/-- The order of distinct paths does not matter. -/
theorem Distinct.lookup_perm {as bs : Assignments} (h : as.Distinct) (hperm : as.Perm bs)
    (path : String) : as.lookup path = bs.lookup path :=
  lookup_of_perm h hperm path

end Assignments

/-! ## Readings -/

section

variable {α : Type} {table : Table α} {abbreviations : Bool} {args : List String}
  {rs : List (String × Reading α)}

/-- If all arguments are options or values, each one is read by itself. -/
theorem forall₂_of_classifyAll (h : classifyAll table abbreviations args = .ok rs)
    (hrs : ∀ r ∈ rs, r.2.isPlain = true ∨ ∃ s, r.2 = .option s) :
    List.Forall₂ (fun arg r => r.1 = arg ∧ classify table abbreviations arg = .ok r.2) args rs := by
  induction args generalizing rs with
  | nil =>
    cases h
    exact .nil
  | cons arg rest ih =>
    rcases classifyAll_cons_eq_ok h with rfl | ⟨reading, rs', -, hreading, hrest, rfl⟩
    · -- a separator is no value
      rcases hrs _ List.mem_cons_self with hplain | ⟨s, hs⟩
      · cases hplain
      · cases hs
    · exact .cons ⟨rfl, hreading⟩ (ih hrest fun r hr => hrs r (List.mem_cons_of_mem _ hr))

theorem scan_eq_ok {s : Scan α} (h : scan table abbreviations args = .ok s) :
    ∃ rs, classifyAll table abbreviations args = .ok rs ∧ collect table rs = s := by
  unfold scan at h
  cases hclassify : classifyAll table abbreviations args with
  | error f =>
    rw [hclassify] at h
    cases h
  | ok rs =>
    rw [hclassify] at h
    cases h
    exact ⟨rs, rfl, rfl⟩

end

def Request.settings? : Request → Option Assignments
  | .settings as => some as
  | _ => none

theorem Request.settings?_eq_some {r : Request} {as : Assignments} (h : r.settings? = some as) :
    r = .settings as := by
  cases r with
  | settings as' => exact congrArg Request.settings (Option.some.inj h)
  | overview => cases h
  | version text => cases h
  | refused f => cases h

namespace CommandLine

/-! ## Declarations -/

theorem options_declareAll {c c' : CommandLine} {os : List CommandOption}
    (h : c.declareAll os = .ok c') : c'.options = c.options ++ os := by
  unfold declareAll at h
  induction os generalizing c with
  | nil =>
    cases h
    rw [List.append_nil]
  | cons o rest ih =>
    rw [List.foldlM_cons] at h
    unfold declare at h
    simp only at h
    split at h
    · rw [ih h, List.append_assoc]
      rfl
    · cases h

/-- All spellings of the options that have been declared. -/
def spelled (c : CommandLine) : List String := c.options.flatMap OptionForm.spellings

theorem find?_of_not_spelled {c : CommandLine} {spelling : String} (h : spelling ∉ c.spelled) :
    find? c.options spelling = none :=
  List.find?_eq_none.mpr fun o ho hspelled =>
    h (List.mem_flatMap.mpr ⟨o, ho, List.contains_iff_mem.mp hspelled⟩)

theorem declare_of_not_spelled {c : CommandLine} {o : CommandOption}
    (h : ∀ x ∈ o.spellings, x ∉ c.spelled) :
    c.declare o = .ok { c with options := c.options ++ [o] } := by
  have hfree : o.spellings.filter (fun x => (find? c.options x).isSome) = [] :=
    List.filter_eq_nil_iff.mpr fun x hx => by
      rw [find?_of_not_spelled (h x hx)]
      exact Bool.false_ne_true
  unfold declare
  rw [hfree]
  rfl

/-- Options whose spellings differ and are not taken are declared one after the other. -/
theorem declareAll_of_not_spelled {c : CommandLine} {os : List CommandOption}
    (hfree : ∀ x ∈ os.flatMap OptionForm.spellings, x ∉ c.spelled)
    (hdistinct : (os.flatMap OptionForm.spellings).Nodup) :
    c.declareAll os = .ok { c with options := c.options ++ os } := by
  induction os generalizing c with
  | nil =>
    rw [List.append_nil]
    rfl
  | cons o rest ih =>
    rw [List.flatMap_cons] at hfree hdistinct
    obtain ⟨ho, hrest⟩ := List.forall_mem_append.mp hfree
    show (c.declare o).bind _ = _
    rw [declare_of_not_spelled ho, List.append_cons c.options o rest]
    refine ih (fun x hx => ?_) hdistinct.of_append_right
    -- what is taken now are the old spellings and those of the option declared first
    have hother : x ∉ o.spellings := fun ho => List.disjoint_of_nodup_append hdistinct ho hx
    simpa [spelled] using ⟨by simpa [spelled] using hrest x hx, hother⟩

/-! ## Requests -/

/-- The value of an option that occurs. -/
def valueOf (o : Occurrence OptionMeaning) : Except ConversionFault Value :=
  o.option.meaning.conversion.readAll o.option.arity o.values

/-- One step of `follow`, if it goes on: the value is read, and kept if it is for a setting. -/
theorem follow_cons {as as' : Assignments} {o : Occurrence OptionMeaning}
    {rest : List (Occurrence OptionMeaning)} (h : follow as (o :: rest) = .ok as') :
    ∃ v, valueOf o = .ok v ∧
      ((∃ path, o.option.meaning.purpose = .setting path ∧ follow (as.put path v) rest = .ok as') ∨
        (o.option.meaning.purpose = .ignored ∧ follow as rest = .ok as')) := by
  unfold follow at h
  split at h
  · cases h
  · cases h
  · rename_i path hpurpose
    split at h
    · rename_i v hv
      exact ⟨v, hv, .inl ⟨path, hpurpose, h⟩⟩
    · cases h
  · rename_i hpurpose
    split at h
    · rename_i v hv
      exact ⟨v, hv, .inr ⟨hpurpose, h⟩⟩
    · cases h

theorem follow_converts {as as' : Assignments} {os : List (Occurrence OptionMeaning)}
    (h : follow as os = .ok as') : ∀ o ∈ os, ∃ v, valueOf o = .ok v := by
  induction os generalizing as with
  | nil => intro o ho; cases ho
  | cons a rest ih =>
    obtain ⟨v, hv, ⟨path, _, hrest⟩ | ⟨_, hrest⟩⟩ := follow_cons h
    all_goals
      intro o ho
      rcases List.mem_cons.mp ho with rfl | ho
      · exact ⟨v, hv⟩
      · exact ih hrest o ho

theorem follow_distinct {as as' : Assignments} {os : List (Occurrence OptionMeaning)}
    (h : follow as os = .ok as') (has : as.Distinct) : as'.Distinct := by
  induction os generalizing as with
  | nil =>
    cases h
    exact has
  | cons a rest ih =>
    obtain ⟨v, _, ⟨path, _, hrest⟩ | ⟨_, hrest⟩⟩ := follow_cons h
    · exact ih hrest (has.put path v)
    · exact ih hrest has

theorem follow_paths {as as' : Assignments} {os : List (Occurrence OptionMeaning)}
    (h : follow as os = .ok as') : ∀ path ∈ as'.map Prod.fst,
      path ∈ as.map Prod.fst ∨ ∃ o ∈ os, o.option.meaning.purpose = .setting path := by
  induction os generalizing as with
  | nil =>
    cases h
    exact fun path hpath => .inl hpath
  | cons a rest ih =>
    intro q hq
    obtain ⟨v, _, ⟨path, hpurpose, hrest⟩ | ⟨_, hrest⟩⟩ := follow_cons h
    · rcases ih hrest q hq with hq | ⟨o, ho, hpath⟩
      · rcases Assignments.mem_paths_put.mp hq with rfl | hq
        · exact .inr ⟨a, List.mem_cons_self, hpurpose⟩
        · exact .inl hq
      · exact .inr ⟨o, List.mem_cons_of_mem _ ho, hpath⟩
    · rcases ih hrest q hq with hq | ⟨o, ho, hpath⟩
      · exact .inl hq
      · exact .inr ⟨o, List.mem_cons_of_mem _ ho, hpath⟩

/-- What ends the reading early is no list of settings. -/
theorem follow_error {as : Assignments} {os : List (Occurrence OptionMeaning)} {r : Request}
    (h : follow as os = .error r) : ∀ as', r ≠ .settings as' := by
  induction os generalizing as with
  | nil => cases h
  | cons a rest ih =>
    unfold follow at h
    split at h
    · cases h
      exact fun _ h => by cases h
    · cases h
      exact fun _ h => by cases h
    · split at h
      · exact ih h
      · cases h
        exact fun _ h => by cases h
    · split at h
      · exact ih h
      · cases h
        exact fun _ h => by cases h

/-- Whether an argument list is accepted as a list of settings. -/
def accepts (c : CommandLine) (args : List String) : Bool :=
  match c.read args with
  | .settings _ => true
  | _ => false

theorem accepts_iff {c : CommandLine} {args : List String} :
    c.accepts args = true ↔ ∃ as, c.read args = .settings as := by
  unfold accepts
  split
  · rename_i as has
    exact ⟨fun _ => ⟨as, has⟩, fun _ => rfl⟩
  · rename_i hnot
    exact ⟨fun h => (Bool.false_ne_true h).elim, fun ⟨as, has⟩ => (hnot as has).elim⟩

/-- An argument list that is accepted has no fault, leaves nothing over and asks for settings
only. -/
theorem scan_of_read {c : CommandLine} {args : List String} {as : Assignments}
    (h : c.read args = .settings as) :
    ∃ s, scan c.options true args = .ok s ∧ follow [] s.occurrences = .ok as ∧ s.fault = none ∧
      s.leftover = [] := by
  unfold read at h
  split at h
  · cases h
  · rename_i s hs
    split at h
    · rename_i r hr
      exact (follow_error hr as h).elim
    · rename_i as' hfollow
      split at h
      · cases h
      · rename_i hfault
        split at h
        · rename_i hleft
          cases h
          exact ⟨s, hs, hfollow, hfault, List.isEmpty_iff.mp hleft⟩
        · cases h

/-- The settings that an argument list gives are for options of the command line, one value each. -/
theorem paths_of_read {c : CommandLine} {args : List String} {as : Assignments}
    (h : c.read args = .settings as) : as.Distinct ∧
      ∀ path ∈ as.map Prod.fst, ∃ o ∈ c.options, o.meaning.purpose = .setting path := by
  obtain ⟨s, hs, hfollow, _, _⟩ := scan_of_read h
  obtain ⟨rs, hrs, rfl⟩ := scan_eq_ok hs
  refine ⟨follow_distinct hfollow List.nodup_nil, fun path hpath => ?_⟩
  rcases follow_paths hfollow path hpath with hnil | ⟨o, ho, hpurpose⟩
  · cases hnil
  · exact ⟨o.option, (collects c.options rs).mem_table (fromTable_of_classifyAll hrs) o ho,
      hpurpose⟩

end CommandLine

end BootConfig.Options
