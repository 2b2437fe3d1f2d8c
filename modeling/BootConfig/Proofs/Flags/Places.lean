import BootConfig.Proofs.Options.Accepted
import BootConfig.Proofs.Schema.Assign
import BootConfig.Proofs.Schema.Nested

/-!
# Places in settings

Settings hold something at paths of names. A value laid at a path is checked for the field that the
path leads to, and replaces what is held there; where a section on the way is unset it is passed
over.

* `Setting.at?`, `Setting.putAt`, `Setting.putAll`: what is held at a path, and settings in which it
  is replaced at one path, or at several one after the other.
* `PathsApart`: paths of which neither goes on from the other. What is replaced at one of them
  leaves the other (`Setting.at?_putAt_of_apart`).
* `Schema.Reaches.applyAt`, `Schema.applyAt_of_isUnsetOn`: one value laid at a path.
* `Flags.Foreseen.run`: all values, if it is known beforehand what becomes of each of them.
-/

namespace BootConfig

open Options (Assignments)

/-! ## Paths -/

/-- Neither of two paths goes on from the other. -/
def PathsApart (p q : List String) : Prop := ¬ p <+: q ∧ ¬ q <+: p

namespace PathsApart

variable {p q : List String} {name : String}

theorem cons_iff : PathsApart (name :: p) (name :: q) ↔ PathsApart p q := by
  simp [PathsApart, List.cons_prefix_cons]

theorem cons_of_ne {name' : String} (h : name ≠ name') : PathsApart (name :: p) (name' :: q) := by
  simp [PathsApart, List.cons_prefix_cons, h, Ne.symm h]

theorem not_nil_left : ¬ PathsApart [] q := fun h => h.1 List.nil_prefix

theorem not_nil_right : ¬ PathsApart p [] := fun h => h.2 List.nil_prefix

end PathsApart

/-! ## What is held at a path -/

namespace Setting

/-- What settings hold at a path of names. -/
def at? (config : Setting) : List String → Option Setting
  | [] => some config
  | name :: path => (config.get? name).bind fun part => part.at? path

/-- The settings with what they hold at a path replaced, if they hold something there. -/
def putAt (config : Setting) (path : List String) (new : Setting) : Setting :=
  match path with
  | [] => new
  | name :: path => match config.get? name with
    | some part => config.put name (part.putAt path new)
    | none => config

/-- The settings with what they hold at several paths replaced, one after the other. -/
def putAll (config : Setting) (news : List (List String × Setting)) : Setting :=
  news.foldl (fun config new => config.putAt new.1 new.2) config

variable {config new part : Setting} {name : String} {p q rest : List String}
  {news : List (List String × Setting)}

theorem putAt_cons (h : config.get? name = some part) :
    config.putAt (name :: p) new = config.put name (part.putAt p new) := by
  rw [putAt, h]

theorem putAt_cons_of_none (h : config.get? name = none) :
    config.putAt (name :: p) new = config := by
  rw [putAt, h]

theorem get?_putAt_of_ne {name' : String} (h : name' ≠ name) :
    (config.putAt (name :: p) new).get? name' = config.get? name' := by
  cases hpart : config.get? name with
  | none => rw [putAt_cons_of_none hpart]
  | some part => rw [putAt_cons hpart, get?_put_of_ne _ _ h]

theorem get?_putAt_self (h : config.get? name = some part) :
    (config.putAt (name :: p) new).get? name = some (part.putAt p new) := by
  rw [putAt_cons h, get?_put_self _ h]

/-- A group with something replaced in it is a group of the same name. -/
theorem putAt_group (n : String) (parts : List (String × Setting)) (name : String)
    (p : List String) (new : Setting) :
    ∃ parts', (Setting.group n parts).putAt (name :: p) new = .group n parts' := by
  cases hpart : (Setting.group n parts).get? name with
  | none => exact ⟨parts, putAt_cons_of_none hpart⟩
  | some part => exact ⟨_, putAt_cons hpart⟩

theorem isNull_putAt : (config.putAt (name :: p) new).isNull = config.isNull := by
  cases config with
  | value v => rw [putAt_cons_of_none (show (Setting.value v).get? name = none from rfl)]
  | group n parts =>
    obtain ⟨parts', hparts⟩ := putAt_group n parts name p new
    rw [hparts]
    rfl

/-- Below a path at which something is held, its replacement is held afterwards. -/
theorem at?_putAt (h : (config.at? p).isSome = true) :
    (config.putAt p new).at? (p ++ rest) = new.at? rest := by
  induction p generalizing config with
  | nil => rfl
  | cons name p ih =>
    cases hpart : config.get? name with
    | none =>
      rw [at?, hpart] at h
      cases h
    | some part =>
      rw [at?, hpart, Option.bind_some] at h
      rw [List.cons_append, at?, get?_putAt_self hpart, Option.bind_some, ih h]

theorem at?_putAt_of_apart (h : PathsApart p q) : (config.putAt p new).at? q = config.at? q := by
  induction p generalizing config q with
  | nil => exact (PathsApart.not_nil_left h).elim
  | cons name p ih =>
    cases q with
    | nil => exact (PathsApart.not_nil_right h).elim
    | cons name' q =>
      rw [at?, at?]
      by_cases hname : name' = name
      · subst hname
        cases hpart : config.get? name' with
        | none => rw [putAt_cons_of_none hpart, hpart]
        | some part =>
          rw [get?_putAt_self hpart, Option.bind_some, Option.bind_some,
            ih (PathsApart.cons_iff.mp h)]
      · rw [get?_putAt_of_ne hname]

/-! ### Several paths -/

theorem putAll_append (news' : List (List String × Setting)) :
    config.putAll (news ++ news') = (config.putAll news).putAll news' :=
  List.foldl_append ..

theorem at?_putAll_of_apart (h : ∀ g ∈ news, PathsApart g.1 q) :
    (config.putAll news).at? q = config.at? q := by
  induction news generalizing config with
  | nil => rfl
  | cons g news ih =>
    obtain ⟨hg, hnews⟩ := List.forall_mem_cons.mp h
    exact (ih hnews).trans (at?_putAt_of_apart hg)

/-- What is put at a path is held there in the end, if what is put after it is apart from it. -/
theorem at?_putAll (hheld : ((config.putAll news).at? p).isSome = true)
    {later : List (List String × Setting)} (hlater : ∀ g ∈ later, PathsApart g.1 (p ++ rest)) :
    (config.putAll (news ++ (p, new) :: later)).at? (p ++ rest) = new.at? rest := by
  rw [putAll_append]
  exact (at?_putAll_of_apart hlater).trans (at?_putAt hheld)

/-! ### Unset sections -/

theorem view_of_isNull {v : Value} (h : (Setting.value v).isNull = true) :
    v.view = .scalar .null := by
  unfold isNull scalar? at h
  dsimp only at h
  split at h
  · rename_i hscalar
    split at hscalar
    · rename_i x hx
      cases hscalar
      exact hx
    · cases hscalar
  · cases h

/-- Whether a path leads on from something that is unset. -/
def isUnsetOn (config : Setting) : List String → Bool
  | [] => false
  | name :: path => !path.isEmpty &&
    (config.get? name).any fun part => part.isNull || part.isUnsetOn path

theorem isUnsetOn_putAt (h : p <+: q → p = q) :
    (config.putAt p new).isUnsetOn q = config.isUnsetOn q := by
  induction q generalizing config p with
  | nil => rfl
  | cons name q ih =>
    cases p with
    | nil => cases h List.nil_prefix
    | cons name' p =>
      rw [isUnsetOn, isUnsetOn]
      by_cases hname : name = name'
      · subst hname
        cases hpart : config.get? name with
        | none => rw [putAt_cons_of_none hpart, hpart]
        | some part =>
          have hbelow : p <+: q → p = q := fun hprefix =>
            (List.cons_eq_cons.mp (h (List.cons_prefix_cons.mpr ⟨rfl, hprefix⟩))).2
          cases p with
          | nil =>
            -- what is replaced is where the path ends
            rw [← hbelow List.nil_prefix]
            rfl
          | cons next p =>
            rw [get?_putAt_self hpart, Option.any_some, Option.any_some, isNull_putAt, ih hbelow]
      · rw [get?_putAt_of_ne hname]

end Setting

/-! ## Values at fields -/

namespace Schema

/-- A path of names leads through settings of a schema to a field. -/
inductive Reaches : Schema → Setting → List String → Field → Prop
  | here {s : Schema} {config held : Setting} {name : String} {f : Field} :
      s.field? name = some f → config.get? name = some held → Reaches s config [name] f
  | inside {s inner : Schema} {config : Setting} {name n : String}
      {parts : List (String × Setting)} {g f : Field} {path : List String} :
      s.field? name = some g → config.get? name = some (.group n parts) →
      g.2.groupNamed? n = some inner → Reaches inner (.group n parts) path f →
      Reaches s config (name :: path) f

/-- What the field that a path leads to makes of a value. Faults are found under its name. -/
def checkAt? (s : Schema) (path : List String) (v : Value) : Option (Checked Setting) :=
  (s.fieldAt? path).map fun f => Checked.under (PathStep.ofString f.1.name) (f.check (.value v))

end Schema

/-- The effect at a path of a value that has been checked for it, or that is passed over. -/
def Flags.Effect.of (config : Setting) (path : List String) : Option (Checked Setting) → Effect
  | none => .skipped
  | some (.ok new) => .assigned (config.putAt path new)
  | some (.error issues) => .refused issues

namespace Schema

variable {s : Schema} {config new : Setting} {p q : List String} {f : Field}

theorem Reaches.ne_nil (h : s.Reaches config q f) : q ≠ [] := by
  cases h <;> exact List.cons_ne_nil _ _

theorem Reaches.isSome_at? (h : s.Reaches config q f) : (config.at? q).isSome = true := by
  induction h with
  | here _ hheld =>
    rw [Setting.at?, hheld]
    rfl
  | inside _ hheld _ _ ih =>
    rw [Setting.at?, hheld]
    exact ih

/-- A path still leads to its field after something has been replaced that is not on the way. -/
theorem Reaches.putAt (h : s.Reaches config q f) (hp : p <+: q → p = q) :
    s.Reaches (config.putAt p new) q f := by
  induction h generalizing p with
  | @here s config held name f hf hheld =>
    cases p with
    | nil => cases hp List.nil_prefix
    | cons name' p =>
      by_cases hname : name = name'
      · subst hname
        exact .here hf (Setting.get?_putAt_self hheld)
      · exact .here hf ((Setting.get?_putAt_of_ne hname).trans hheld)
  | @inside s inner config name n parts g f path hg hheld hinner hpath ih =>
    cases p with
    | nil => cases hp List.nil_prefix
    | cons name' p =>
      by_cases hname : name = name'
      · subst hname
        have hbelow : p <+: path → p = path := fun hprefix =>
          (List.cons_eq_cons.mp (hp (List.cons_prefix_cons.mpr ⟨rfl, hprefix⟩))).2
        cases p with
        | nil => exact (hpath.ne_nil (hbelow List.nil_prefix).symm).elim
        | cons next p =>
          have hpart := ih hbelow
          obtain ⟨parts', hparts⟩ := Setting.putAt_group n parts next p new
          rw [hparts] at hpart
          exact .inside hg ((Setting.get?_putAt_self hheld).trans (congrArg _ hparts)) hinner hpart
      · exact .inside hg ((Setting.get?_putAt_of_ne hname).trans hheld) hinner hpath

/-- A value laid at a path that leads to a field is checked for that field, and put there or
refused. -/
theorem Reaches.applyAt (h : s.Reaches config q f) (v : Value) :
    s.applyAt config v q = .of config q
      (some (Checked.under (PathStep.ofString f.1.name) (f.check (.value v)))) := by
  induction h with
  | @here s config held name f hf hheld =>
    rw [Schema.applyAt, Schema.assign, hf, name_of_field? hf]
    simp only [Option.isNone_some, Bool.false_eq_true, if_false]
    cases f.check (.value v) with
    | error issues => rfl
    | ok new =>
      show Flags.Effect.assigned (config.put name new) = .assigned (config.putAt [name] new)
      rw [Setting.putAt_cons hheld]
      rfl
  | @inside s inner config name n parts g f path hg hheld hinner hpath ih =>
    obtain ⟨next, path, rfl⟩ := List.exists_cons_of_ne_nil hpath.ne_nil
    rw [Schema.applyAt, hg, hheld]
    · simp only [hinner, ih]
      cases f.check (.value v) with
      | error issues => rfl
      | ok new =>
        show Flags.Effect.assigned _ = .assigned (config.putAt (name :: next :: path) new)
        rw [Setting.putAt_cons hheld]
    · exact List.cons_ne_nil _ _

/-- A value whose path leads on from something unset is passed over. -/
theorem applyAt_of_isUnsetOn (v : Value) (h : config.isUnsetOn q = true) :
    s.applyAt config v q = .skipped := by
  induction q generalizing s config with
  | nil => cases h
  | cons name path ih =>
    rw [Setting.isUnsetOn, Bool.and_eq_true_iff] at h
    obtain ⟨hne, h⟩ := h
    obtain ⟨next, path, rfl⟩ := List.exists_cons_of_ne_nil
      (List.isEmpty_eq_false_iff.mp (by simpa using hne))
    obtain ⟨part, hpart, hunset⟩ := (Option.any_eq_true _ _).mp h
    rw [Schema.applyAt, hpart]
    · cases part with
      | group n parts =>
        have hbelow : (Setting.group n parts).isUnsetOn (next :: path) = true := hunset
        split
        · rename_i hgroup
          cases hgroup
          split
          · rw [ih hbelow]
            rfl
          · rfl
        · rename_i hvalue
          cases hvalue
        · rfl
      | value held =>
        -- a value has no parts that could be unset
        have hparts : (Setting.value held).isUnsetOn (next :: path) = false := Bool.and_false _
        have hnull : (Setting.value held).isNull = true := by simpa [hparts] using hunset
        split
        · rename_i hgroup
          cases hgroup
        · rename_i hvalue
          cases hvalue
          unfold Flags.beyond
          rw [Setting.view_of_isNull hnull]
        · rfl
    · exact List.cons_ne_nil _ _

end Schema

/-! ## All values -/

namespace Flags

theorem inOrder_trans (a b c : String × Value) (hab : inOrder a b = true)
    (hbc : inOrder b c = true) : inOrder a c = true := by
  simp only [inOrder, Bool.not_eq_true', decide_eq_false_iff_not] at *
  exact String.le_trans (show a.1 ≤ b.1 from hab) hbc

theorem inOrder_total (a b : String × Value) : (inOrder a b || inOrder b a) = true := by
  simp only [inOrder, Bool.or_eq_true, Bool.not_eq_true', decide_eq_false_iff_not]
  exact String.le_total a.1 b.1

/-- Values in the order in which they are applied. -/
def sorted (as : Assignments) : Assignments := as.mergeSort inOrder

variable {as : Assignments}

theorem sorted_perm (as : Assignments) : (sorted as).Perm as := List.mergeSort_perm _ _

/-- Distinct paths ascend. -/
theorem sorted_ascends (h : as.Distinct) : (sorted as).Pairwise fun a b => a.1 < b.1 := by
  have hordered : (sorted as).Pairwise fun a b => inOrder a b = true :=
    List.pairwise_mergeSort inOrder_trans inOrder_total as
  have hnodup : ((sorted as).map Prod.fst).Nodup := ((sorted_perm as).map Prod.fst).nodup_iff.mpr h
  refine (hordered.and (List.pairwise_map.mp hnodup)).imp fun {a b} ⟨hab, hne⟩ => ?_
  simp only [inOrder, Bool.not_eq_true', decide_eq_false_iff_not] at hab
  by_contra hba
  exact hne (String.le_antisymm (show a.1 ≤ b.1 from hab) (show b.1 ≤ a.1 from hba))

theorem isSome_issues? {result : Option (Checked Setting)} :
    (result.bind Checked.issues?).isSome = true ↔ ∃ issues, result = some (.error issues) := by
  rcases result with _ | _ | _ <;> simp [Checked.issues?]

/-- Settings of some kind, for which it is known beforehand what becomes of values: each one is
passed over, or checked and then put in its place or refused. Where it is put, settings of the kind
result. -/
structure Foreseen (s : Schema) (Kind : Setting → Prop)
    (judge : String × Value → Option (Checked Setting)) (as : Assignments) : Prop where
  effect : ∀ a ∈ as, ∀ config, Kind config →
    s.applyAt config a.2 (names a.1) = .of config (names a.1) (judge a)
  keeps : ∀ a ∈ as, ∀ config new, Kind config → judge a = some (.ok new) →
    Kind (config.putAt (names a.1) new)

/-- What is put in their places of the values that are accepted. -/
def accepted (judge : String × Value → Option (Checked Setting)) (as : Assignments) :
    List (List String × Setting) :=
  as.filterMap fun a => ((judge a).bind Except.toOption).map fun new => (names a.1, new)

section

variable {judge : String × Value → Option (Checked Setting)} {a : String × Value} {new : Setting}

theorem mem_accepted {g : List String × Setting} :
    g ∈ accepted judge as ↔ ∃ a ∈ as, names a.1 = g.1 ∧ judge a = some (.ok g.2) := by
  have hjudge : ∀ result : Option (Checked Setting),
      result.bind Except.toOption = some g.2 ↔ result = some (.ok g.2) := by
    rintro (_ | _ | _) <;> simp [Except.toOption]
  rw [accepted, List.mem_filterMap]
  refine exists_congr fun a => and_congr_right fun _ => ?_
  rw [← hjudge, Option.map_eq_some_iff]
  exact ⟨fun ⟨new, hnew, heq⟩ => heq ▸ ⟨rfl, hnew⟩, fun ⟨hname, hnew⟩ => ⟨g.2, hnew, by rw [hname]⟩⟩

theorem accepted_append (as bs : Assignments) :
    accepted judge (as ++ bs) = accepted judge as ++ accepted judge bs :=
  List.filterMap_append ..

theorem accepted_cons (h : judge a = some (.ok new)) :
    accepted judge (a :: as) = (names a.1, new) :: accepted judge as :=
  List.filterMap_cons_some (by rw [h]; rfl)

theorem accepted_cons_of_none (h : judge a = none) : accepted judge (a :: as) = accepted judge as :=
  List.filterMap_cons_none (by rw [h]; rfl)

end

namespace Foreseen

variable {s : Schema} {Kind : Setting → Prop} {judge : String × Value → Option (Checked Setting)}
  {config : Setting} {done : Assignments} {a : String × Value} {issues : List Issue}

theorem sublist (h : Foreseen s Kind judge as) {bs : Assignments} (hsub : ∀ b ∈ bs, b ∈ as) :
    Foreseen s Kind judge bs where
  effect b hb := h.effect b (hsub b hb)
  keeps b hb := h.keeps b (hsub b hb)

/-- Values of which none is refused, with others behind them. The induction is on the values, and
what it carries on is that the settings stay of their kind. -/
theorem applyEach_append (h : Foreseen s Kind judge as) (hconfig : Kind config)
    (has : ∀ a ∈ as, ∀ issues, judge a ≠ some (.error issues)) (done rest : Assignments) :
    Kind (config.putAll (accepted judge as)) ∧
      applyEach s config done (as ++ rest) = applyEach s (config.putAll (accepted judge as))
        (done ++ as.filter fun a => (judge a).isSome) rest := by
  induction as generalizing config done with
  | nil =>
    rw [List.filter_nil, List.append_nil]
    exact ⟨hconfig, rfl⟩
  | cons a as ih =>
    obtain ⟨ha, has⟩ := List.forall_mem_cons.mp has
    have heffect := h.effect a List.mem_cons_self config hconfig
    have hrest : Foreseen s Kind judge as := h.sublist fun b hb => List.mem_cons_of_mem _ hb
    rw [List.cons_append, applyEach, heffect]
    cases hjudge : judge a with
    | none =>
      rw [accepted_cons_of_none hjudge, List.filter_cons_of_neg (by simp [hjudge])]
      exact ih hrest hconfig has done
    | some result =>
      cases result with
      | error issues => exact (ha issues hjudge).elim
      | ok new =>
        rw [accepted_cons hjudge, List.filter_cons_of_pos (by simp [hjudge]),
          List.append_cons done a (as.filter _)]
        exact ih hrest (h.keeps a List.mem_cons_self config new hconfig hjudge) has _

/-- A value that is refused is the last one. -/
theorem applyEach_refused (h : Foreseen s Kind judge as) (hconfig : Kind config) (ha : a ∈ as)
    (hjudge : judge a = some (.error issues)) (rest : Assignments) :
    applyEach s config done (a :: rest) = ⟨config, done, some (.refused issues)⟩ := by
  rw [applyEach, h.effect a ha config hconfig, hjudge]
  rfl

/-- All values up to the first one that is refused are put in their places. -/
theorem run (h : Foreseen s Kind judge as) (hconfig : Kind config) :
    (∃ before a after issues, as = before ++ a :: after ∧ judge a = some (.error issues) ∧
      (∀ b ∈ before, ∀ issues, judge b ≠ some (.error issues)) ∧
      Kind (config.putAll (accepted judge before)) ∧
      applyEach s config [] as = ⟨config.putAll (accepted judge before),
        before.filter fun b => (judge b).isSome, some (.refused issues)⟩) ∨
    ((∀ a ∈ as, ∀ issues, judge a ≠ some (.error issues)) ∧
      Kind (config.putAll (accepted judge as)) ∧
      applyEach s config [] as = ⟨config.putAll (accepted judge as),
        as.filter fun a => (judge a).isSome, none⟩) := by
  let refused : String × Value → Bool := fun a => ((judge a).bind Checked.issues?).isSome
  cases hfirst : as.find? refused with
  | none =>
    have has : ∀ a ∈ as, ∀ issues, judge a ≠ some (.error issues) := fun a ha issues hissues =>
      List.find?_eq_none.mp hfirst a ha (isSome_issues?.mpr ⟨issues, hissues⟩)
    have hall := h.applyEach_append hconfig has [] []
    rw [List.append_nil] at hall
    exact .inr ⟨has, hall.1, hall.2⟩
  | some a =>
    obtain ⟨ha, before, after, rfl, hbefore⟩ := List.find?_eq_some_iff_append.mp hfirst
    obtain ⟨issues, hissues⟩ := isSome_issues?.mp ha
    have haccepted : ∀ b ∈ before, ∀ issues, judge b ≠ some (.error issues) := by
      intro b hb issues hissues
      have hnot : refused b = false := by simpa using hbefore b hb
      exact Bool.false_ne_true (hnot.symm.trans (isSome_issues?.mpr ⟨issues, hissues⟩))
    obtain ⟨hkind, happly⟩ := (h.sublist fun b hb => List.mem_append_left _ hb).applyEach_append
      hconfig haccepted [] (a :: after)
    refine .inl ⟨before, a, after, issues, rfl, hissues, haccepted, hkind, ?_⟩
    rw [happly, h.applyEach_refused hkind (by simp) hissues, List.nil_append]

end Foreseen

end Flags

end BootConfig
