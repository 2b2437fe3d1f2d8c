import BootConfig.Startup
import BootConfig.Proofs.Flags.Places
import BootConfig.Proofs.Locator.Agreement
import BootConfig.Proofs.Options.Bindings

/-!
# Options in another order

The options of an argument list that the full command line accepts can be put into another order,
each with its values. If those of the same option stay in their order, nothing changes: not what is
read, not what is located, and so neither the startup nor the settings after it.

* `Reorders`: groups in another order.
* `Schema.applyFlags_perm`: the order of bindings does not matter for their application.
* `Channel.given_groups`: what the locator is given by groups, each by itself.
* `Startup.run_reordered`: the same arguments in another order.
-/

namespace BootConfig

open Options (Assignments CommandLine CommandOption OptionGroup OptionMeaning Reading)

/-! ## Groups in another order -/

namespace Options

variable {α : Type}

/-- Whether a group is one of the option with some spellings. -/
def OptionGroup.isOf (spellings : List String) (g : OptionGroup α) : Bool :=
  g.spelled.option.spellings == spellings

/-- Groups in another order, in which those of each option stand in the order that they have had. -/
structure Reorders (gs gs' : List (OptionGroup α)) : Prop where
  perm : gs'.Perm gs
  same : ∀ spellings,
    gs'.filter (OptionGroup.isOf spellings) = gs.filter (OptionGroup.isOf spellings)

theorem filterMap_of_isOf {β : Type} {f : OptionGroup α → Option β} {spellings : List String}
    {gs : List (OptionGroup α)}
    (h : ∀ g ∈ gs, g.spelled.option.spellings ≠ spellings → f g = none) :
    (gs.filter (OptionGroup.isOf spellings)).filterMap f = gs.filterMap f := by
  rw [List.filterMap_filter]
  refine List.filterMap_congr fun g hg => ?_
  by_cases hg' : g.spelled.option.spellings = spellings
  · exact if_pos (by rw [OptionGroup.isOf, hg', beq_self_eq_true])
  · rw [h g hg hg', ite_self]

/-- What only groups of one option have a part in is the same in another order. -/
theorem Reorders.filterMap {β : Type} {gs gs' : List (OptionGroup α)} (h : Reorders gs gs')
    {f : OptionGroup α → Option β} (spellings : List String)
    (hf : ∀ g ∈ gs, g.spelled.option.spellings ≠ spellings → f g = none) :
    gs'.filterMap f = gs.filterMap f := by
  rw [← filterMap_of_isOf hf, ← h.same,
    filterMap_of_isOf fun g hg => hf g (h.perm.mem_iff.mp hg)]

end Options

/-! ## The application of flags -/

/-- Bindings of distinct paths are applied in the order of the paths, in whatever order they are
given. -/
theorem Schema.applyFlags_perm (s : Schema) (config : Setting) {as bs : Assignments}
    (has : as.Distinct) (h : bs.Perm as) : s.applyFlags config bs = s.applyFlags config as := by
  have hbs : bs.Distinct := (h.map Prod.fst).nodup_iff.mpr has
  have hsorted : Flags.sorted bs = Flags.sorted as :=
    List.Perm.eq_of_pairwise (fun _ _ _ _ hab hba => (String.lt_asymm hab hba).elim)
      (Flags.sorted_ascends hbs) (Flags.sorted_ascends has)
      ((Flags.sorted_perm bs).trans (h.trans (Flags.sorted_perm as).symm))
  exact congrArg (Flags.applyEach s config []) hsorted

/-! ## What groups give to the locator -/

namespace Locator

open Options (classify)

variable {gs : List (OptionGroup OptionMeaning)}

theorem readings_of_classify {rs : List (String × Reading OptionMeaning)}
    (h : ∀ r ∈ rs, classify fullTable true r.1 = .ok r.2) : Readings (rs.map Prod.fst) rs := by
  rw [Readings, List.forall₂_map_left_iff, List.forall₂_same]
  exact fun r hr => ⟨rfl, h r hr⟩

theorem classify_readings (hstands : ∀ g ∈ gs, g.Stands fullTable true) :
    ∀ r ∈ gs.flatMap OptionGroup.readings, classify fullTable true r.1 = .ok r.2 := by
  intro r hr
  obtain ⟨g, hg, hr⟩ := List.mem_flatMap.mp hr
  exact (hstands g hg r hr).2

/-- What the full table reads as a value is no startup option. -/
theorem mention?_of_plain {o : StartupOption} {arg : String}
    (h : classify fullTable true arg = .ok .plain) : o.mention? arg = none := by
  cases hmention : o.mention? arg with
  | none => rfl
  | some attached =>
    obtain ⟨s, hs, _⟩ := classify_of_mention? hmention
    rw [h] at hs
    cases hs

theorem Channel.given_values {β : Type} (c : Channel β) {values : List String}
    (h : ∀ v ∈ values, c.option.mention? v = none) (rest : List String) :
    given c.give? (values ++ rest) = given c.give? rest := by
  induction values with
  | nil => rfl
  | cons v vs ih =>
    obtain ⟨hv, hvs⟩ := List.forall_mem_cons.mp h
    rw [List.cons_append, given, c.give?_none _ _ hv, ih hvs]
    simp

/-- A group gives the locator the values of its option if its first argument is the startup option
as it stands, and no other group has a part in this. The induction is on the groups: all arguments
behind the first one are read by themselves, so none of them is ambiguous and the group is live. -/
theorem Channel.given_groups {β : Type} (c : Channel β) (hfull : ∀ g ∈ gs, g.Full)
    (hstands : ∀ g ∈ gs, g.Stands fullTable true) :
    given c.give? (gs.flatMap OptionGroup.args) = gs.filterMap fun g =>
      (c.option.mention? g.arg).map fun _ => c.valueOf g.occurrence.values := by
  induction gs with
  | nil => rfl
  | cons g rest ih =>
    have hclassify := classify_readings hstands
    have hplain := Options.plain_or_option (g :: rest)
    rw [List.flatMap_cons, OptionGroup.readings, List.cons_append] at hclassify hplain
    obtain ⟨hoption, hbehind⟩ := List.forall_mem_cons.mp hclassify
    obtain ⟨-, hplain⟩ := List.forall_mem_cons.mp hplain
    obtain ⟨hg, hfull⟩ := List.forall_mem_cons.mp hfull
    obtain ⟨-, hstands⟩ := List.forall_mem_cons.mp hstands
    have hargs : ((g.values.map fun v => (v, Reading.plain)) ++
        rest.flatMap OptionGroup.readings).map Prod.fst =
          g.values ++ rest.flatMap OptionGroup.args :=
      (List.cons_eq_cons.mp (Options.map_fst_readings (g :: rest))).2
    have hreadings := readings_of_classify hbehind
    rw [hargs] at hreadings
    have hlive := Readings.isLive (f := id) (fun _ => .inl rfl) hreadings
    rw [List.map_id] at hlive
    have hvalues : ∀ v ∈ g.values, c.option.mention? v = none := fun v hv =>
      mention?_of_plain (hbehind (v, .plain) (List.mem_append_left _ (List.mem_map_of_mem hv)))
    rw [List.flatMap_cons, OptionGroup.args, List.cons_append, given, if_pos hlive,
      c.given_values hvalues, ih hfull hstands, List.filterMap_cons]
    cases hmention : c.option.mention? g.arg with
    | none =>
      rw [c.give?_none _ _ hmention]
      rfl
    | some attached =>
      obtain ⟨s, hs, hentry, rfl⟩ := classify_of_mention? hmention
      rw [hoption] at hs
      cases hs
      have hgive := c.give?_of_occurrence (f := id) (fun _ => .inl rfl) hreadings hplain hentry
        hmention (hg.occurrence? (Options.following_readings rest))
      rw [List.map_id] at hgive
      rw [hgive]
      rfl

/-- What is located does not change if the groups are put into another order. -/
theorem locate_reordered {gs' : List (OptionGroup OptionMeaning)} (h : Options.Reorders gs gs')
    (hfull : ∀ g ∈ gs, g.Full) (hstands : ∀ g ∈ gs, g.Stands fullTable true) :
    locate (gs'.flatMap OptionGroup.args) = locate (gs.flatMap OptionGroup.args) := by
  have hgiven : ∀ {β : Type} (c : Channel β),
      given c.give? (gs'.flatMap OptionGroup.args) =
        given c.give? (gs.flatMap OptionGroup.args) := by
    intro β c
    rw [c.given_groups hfull hstands,
      c.given_groups (fun g hg => hfull g (h.perm.mem_iff.mp hg))
        (fun g hg => hstands g (h.perm.mem_iff.mp hg))]
    -- the first argument of a group is a startup option only if the group is one of that option
    refine h.filterMap c.option.entry.spellings fun g hg hother => ?_
    cases hmention : c.option.mention? g.arg with
    | none => rfl
    | some attached =>
      have hoption : classify fullTable true g.arg = .ok (.option g.spelled) :=
        (hstands g hg _ List.mem_cons_self).2
      obtain ⟨s, hs, hentry, _⟩ := classify_of_mention? hmention
      rw [hoption] at hs
      cases hs
      exact (hother (congrArg _ hentry)).elim
  have hpaths : givenPaths (gs'.flatMap OptionGroup.args) =
      givenPaths (gs.flatMap OptionGroup.args) :=
    hgiven pathChannel
  have hswitches : givenSwitches (gs'.flatMap OptionGroup.args) =
      givenSwitches (gs.flatMap OptionGroup.args) :=
    hgiven switchChannel
  rw [locate_eq_last_live, locate_eq_last_live, hpaths, hswitches]

end Locator

/-! ## Arguments in another order -/

namespace Startup

open Locator (fullTable locate)

/-- The path that an option sets. -/
def settingPath? (o : CommandOption) : Option String :=
  match o.meaning.purpose with
  | .setting path => some path
  | _ => none

theorem settingPath?_of_setting {o : CommandOption} {path : String}
    (h : o.meaning.purpose = .setting path) : settingPath? o = some path := by
  rw [settingPath?, h]

/-- On the full command line every option that does not ask for a text takes values. -/
theorem takesValues_fullTable : ∀ o ∈ fullTable, (∃ path, o.meaning.purpose = .setting path) ∨
    o.meaning.purpose = .ignored → o.arity ≠ .none := by
  have hall : (fullTable.all fun o => o.arity != .none ||
      !((settingPath? o).isSome || o.meaning.purpose == .ignored)) = true := by decide +kernel
  intro o ho hpurpose
  have hpurpose : ((settingPath? o).isSome || o.meaning.purpose == .ignored) = true := by
    rcases hpurpose with ⟨path, hpath⟩ | hignored
    · rw [settingPath?_of_setting hpath]
      rfl
    · rw [hignored]
      exact Bool.or_true _
  have ho := List.all_eq_true.mp hall o ho
  rw [hpurpose, Bool.not_true, Bool.or_false] at ho
  exact bne_iff_ne.mp ho

/-- On the full command line one option sets a path. -/
theorem spellings_of_setting : ∀ o ∈ fullTable, ∀ path, o.meaning.purpose = .setting path →
    o.spellings = [Flags.spelling path] := by
  have hall : (fullTable.all fun o => (settingPath? o).all fun path =>
      o.spellings == [Flags.spelling path]) = true := by decide +kernel
  intro o ho path hpurpose
  have ho := List.all_eq_true.mp hall o ho
  rw [settingPath?_of_setting hpurpose] at ho
  exact eq_of_beq ho

/-- **The order of different options does not matter.** An argument list that the full command line
accepts is the list of its groups, each of which is an option with the values that it takes. In
every order of the groups in which those of one option stay in their order the arguments are
accepted, with the same values for the same paths; the same is located; so a startup comes to the
same, from whatever it starts, and the application of the values comes to the same, be it that all
are accepted or that one of them is refused. -/
theorem run_reordered {args : List String} {as : Assignments}
    (h : Program.fullCommandLine.read args = .settings as) :
    let gs := Program.fullCommandLine.groups args
    gs.flatMap OptionGroup.args = args ∧
      Options.scan fullTable true args = .ok ⟨gs.map OptionGroup.occurrence, [], none⟩ ∧
      ∀ gs', Options.Reorders gs gs' → ∃ as',
        Program.fullCommandLine.read (gs'.flatMap OptionGroup.args) = .settings as' ∧
        (∀ path, as'.lookup path = as.lookup path) ∧ as'.Perm as ∧
        locate (gs'.flatMap OptionGroup.args) = locate args ∧
        ∀ s files env testMode c,
          run s files env (gs'.flatMap OptionGroup.args) testMode c =
            run s files env args testMode c ∧
          s.applyFlags (run s files env (gs'.flatMap OptionGroup.args) testMode c).context.config
            as' = s.applyFlags (run s files env args testMode c).context.config as := by
  intro gs
  obtain ⟨hargs, hscan, hfull, hstands, hsettles⟩ :=
    CommandLine.groups_of_read takesValues_fullTable h
  refine ⟨hargs, hscan, fun gs' hreorders => ?_⟩
  have hmem : ∀ g ∈ gs', g ∈ gs := fun g hg => hreorders.perm.mem_iff.mp hg
  obtain ⟨as', hread, hdistinct', hlookup'⟩ := CommandLine.read_groups
    (c := Program.fullCommandLine) (fun g hg => hfull g (hmem g hg))
    (fun g hg => hstands g (hmem g hg)) (fun g hg => hsettles g (hmem g hg))
  -- the arguments as they stand are accepted by the same rule, which tells what they bind
  obtain ⟨bs, hread', hdistinct, hlookup⟩ := CommandLine.read_groups hfull hstands hsettles
  rw [hargs, h] at hread'
  cases hread'
  have hsame : ∀ path, as'.lookup path = as.lookup path := by
    intro path
    rw [hlookup', hlookup]
    refine congrArg List.getLast? (hreorders.filterMap [Flags.spelling path] ?_)
    intro g hg hother
    have hoption : g.spelled.option ∈ fullTable :=
      Options.classify_option_mem (hstands g hg _ List.mem_cons_self).2
    refine if_neg fun hpurpose => hother ?_
    exact spellings_of_setting _ hoption path hpurpose
  have hperm : as'.Perm as := hdistinct'.perm hdistinct hsame
  have hlocate : locate (gs'.flatMap OptionGroup.args) = locate args := by
    rw [Locator.locate_reordered hreorders hfull hstands, hargs]
  have hrun : ∀ s files env testMode c,
      run s files env (gs'.flatMap OptionGroup.args) testMode c =
        run s files env args testMode c := by
    intro s files env testMode c
    unfold run
    rw [hlocate]
  refine ⟨as', hread, hsame, hperm, hlocate, fun s files env testMode c =>
    ⟨hrun s files env testMode c, ?_⟩⟩
  rw [hrun]
  exact s.applyFlags_perm _ hdistinct hperm

/-- Four groups, two of them of one option; the switch for placeholders comes to stand in front, and
the path behind one of the log levels. -/
theorem run_reordered_switchInFront :
    let args := ["-config.file", "cfg.yaml", "--log.level", "debug", "--config.expand-env",
      "--log.lev=error"]
    let args' := ["--config.expand-env", "--log.level", "debug", "-config.file", "cfg.yaml",
      "--log.lev=error"]
    ∃ as gs', Program.fullCommandLine.read args = .settings as ∧
      Options.Reorders (Program.fullCommandLine.groups args) gs' ∧
      gs'.flatMap OptionGroup.args = args' ∧ ∃ as',
        Program.fullCommandLine.read args' = .settings as' ∧
        (∀ path, as'.lookup path = as.lookup path) ∧ as'.Perm as ∧ locate args' = locate args ∧
        ∀ s files env testMode c,
          run s files env args' testMode c = run s files env args testMode c ∧
          s.applyFlags (run s files env args' testMode c).context.config as' =
            s.applyFlags (run s files env args testMode c).context.config as := by
  intro args args'
  have haccepted : Program.fullCommandLine.accepts args = true := by decide +kernel
  have hgroups : (Program.fullCommandLine.groups args).map
      (fun g => (g.args, g.spelled.option.spellings)) = [
        (["-config.file", "cfg.yaml"], ["--config.file", "-config.file"]),
        (["--log.level", "debug"], ["--log.level"]),
        (["--config.expand-env"], ["--config.expand-env", "-config.expand-env"]),
        (["--log.lev=error"], ["--log.level"])] := by decide +kernel
  obtain ⟨as, has⟩ := CommandLine.accepts_iff.mp haccepted
  obtain ⟨-, -, hreordered⟩ := run_reordered has
  obtain ⟨path, _, hgs, hpath, hgroups⟩ := List.map_eq_cons_iff.mp hgroups
  obtain ⟨debug, _, rfl, hdebug, hgroups⟩ := List.map_eq_cons_iff.mp hgroups
  obtain ⟨switch, _, rfl, hswitch, hgroups⟩ := List.map_eq_cons_iff.mp hgroups
  obtain ⟨error, _, rfl, herror, hgroups⟩ := List.map_eq_cons_iff.mp hgroups
  obtain rfl := List.map_eq_nil_iff.mp hgroups
  simp only [Prod.mk.injEq] at hpath hdebug hswitch herror
  have hreorders : Options.Reorders (Program.fullCommandLine.groups args)
      [switch, debug, path, error] := by
    rw [hgs]
    refine ⟨?_, fun spellings => ?_⟩
    · exact (List.Perm.swap debug switch _).trans (((List.Perm.swap path switch _).cons debug).trans
        (List.Perm.swap path debug _))
    · -- the log levels stay in their order, and of each other option there is one group
      by_cases hlevel : ["--log.level"] = spellings
      · subst hlevel
        simp [OptionGroup.isOf, hpath.2, hdebug.2, hswitch.2, herror.2]
      · by_cases hfile : ["--config.file", "-config.file"] = spellings
        · subst hfile
          simp [OptionGroup.isOf, hpath.2, hdebug.2, hswitch.2, herror.2]
        · simp [OptionGroup.isOf, List.filter_cons, hpath.2, hdebug.2, hswitch.2, herror.2, hlevel,
            hfile]
  have hargs' : [switch, debug, path, error].flatMap OptionGroup.args = args' := by
    simp only [List.flatMap_cons, List.flatMap_nil, hpath.1, hdebug.1, hswitch.1, herror.1]
    rfl
  obtain ⟨as', hread, hlookup, hperm, hlocate, hrun⟩ := hreordered _ hreorders
  rw [hargs'] at hread hlocate hrun
  exact ⟨as, _, has, hreorders, hargs', as', hread, hlookup, hperm, hlocate, hrun⟩

end Startup

end BootConfig
