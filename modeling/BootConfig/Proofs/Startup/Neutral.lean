import BootConfig.Proofs.Startup.Reordering

/-!
# Startup options without effect

When the full command line is read, the startup options have been located before, and change
nothing: they can be left out of an argument list that is accepted, or put in between its groups.

* `CommandLine.read_of_effective`: what is read comes from the groups with an effect.
* `Startup.Given`: the arguments for a startup option.
* `Startup.read_neutral`: what is read with and without such arguments.
-/

namespace BootConfig

open Options (Assignments CommandLine Occurrence OptionGroup OptionMeaning classify joined)

/-! ## Groups with an effect -/

namespace Options

/-- Whether an option that occurs is more than accepted. -/
def Occurrence.isEffective (o : Occurrence OptionMeaning) : Bool :=
  o.option.meaning.purpose != .ignored

/-- The groups of options that are more than accepted. -/
def effective (gs : List (OptionGroup OptionMeaning)) : List (OptionGroup OptionMeaning) :=
  gs.filter fun g => g.occurrence.isEffective

theorem effective_append (gs gs' : List (OptionGroup OptionMeaning)) :
    effective (gs ++ gs') = effective gs ++ effective gs' :=
  List.filter_append ..

namespace CommandLine

/-- An option without effect is passed over if its value can be read. -/
theorem follow_effective {os : List (Occurrence OptionMeaning)} (h : ∀ o ∈ os, Settles o)
    (as : Assignments) : follow as os = follow as (os.filter Occurrence.isEffective) := by
  induction os generalizing as with
  | nil => rfl
  | cons o rest ih =>
    obtain ⟨⟨hpurpose, v, hv⟩, hrest⟩ := List.forall_mem_cons.mp h
    have hread : o.option.meaning.conversion.readAll o.option.arity o.values = .ok v := hv
    rcases hpurpose with ⟨path, hpurpose⟩ | hpurpose
    · have heffective : o.isEffective = true := by simp [Occurrence.isEffective, hpurpose]
      rw [List.filter_cons_of_pos heffective, follow, follow, hpurpose]
      simp only [hread, ih hrest]
    · have hignored : ¬ o.isEffective = true := by simp [Occurrence.isEffective, hpurpose]
      rw [List.filter_cons_of_neg hignored, follow, hpurpose]
      simp only [hread, ih hrest]

variable {c : CommandLine} {gs gs' : List (OptionGroup OptionMeaning)}

theorem read_of_follow {as : Assignments} (hfull : ∀ g ∈ gs, g.Full)
    (hstands : ∀ g ∈ gs, g.Stands c.options true)
    (h : follow [] (gs.map OptionGroup.occurrence) = .ok as) :
    c.read (gs.flatMap OptionGroup.args) = .settings as := by
  unfold read
  rw [scan_groups hfull hstands]
  simp only [h]
  rfl

/-- What full groups are read as depends only on those with an effect. -/
theorem read_of_effective (hfull : ∀ g ∈ gs ++ gs', g.Full)
    (hstands : ∀ g ∈ gs ++ gs', g.Stands c.options true)
    (hsettles : ∀ g ∈ gs ++ gs', Settles g.occurrence) (h : effective gs' = effective gs) :
    c.read (gs'.flatMap OptionGroup.args) = c.read (gs.flatMap OptionGroup.args) := by
  obtain ⟨hfull, hfull'⟩ := List.forall_mem_append.mp hfull
  obtain ⟨hstands, hstands'⟩ := List.forall_mem_append.mp hstands
  obtain ⟨hsettles, hsettles'⟩ := List.forall_mem_append.mp hsettles
  have hoccurrences : ∀ {xs : List (OptionGroup OptionMeaning)},
      (∀ g ∈ xs, Settles g.occurrence) → ∀ o ∈ xs.map OptionGroup.occurrence, Settles o :=
    fun hxs => List.forall_mem_map.mpr hxs
  have hfilter : ∀ xs : List (OptionGroup OptionMeaning),
      (xs.map OptionGroup.occurrence).filter Occurrence.isEffective =
        (effective xs).map OptionGroup.occurrence := fun xs => List.filter_map ..
  have hsame : follow [] (gs'.map OptionGroup.occurrence) =
      follow [] (gs.map OptionGroup.occurrence) := by
    rw [follow_effective (hoccurrences hsettles'), follow_effective (hoccurrences hsettles),
      hfilter, hfilter, h]
  obtain ⟨as, has⟩ := follow_of_settles (hoccurrences hsettles) []
  rw [read_of_follow hfull hstands has, read_of_follow hfull' hstands' (hsame.trans has)]

end CommandLine

end Options

/-! ## Startup options -/

namespace Startup

open Locator (StartupOption fullTable)

/-- The arguments for a startup option, in one of its spellings in full: the option for the file
with a path, the switch alone or with a truth word. What stands behind the option as its value is an
argument that is read as a value, which every truth word is. -/
inductive Given : List String → Prop where
  | path {s v : String} (hs : s ∈ StartupOption.configFile.spellings)
      (hv : classify fullTable true v = .ok .plain) : Given [s, v]
  | attachedPath {s : String} (v : String) (hs : s ∈ StartupOption.configFile.spellings) :
      Given [s ++ "=" ++ v]
  | switch {s : String} (hs : s ∈ StartupOption.expandEnv.spellings) : Given [s]
  | word {s w : String} {b : Bool} (hs : s ∈ StartupOption.expandEnv.spellings)
      (hw : Truth.ofWord? w = some b) : Given [s, w]
  | attachedWord {s w : String} {b : Bool} (hs : s ∈ StartupOption.expandEnv.spellings)
      (hw : Truth.ofWord? w = some b) : Given [s ++ "=" ++ w]

/-- A group that an argument list can have anywhere without effect. -/
structure IsIgnored (g : OptionGroup OptionMeaning) : Prop where
  full : g.Full
  stands : g.Stands fullTable true
  settles : CommandLine.Settles g.occurrence
  ignored : g.occurrence.isEffective = false

theorem entry_ignored (o : StartupOption) : o.entry.meaning.purpose = .ignored := by
  cases o <;> rfl

theorem entry_takesValues (o : StartupOption) : o.entry.arity ≠ .none := by
  cases o <;> decide

/-- On the full command line the startup options are those that are no more than accepted. -/
theorem ignored_iff : ∀ f ∈ fullTable,
    f.meaning.purpose = .ignored ↔ ∃ o : StartupOption, f = o.entry := by
  have hall : (Program.commandLine.options.all fun f => f.meaning.purpose != .ignored) = true := by
    decide +kernel
  refine fun f hf => ⟨fun hignored => ?_, fun ⟨o, ho⟩ => ho ▸ entry_ignored o⟩
  rw [Locator.fullTable_eq] at hf
  rcases List.mem_append.mp hf with hf | hf
  · exact (bne_iff_ne.mp (List.all_eq_true.mp hall f hf) hignored).elim
  · exact Locator.mem_startupTable hf

theorem ne_separator_of_classify {arg : String} {r : Options.Reading OptionMeaning}
    (h : classify fullTable true arg = .ok r) : arg ≠ Options.separator := by
  rintro rfl
  have hambiguous : (classify fullTable true Options.separator).isOk = false := by decide +kernel
  rw [h] at hambiguous
  cases hambiguous

/-- A startup option in full with what is attached to it, and behind it as many values as it then
takes, is a group without effect if the values can be read. -/
theorem isIgnored_of_spelling {o : StartupOption} {s : String} (hs : s ∈ o.spellings)
    (attached : Option String) {values : List String}
    (hcount : match attached with
      | some _ => values = []
      | none => Options.valueCount o.entry.arity values.length = some values.length)
    (hvalues : ∀ v ∈ values, classify fullTable true v = .ok .plain)
    (hread : ∃ v, CommandLine.valueOf
      ⟨o.entry, (attached.map Options.attachedValues).getD values⟩ = .ok v) :
    ∃ g : OptionGroup OptionMeaning, g.args = joined s attached :: values ∧ IsIgnored g := by
  obtain ⟨⟨_, spelling, attached⟩, hoption, rfl, rfl⟩ :=
    Locator.classify_of_mention? (StartupOption.mention?_joined attached hs)
  refine ⟨⟨joined s attached, ⟨o.entry, spelling, attached⟩, values⟩, rfl,
    ⟨entry_takesValues o, hcount⟩, fun r hr => ?_, ⟨.inr (entry_ignored o), ?_⟩, ?_⟩
  · rcases List.mem_cons.mp hr with rfl | hr
    · exact ⟨ne_separator_of_classify hoption, hoption⟩
    · obtain ⟨v, hv, rfl⟩ := List.mem_map.mp hr
      exact ⟨ne_separator_of_classify (hvalues v hv), hvalues v hv⟩
  · cases attached with
    | none => exact hread
    | some value => exact hread
  · show (o.entry.meaning.purpose != .ignored) = false
    rw [entry_ignored]
    rfl

theorem reads_word {w : String} {b : Bool} (h : Truth.ofWord? w = some b) :
    CommandLine.valueOf ⟨StartupOption.expandEnv.entry, [w]⟩ = .ok (.bool b) := by
  show (Options.Conversion.truth.read w).map Value.scalar = _
  simp only [Options.Conversion.read, h]
  rfl

/-- Whatever the value, the arguments for a startup option are a group without effect. -/
theorem Given.group {args : List String} (h : Given args) :
    ∃ g : OptionGroup OptionMeaning, g.args = args ∧ IsIgnored g := by
  cases h with
  | path hs hv =>
    exact isIgnored_of_spelling hs none rfl (List.forall_mem_singleton.mpr hv) ⟨_, rfl⟩
  | attachedPath v hs =>
    refine isIgnored_of_spelling hs (some v) rfl (List.forall_mem_nil _) ?_
    -- two hyphens in the place of the path are no path, but they are accepted
    show ∃ value, CommandLine.valueOf ⟨_, Options.attachedValues v⟩ = .ok value
    unfold Options.attachedValues
    split
    · exact ⟨_, rfl⟩
    · exact ⟨_, rfl⟩
  | switch hs => exact isIgnored_of_spelling hs none rfl (List.forall_mem_nil _) ⟨_, rfl⟩
  | @word s w b hs hw =>
    have hplain : classify fullTable true w = .ok .plain := by
      refine Options.classify_of_not_hyphen (eq_false_of_ne_true fun hhyphen => ?_)
      rw [Locator.ofWord?_of_hyphen hhyphen] at hw
      cases hw
    exact isIgnored_of_spelling hs none rfl (List.forall_mem_singleton.mpr hplain)
      ⟨_, reads_word hw⟩
  | @attachedWord s w b hs hw =>
    refine isIgnored_of_spelling hs (some w) rfl (List.forall_mem_nil _) ?_
    have hne : ¬(w == Options.separator) = true := by
      rw [beq_iff_eq]
      rintro rfl
      rw [Locator.ofWord?_of_hyphen (by decide)] at hw
      cases hw
    exact ⟨_, by
      show CommandLine.valueOf ⟨_, Options.attachedValues w⟩ = _
      rw [Options.attachedValues, if_neg hne, reads_word hw]⟩

/-- **Startup options change nothing when all options are read.** An argument list that the full
command line accepts is the list of its groups, each of which is an option with the values that it
takes. If groups of startup options are left out, any of them or all, the arguments are accepted
with the same values for the same paths; and so they are if the arguments for a startup option are
put in front of any group or behind the last one. -/
theorem read_neutral {args : List String} {as : Assignments}
    (h : Program.fullCommandLine.read args = .settings as) :
    let gs := Program.fullCommandLine.groups args
    gs.flatMap OptionGroup.args = args ∧
      Options.scan fullTable true args = .ok ⟨gs.map OptionGroup.occurrence, [], none⟩ ∧
      (∀ g ∈ gs, g.occurrence.isEffective = false ↔
        ∃ o : StartupOption, g.spelled.option = o.entry) ∧
      (∀ gs', gs'.Sublist gs → Options.effective gs' = Options.effective gs →
        Program.fullCommandLine.read (gs'.flatMap OptionGroup.args) = .settings as) ∧
      ∀ before after, gs = before ++ after → ∀ given, Given given →
        Program.fullCommandLine.read
          (before.flatMap OptionGroup.args ++ given ++ after.flatMap OptionGroup.args) =
            .settings as := by
  intro gs
  obtain ⟨hargs, hscan, hfull, hstands, hsettles⟩ :=
    CommandLine.groups_of_read takesValues_fullTable h
  have hread : Program.fullCommandLine.read (gs.flatMap OptionGroup.args) = .settings as := by
    rw [hargs, h]
  refine ⟨hargs, hscan, fun g hg => ?_, fun gs' hsub heffective => ?_,
    fun before after hgs given hgiven => ?_⟩
  · have hoption : g.spelled.option ∈ fullTable :=
      Options.classify_option_mem (hstands g hg _ List.mem_cons_self).2
    rw [← ignored_iff _ hoption]
    exact bne_eq_false_iff_eq
  · have hmem : ∀ g ∈ gs ++ gs', g ∈ gs := fun g hg =>
      (List.mem_append.mp hg).elim id fun hg => hsub.subset hg
    rw [CommandLine.read_of_effective (fun g hg => hfull g (hmem g hg))
      (fun g hg => hstands g (hmem g hg)) (fun g hg => hsettles g (hmem g hg)) heffective, hread]
  · obtain ⟨g, rfl, hg⟩ := hgiven.group
    have hmem : ∀ g' ∈ gs ++ (before ++ [g] ++ after), g' ∈ gs ∨ g' = g := by
      intro g' hg'
      simp only [hgs, List.mem_append, List.mem_singleton] at hg' ⊢
      tauto
    have heffective : Options.effective (before ++ [g] ++ after) = Options.effective gs := by
      have hnone : Options.effective [g] = [] := by simp [Options.effective, hg.ignored]
      rw [Options.effective_append, Options.effective_append, hnone, List.append_nil, hgs,
        Options.effective_append]
    have hsplit : (before ++ [g] ++ after).flatMap OptionGroup.args =
        before.flatMap OptionGroup.args ++ g.args ++ after.flatMap OptionGroup.args := by
      simp
    rw [← hsplit, CommandLine.read_of_effective
      (fun g' hg' => (hmem g' hg').elim (hfull g') fun heq => heq ▸ hg.full)
      (fun g' hg' => (hmem g' hg').elim (hstands g') fun heq => heq ▸ hg.stands)
      (fun g' hg' => (hmem g' hg').elim (hsettles g') fun heq => heq ▸ hg.settles) heffective,
      hread]

/-- The file stands behind a list of any length; without the startup options, and with a switch more
at the end of the list, the same is read. -/
theorem read_neutral_behindList :
    let args := ["--blocks-storage.block-ranges", "7200", "14400", "-config.file", "cfg.yaml",
      "--config.exp=no", "--log.level", "debug"]
    ∃ as, Program.fullCommandLine.read args = .settings as ∧
      Program.fullCommandLine.read
        ["--blocks-storage.block-ranges", "7200", "14400", "--log.level", "debug"] =
          .settings as ∧
      Program.fullCommandLine.read ["--blocks-storage.block-ranges", "7200", "14400",
        "-config.expand-env", "TRUE", "-config.file", "cfg.yaml", "--config.exp=no", "--log.level",
        "debug"] = .settings as := by
  intro args
  have haccepted : Program.fullCommandLine.accepts args = true := by decide +kernel
  have hgroups : (Program.fullCommandLine.groups args).map
      (fun g => (g.args, g.occurrence.isEffective)) = [
        (["--blocks-storage.block-ranges", "7200", "14400"], true),
        (["-config.file", "cfg.yaml"], false),
        (["--config.exp=no"], false),
        (["--log.level", "debug"], true)] := by decide +kernel
  obtain ⟨as, has⟩ := CommandLine.accepts_iff.mp haccepted
  obtain ⟨-, -, -, hwithout, hwith⟩ := read_neutral has
  obtain ⟨ranges, _, hgs, hranges, hgroups⟩ := List.map_eq_cons_iff.mp hgroups
  obtain ⟨path, _, rfl, hpath, hgroups⟩ := List.map_eq_cons_iff.mp hgroups
  obtain ⟨switch, _, rfl, hswitch, hgroups⟩ := List.map_eq_cons_iff.mp hgroups
  obtain ⟨level, _, rfl, hlevel, hgroups⟩ := List.map_eq_cons_iff.mp hgroups
  obtain rfl := List.map_eq_nil_iff.mp hgroups
  simp only [Prod.mk.injEq] at hranges hpath hswitch hlevel
  refine ⟨as, has, ?_, ?_⟩
  · have hread := hwithout [ranges, level] (by rw [hgs]; simp) (by
      rw [hgs]
      simp [Options.effective, hranges.2, hpath.2, hswitch.2, hlevel.2])
    simpa [hranges.1, hlevel.1] using hread
  · have hread := hwith [ranges] [path, switch, level] hgs ["-config.expand-env", "TRUE"]
      (.word (b := true) (by decide) (by decide +kernel))
    simpa [hranges.1, hpath.1, hswitch.1, hlevel.1] using hread

end Startup

end BootConfig
