import BootConfig.Program
import BootConfig.Proofs.Locator.Occurrence

/-!
# The startup options on the full command line

The full command line has the startup options among those for settings. It reads an argument with
two hyphens as an option that it is short for, which the locator never does.

* `writtenOut`: an argument with such a shortening written out.
* `classify_startup`: what is read as a startup option is one for the locator, once written out.
* `classify_plain`: what is read as a value is written out already, and a value for the locator.
-/

namespace BootConfig.Locator

open Options (CommandOption NoEquals OptionForm OptionMeaning Reading Spelled Table candidates
  classify find? joined named? parts separator spellings startsWith starts mem_starts)

/-! ## Shortenings -/

def StartupOption.shortened (o : StartupOption) : List String := o.shortSpellings.map ("-" ++ ·)

/-- An argument that is short for a startup option after two hyphens becomes the option in full;
what is attached to it stays. -/
def writtenOut (arg : String) : String :=
  if (parts arg).1 ∈ StartupOption.configFile.shortened then
    joined ("--" ++ fileOption) (parts arg).2
  else if (parts arg).1 ∈ StartupOption.expandEnv.shortened then
    joined ("--" ++ expandOption) (parts arg).2
  else arg

theorem noEquals_shortened (o : StartupOption) : ∀ s ∈ o.shortened, '=' ∉ s.toList := by
  cases o <;> decide

theorem full_mem_spellings (o : StartupOption) : "--" ++ o.name ∈ o.spellings := by
  simp [StartupOption.spellings]

/-- An argument is short for one startup option after two hyphens, or is written out. -/
theorem writtenOut_cases (arg : String) :
    (∃ (o : StartupOption) (attached : Option String), ∃ start ∈ o.shortened,
      arg = joined start attached ∧ writtenOut arg = joined ("--" ++ o.name) attached) ∨
    (writtenOut arg = arg ∧ ∀ o : StartupOption, (parts arg).1 ∉ o.shortened) := by
  have harg := (Options.joined_parts arg).2
  unfold writtenOut
  split
  · rename_i hmem
    exact .inl ⟨.configFile, _, _, hmem, harg.symm, rfl⟩
  · rename_i hfile
    split
    · rename_i hmem
      exact .inl ⟨.expandEnv, _, _, hmem, harg.symm, rfl⟩
    · rename_i hexpand
      refine .inr ⟨rfl, fun o => ?_⟩
      cases o
      · exact hfile
      · exact hexpand

theorem writtenOut_shortened {o : StartupOption} {start : String} (attached : Option String)
    (h : start ∈ o.shortened) :
    writtenOut (joined start attached) = joined ("--" ++ o.name) attached := by
  have hparts := Options.parts_joined attached (noEquals_shortened o start h)
  unfold writtenOut
  rw [hparts]
  cases o with
  | configFile => rw [if_pos h]; rfl
  | expandEnv =>
    have hdisjoint : ∀ s ∈ StartupOption.expandEnv.shortened,
        s ∉ StartupOption.configFile.shortened := by
      decide
    rw [if_neg (hdisjoint start h), if_pos h]
    rfl

namespace StartupOption

/-- A mention in its two parts: a spelling, which has to be in full if something is attached. -/
theorem mention?_joined {o : StartupOption} {start : String} (attached : Option String)
    (h : start ∈ o.spellings) : o.mention? (joined start attached) = some attached := by
  cases attached with
  | none => exact mention?_alone_iff.mpr (List.mem_append_left _ h)
  | some value => exact mention?_attached_iff.mpr ⟨start, h, rfl⟩

theorem eq_joined_of_mention? {o : StartupOption} {arg : String} {attached : Option String}
    (h : o.mention? arg = some attached) :
    ∃ start, arg = joined start attached ∧
      (start ∈ o.spellings ∨ (attached = none ∧ start ∈ o.shortSpellings)) := by
  cases attached with
  | none =>
    rcases List.mem_append.mp (mention?_alone_iff.mp h) with hmem | hmem
    · exact ⟨arg, rfl, .inl hmem⟩
    · exact ⟨arg, rfl, .inr ⟨rfl, hmem⟩⟩
  | some value =>
    obtain ⟨s, hs, harg⟩ := mention?_attached_iff.mp h
    exact ⟨s, harg, .inl hs⟩

end StartupOption

/-- What the locator takes for a startup option is written out already. -/
theorem writtenOut_of_mention? {o : StartupOption} {arg : String} {attached : Option String}
    (h : o.mention? arg = some attached) : writtenOut arg = arg := by
  have hdisjoint : ∀ s ∈ o.spellings ++ o.shortSpellings, '=' ∉ s.toList ∧
      s ∉ StartupOption.configFile.shortened ∧ s ∉ StartupOption.expandEnv.shortened := by
    cases o <;> decide
  obtain ⟨start, rfl, hstart⟩ := StartupOption.eq_joined_of_mention? h
  have hmem : start ∈ o.spellings ++ o.shortSpellings := by
    rcases hstart with hstart | ⟨_, hstart⟩
    · exact List.mem_append_left _ hstart
    · exact List.mem_append_right _ hstart
  obtain ⟨heq, hfile, hexpand⟩ := hdisjoint start hmem
  unfold writtenOut
  rw [Options.parts_joined attached heq, if_neg hfile, if_neg hexpand]

/-! ## The table -/

abbrev fullTable : Table OptionMeaning := Program.fullCommandLine.options

/-- The entry of a startup option in the table. -/
def StartupOption.entry : StartupOption → CommandOption
  | .configFile => Flags.fileOption
  | .expandEnv => Flags.expandOption

def startupTable : Table OptionMeaning := Flags.startupOptions

theorem fullTable_eq : fullTable = Program.commandLine.options ++ startupTable := rfl

/-- Whether an option of the table is a startup option. -/
def isStartup (o : StartupOption) (f : CommandOption) : Bool :=
  f.spellings == Flags.startupSpellings o.name

/-- The spellings of the other options have no equals sign, share no start with those of the startup
options beyond the hyphens and their first letter, and are longer than a letter but for that of the
help option. -/
theorem spelling_commandLine : ∀ p ∈ spellings Program.commandLine.options,
    '=' ∉ p.1.toList ∧ startsWith p.1 "-c" = false ∧ startsWith p.1 "--config." = false ∧
      (2 < p.1.toList.length ∨ p.1 = "-h") := by
  have hall : ((spellings Program.commandLine.options).map Prod.fst).all (fun s => decide
      ('=' ∉ s.toList ∧ startsWith s "-c" = false ∧ startsWith s "--config." = false ∧
        (2 < s.toList.length ∨ s = "-h"))) = true := by
    decide +kernel
  intro p hp
  simpa using List.all_eq_true.mp hall p.1 (List.mem_map_of_mem hp)

theorem entry_spellings (o : StartupOption) :
    o.entry.spellings = Flags.startupSpellings o.name := by
  cases o <;> rfl

theorem mem_entry_spellings {o : StartupOption} {s : String} :
    s ∈ o.entry.spellings ↔ s ∈ o.spellings := by
  simp [entry_spellings, Flags.startupSpellings, StartupOption.spellings, or_comm]

theorem entry_mem_fullTable (o : StartupOption) : o.entry ∈ fullTable := by
  rw [fullTable_eq]
  refine List.mem_append_right _ ?_
  cases o
  · exact List.mem_cons_self
  · exact List.mem_cons_of_mem _ List.mem_cons_self

theorem mem_startupTable {f : CommandOption} (h : f ∈ startupTable) :
    ∃ o : StartupOption, f = o.entry := by
  rcases List.mem_cons.mp h with rfl | h
  · exact ⟨.configFile, rfl⟩
  · exact ⟨.expandEnv, List.mem_singleton.mp h⟩

theorem isStartup_entry (o o' : StartupOption) : isStartup o o'.entry = (o' == o) := by
  cases o <;> cases o' <;> decide

theorem isStartup_of_eq_entry {o : StartupOption} {f : CommandOption} (h : f = o.entry) :
    isStartup o f = true := by
  rw [h, isStartup_entry]
  exact beq_self_eq_true _

theorem eq_entry_of_isStartup {o : StartupOption} {f : CommandOption} (hf : f ∈ fullTable)
    (h : isStartup o f = true) : f = o.entry := by
  rw [fullTable_eq] at hf
  rcases List.mem_append.mp hf with hf | hf
  · have hspellings : f.spellings = Flags.startupSpellings o.name := by simpa [isStartup] using h
    have hmem : ("--" ++ o.name, f) ∈ spellings Program.commandLine.options :=
      Options.mem_spellings.mpr ⟨hf, by rw [hspellings]; exact List.mem_cons_self⟩
    have hstart : startsWith ("--" ++ o.name) "--config." = true := by cases o <;> decide
    rw [(spelling_commandLine _ hmem).2.2.1] at hstart
    cases hstart
  · obtain ⟨o', rfl⟩ := mem_startupTable hf
    rw [isStartup_entry] at h
    rw [eq_of_beq h]

theorem noEquals_fullTable : NoEquals fullTable := by
  intro f hf s hs
  rw [fullTable_eq] at hf
  rcases List.mem_append.mp hf with hf | hf
  · exact (spelling_commandLine (s, f) (Options.mem_spellings.mpr ⟨hf, hs⟩)).1
  · obtain ⟨o, rfl⟩ := mem_startupTable hf
    exact o.noEquals_spellings s (mem_entry_spellings.mp hs)

/-! ## Arguments about the startup options -/

/-- Starts that no option for a setting has. -/
def IsAboutStartup (start : String) : Prop :=
  startsWith start "-c" = true ∨ startsWith start "--config." = true

theorem not_startsWith_of_aboutStartup {start : String} (h : IsAboutStartup start)
    {p : String × CommandOption} (hp : p ∈ spellings Program.commandLine.options) :
    startsWith p.1 start = false := by
  by_contra hstart
  have hstart := eq_true_of_ne_false hstart
  obtain ⟨_, hone, htwo, _⟩ := spelling_commandLine p hp
  rcases h with h | h
  · rw [Options.startsWith_trans hstart h] at hone
    cases hone
  · rw [Options.startsWith_trans hstart h] at htwo
    cases htwo

/-- The options for settings do not matter for arguments that start like a startup option. -/
theorem classify_fullTable {start : String} (attached : Option String) (heq : '=' ∉ start.toList)
    (h : IsAboutStartup start) :
    classify fullTable true (joined start attached) =
      classify startupTable true (joined start attached) := by
  have htable : NoEquals Program.commandLine.options := fun f hf s hs =>
    (spelling_commandLine (s, f) (Options.mem_spellings.mpr ⟨hf, hs⟩)).1
  refine Options.classify_append ?_ ?_ noEquals_fullTable
  · rw [Options.named?_joined htable attached heq, Option.map_eq_none_iff,
      Options.find?_eq_none_iff]
    intro f hf hs
    have hself : startsWith start start = true := Options.startsWith_iff.mpr List.prefix_rfl
    have hstart := not_startsWith_of_aboutStartup h (Options.mem_spellings.mpr ⟨hf, hs⟩)
    rw [hself] at hstart
    cases hstart
  · have hjoined := Options.startsWith_joined start attached
    by_cases hsep : startsWith (joined start attached) separator = true
    · rw [Options.candidates_of_separator hsep, Options.parts_joined attached heq]
      rw [List.map_eq_nil_iff, List.filter_eq_nil_iff]
      intro p hp
      simp [not_startsWith_of_aboutStartup h hp]
    · -- with one hyphen the letter is that of the startup options, which no other option has
      have hletter : startsWith (joined start attached) "-c" = true := by
        rcases h with h | h
        · exact Options.startsWith_trans hjoined h
        · have hhyphens : startsWith "--config." separator = true := by decide
          exact (hsep (Options.startsWith_trans hjoined (Options.startsWith_trans h hhyphens))).elim
      unfold candidates
      rw [if_neg hsep, List.filterMap_eq_nil_iff]
      intro p hp
      have hone : startsWith p.1 "-c" = false := (spelling_commandLine p hp).2.1
      have htake : String.ofList ((joined start attached).toList.take 2) = "-c" := by
        obtain ⟨rest, hrest⟩ := Options.startsWith_iff.mp hletter
        rw [← hrest]
        rfl
      have hne : p.1 ≠ "-c" := by
        intro hp
        rw [hp] at hone
        exact absurd hone (by decide)
      have hstart : startsWith p.1 (joined start attached) = false := by
        by_contra hstart
        rw [Options.startsWith_trans (eq_true_of_ne_false hstart) hletter] at hone
        cases hone
      simp [htake, hne, hstart]

/-! ## How arguments are read -/

theorem isAboutStartup_of_mem {o : StartupOption} {start : String}
    (h : start ∈ o.spellings ++ o.shortSpellings ++ o.shortened) :
    '=' ∉ start.toList ∧ IsAboutStartup start := by
  have hall : ∀ s ∈ o.spellings ++ o.shortSpellings ++ o.shortened,
      '=' ∉ s.toList ∧ (startsWith s "-c" = true ∨ startsWith s "--config." = true) := by
    cases o <;> decide
  exact hall start h

/-- A shortening with two hyphens stands for one spelling only. -/
theorem filter_shortened {o : StartupOption} {start : String} (h : start ∈ o.shortened) :
    startsWith start separator = true ∧ find? startupTable start = none ∧
      (spellings startupTable).filter (fun p => startsWith p.1 start) =
        [("--" ++ o.name, o.entry)] := by
  cases o <;>
    simp only [StartupOption.shortened, StartupOption.shortSpellings, List.map_cons, List.map_nil,
      List.mem_cons, List.not_mem_nil, or_false] at h
  · rcases h with rfl | rfl | rfl <;> exact ⟨rfl, rfl, rfl⟩
  · rcases h with rfl | rfl | rfl | rfl | rfl | rfl | rfl | rfl | rfl <;> exact ⟨rfl, rfl, rfl⟩

theorem noEquals_startupTable : NoEquals startupTable := fun f hf =>
  noEquals_fullTable f (by rw [fullTable_eq]; exact List.mem_append_right _ hf)

theorem find?_startupTable {o : StartupOption} {s : String} (h : s ∈ o.spellings) :
    find? startupTable s = some o.entry := by
  cases o <;>
    simp only [StartupOption.spellings, List.mem_cons, List.not_mem_nil, or_false] at h <;>
    rcases h with rfl | rfl <;> rfl

theorem classify_shortened {o : StartupOption} {start : String} (attached : Option String)
    (h : start ∈ o.shortened) : classify fullTable true (joined start attached) =
      .ok (.option ⟨o.entry, "--" ++ o.name, attached⟩) := by
  obtain ⟨heq, habout⟩ := isAboutStartup_of_mem (List.mem_append_right _ h)
  obtain ⟨hsep, hfind, hfilter⟩ := filter_shortened h
  have hstart := Options.startsWith_trans (Options.startsWith_joined start attached) hsep
  have hdash : startsWith (joined start attached) "-" = true :=
    Options.startsWith_trans hstart (by decide)
  have hone : joined start attached ≠ "-" := by
    intro h
    rw [h] at hstart
    exact absurd hstart (by decide)
  rw [classify_fullTable attached heq habout, Options.classify_eq,
    Options.named?_joined noEquals_startupTable attached heq, hfind,
    Options.candidates_joined attached heq hsep, hfilter]
  simp [hdash, hone]

/-- What the locator takes for a startup option is that option for the full table. -/
theorem classify_of_mention? {o : StartupOption} {arg : String} {attached : Option String}
    (h : o.mention? arg = some attached) :
    ∃ s, classify fullTable true arg = .ok (.option s) ∧ s.option = o.entry ∧
      s.attached = attached := by
  obtain ⟨start, rfl, hstart | ⟨rfl, hstart⟩⟩ := StartupOption.eq_joined_of_mention? h
  · obtain ⟨heq, habout⟩ := isAboutStartup_of_mem
      (List.mem_append_left o.shortened (List.mem_append_left _ hstart))
    refine ⟨⟨o.entry, start, attached⟩, ?_, rfl, rfl⟩
    rw [classify_fullTable attached heq habout]
    refine Options.classify_of_named (StartupOption.startsWith_of_mention? h) ?_
    rw [Options.named?_joined noEquals_startupTable attached heq, find?_startupTable hstart]
    rfl
  · obtain ⟨heq, habout⟩ := isAboutStartup_of_mem
      (List.mem_append_left o.shortened (List.mem_append_right _ hstart))
    rw [classify_fullTable none heq habout]
    -- with one hyphen both tables know the same shortenings, which evaluation shows
    cases o <;>
      simp only [StartupOption.shortSpellings, List.mem_cons, List.not_mem_nil, or_false]
        at hstart
    · rcases hstart with rfl | rfl | rfl <;> exact ⟨_, rfl, rfl, rfl⟩
    · rcases hstart with rfl | rfl | rfl | rfl | rfl | rfl | rfl | rfl | rfl <;>
        exact ⟨_, rfl, rfl, rfl⟩

/-- An argument that is a startup option once it is written out is read as that option. -/
theorem classify_of_writtenOut {o : StartupOption} {arg : String} {attached : Option String}
    (h : o.mention? (writtenOut arg) = some attached) :
    ∃ s, classify fullTable true arg = .ok (.option s) ∧ s.option = o.entry ∧
      s.attached = attached := by
  rcases writtenOut_cases arg with ⟨o', attached', start, hstart, rfl, hout⟩ | ⟨hout, -⟩
  · rw [hout] at h
    obtain ⟨rfl, rfl⟩ :=
      mention?_unique h (StartupOption.mention?_joined attached' (full_mem_spellings o'))
    exact ⟨_, classify_shortened attached hstart, rfl, rfl⟩
  · rw [hout] at h
    exact classify_of_mention? h

/-- What a spelling of a startup option starts with is that option, or a start of both. -/
theorem starts_spelling (o : StartupOption) : ∀ s ∈ o.spellings, ∀ start ∈ starts s,
    (startsWith start separator = true → start ∈ o.spellings ++ o.shortened ∨
      ∀ o' ∈ [StartupOption.configFile, .expandEnv], startsWith ("--" ++ o'.name) start = true) ∧
    (startsWith start separator = false → start ∈ o.spellings ++ o.shortSpellings ∨
      ∀ o' ∈ [StartupOption.configFile, .expandEnv], startsWith ("-" ++ o'.name) start = true) := by
  cases o <;> decide

theorem mem_both (o : StartupOption) : o ∈ [StartupOption.configFile, .expandEnv] := by
  cases o <;> decide

/-- An argument that both options start with is short for neither alone. -/
theorem candidates_ne_singleton {arg : String} {s : Spelled OptionMeaning}
    (spelling : StartupOption → String) (hmem : ∀ o, spelling o ∈ o.spellings)
    (h : ∀ o, startsWith (spelling o)
      (if startsWith arg separator then (parts arg).1 else arg) = true) :
    candidates fullTable true arg ≠ [s] := by
  intro hs
  have hentry : ∀ o : StartupOption, o.entry = s.option := by
    intro o
    obtain ⟨s', hs', ho⟩ := Options.mem_candidates_of_start (entry_mem_fullTable o)
      (mem_entry_spellings.mpr (hmem o)) (h o)
    rw [hs, List.mem_singleton] at hs'
    rw [← ho, hs']
  have hsame := (hentry .configFile).trans (hentry .expandEnv).symm
  have hstartup := isStartup_entry .expandEnv .configFile
  rw [hsame, isStartup_entry] at hstartup
  cases hstartup

/-- An argument that is short for a startup option alone is that option once it is written out. -/
theorem mention?_of_candidates {o : StartupOption} {arg : String} {s : Spelled OptionMeaning}
    (hs : s.option = o.entry) (h : candidates fullTable true arg = [s]) :
    ∃ attached, o.mention? (writtenOut arg) = some attached := by
  obtain ⟨_, hspelled, hcases⟩ := Options.mem_candidates (h ▸ List.mem_singleton_self s)
  rw [hs] at hspelled
  have hspelled := mem_entry_spellings.mp hspelled
  obtain ⟨heq, harg⟩ := Options.joined_parts arg
  rcases hcases with ⟨hsep, _, hstart, _⟩ | ⟨hsep, hstart, _⟩ | ⟨_, hletter⟩
  · -- two hyphens: the first part is a start of the spelling, and of no other option
    have hsep' : startsWith (parts arg).1 separator = true :=
      Options.startsWith_of_joined (by decide) (harg.symm ▸ hsep)
    rcases (starts_spelling o _ hspelled _ (mem_starts.mpr hstart)).1 hsep' with hmem | hboth
    · rw [← harg]
      rcases List.mem_append.mp hmem with hmem | hmem
      · have hmention := StartupOption.mention?_joined (parts arg).2 hmem
        exact ⟨_, by rw [writtenOut_of_mention? hmention, hmention]⟩
      · rw [writtenOut_shortened _ hmem]
        exact ⟨_, StartupOption.mention?_joined _ (full_mem_spellings o)⟩
    · refine (candidates_ne_singleton (fun o' => "--" ++ o'.name) full_mem_spellings (fun o' => ?_)
        h).elim
      rw [if_pos hsep]
      exact hboth o' (mem_both o')
  · -- one hyphen: the whole argument is a start of the spelling
    rcases (starts_spelling o _ hspelled _ (mem_starts.mpr hstart)).2 hsep with hmem | hboth
    · have hmention := StartupOption.mention?_alone_iff.mpr hmem
      exact ⟨_, by rw [writtenOut_of_mention? hmention, hmention]⟩
    · refine (candidates_ne_singleton (fun o' => "-" ++ o'.name)
        (fun o' => by simp [StartupOption.spellings]) (fun o' => ?_) h).elim
      rw [if_neg (by simp [hsep])]
      exact hboth o' (mem_both o')
  · -- a letter with a text attached: no startup option is that short
    rw [hletter] at hspelled
    exact (StartupOption.not_mem_spellings_of_short (List.length_take_le _ _) hspelled).elim

/-- What the full table reads as a startup option is that option once it is written out. -/
theorem mention?_of_classify {o : StartupOption} {arg : String} {s : Spelled OptionMeaning}
    (h : classify fullTable true arg = .ok (.option s)) (hs : isStartup o s.option = true) :
    ∃ attached, o.mention? (writtenOut arg) = some attached := by
  have hentry := eq_entry_of_isStartup (Options.classify_option_mem h) hs
  rcases (Options.classify_eq_option h).2 with hnamed | ⟨_, hcand⟩
  · obtain ⟨heq, harg⟩ := Options.joined_parts arg
    rw [← harg, Options.named?_joined noEquals_fullTable _ heq, Option.map_eq_some_iff] at hnamed
    obtain ⟨f, hfind, rfl⟩ := hnamed
    have hspelled := (Options.find?_eq_some hfind).2
    rw [show f = o.entry from hentry] at hspelled
    have hmention := StartupOption.mention?_joined (parts arg).2 (mem_entry_spellings.mp hspelled)
    rw [← harg]
    exact ⟨_, by rw [writtenOut_of_mention? hmention, hmention]⟩
  · exact mention?_of_candidates hentry hcand

/-- **One reading of the startup options.** What the full table reads as a startup option, and with
which text attached, is what the locator takes the argument for once it is written out. -/
theorem classify_startup {arg : String} {reading : Reading OptionMeaning}
    (h : classify fullTable true arg = .ok reading) (o : StartupOption) :
    (∃ s, reading = .option s ∧ s.option = o.entry ∧
        o.mention? (writtenOut arg) = some s.attached) ∨
      (o.mention? (writtenOut arg) = none ∧
        ∀ s, reading = .option s → isStartup o s.option = false) := by
  cases hmention : o.mention? (writtenOut arg) with
  | some attached =>
    obtain ⟨s, hs, hentry, hatt⟩ := classify_of_writtenOut hmention
    rw [hs] at h
    cases h
    exact .inl ⟨s, rfl, hentry, by rw [hatt]⟩
  | none =>
    refine .inr ⟨rfl, ?_⟩
    rintro s rfl
    by_contra hs
    obtain ⟨attached, hsome⟩ := mention?_of_classify h (eq_true_of_ne_false hs)
    rw [hmention] at hsome
    cases hsome

theorem not_ambiguous_of_classify {arg : String} {reading : Reading OptionMeaning}
    (h : classify fullTable true arg = .ok reading) : isAmbiguous (writtenOut arg) = false := by
  by_contra hamb
  have hamb := eq_true_of_ne_false hamb
  rcases writtenOut_cases arg with ⟨o, attached, start, _, _, hout⟩ | ⟨hout, -⟩
  · have hnone := classify_ambiguous hamb
    rw [hout] at hnone
    obtain ⟨s, hs, _⟩ :=
      classify_mention (StartupOption.mention?_joined attached (full_mem_spellings o))
    obtain ⟨f, hf⟩ := hnone
    rw [hs] at hf
    cases hf
  · rw [hout] at hamb
    have hall : ∀ a ∈ ambiguousSpellings, '=' ∉ a.toList ∧ startsWith a "-c" = true := by decide
    have hmem : arg ∈ ambiguousSpellings := by simpa [isAmbiguous] using hamb
    obtain ⟨heq, hstart⟩ := hall arg hmem
    have hsmall := classify_fullTable none heq (.inl hstart)
    have herror : ∃ f, classify startupTable true (joined arg none) = .error f := by
      simp only [ambiguousSpellings, List.mem_cons, List.not_mem_nil, or_false] at hmem
      rcases hmem with rfl | rfl | rfl | rfl | rfl | rfl | rfl <;> exact ⟨_, rfl⟩
    obtain ⟨f, hf⟩ := herror
    rw [hf, show joined arg none = arg from rfl, h] at hsmall
    cases hsmall

theorem writtenOut_of_ambiguous {arg : String} (h : isAmbiguous arg = true) :
    writtenOut arg = arg := by
  have hall : ∀ a ∈ ambiguousSpellings, writtenOut a = a := by decide
  exact hall arg (by simpa [isAmbiguous] using h)

/-- What the full table reads as a value is written out, and a value for the locator. -/
theorem classify_plain {arg : String} (h : classify fullTable true arg = .ok .plain) :
    writtenOut arg = arg ∧ isValueLike arg = true := by
  have hnone : ∀ o : StartupOption, o.mention? (writtenOut arg) = none := by
    intro o
    rcases classify_startup h o with ⟨s, hs, _⟩ | ⟨hnone, _⟩
    · cases hs
    · exact hnone
  rcases writtenOut_cases arg with ⟨o, attached, start, _, _, hout⟩ | ⟨hout, -⟩
  · have hmention := StartupOption.mention?_joined attached (full_mem_spellings o)
    rw [← hout, hnone o] at hmention
    cases hmention
  · refine ⟨hout, ?_⟩
    have hother : isMention arg = false := by
      rw [hout] at hnone
      simp [isMention, hnone]
    rw [Options.classify_eq] at h
    split at h
    · rename_i hdash
      simp [isValueLike, hdash]
    · split at h
      · cases h
      · split at h
        · rename_i hone
          simp [isValueLike, hone]
        · split at h
          · cases h
          · split at h
            · rename_i hvalue
              rcases (Bool.or_eq_true _ _).mp hvalue with hvalue | hvalue
              · simp [isValueLike, hvalue]
              · have hblank : ' ' ∈ arg.toList := by simpa using hvalue
                simp [isValueLike, hother, hblank]
            · cases h
          · cases h

end BootConfig.Locator
