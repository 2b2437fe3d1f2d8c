import BootConfig.Program
import BootConfig.Proofs.Flags.Written

/-!
# Settings written as arguments

All that settings hold can be given by flags. The arguments for their leaves, in any order, are
accepted, and laid over any other settings they leave a leaf as it is where null was held, and else
make it what was held.

* `Setting.arguments`: the arguments for what settings hold for a leaf.
* `TakesFlags.read_arguments`: what the arguments for leaves bind.
* `TakesFlags.apply_arguments`: what they come to.
* `Ingester.settings_of_written`: the same for the settings and the command lines of the program.
-/

namespace BootConfig

open Options (CommandLine OptionGroup OptionMeaning separator)

/-! ## Arguments for settings -/

namespace Setting

/-- The value that settings hold for a leaf. -/
def valueAt? (config : Setting) (l : Leaf) : Option Value := (config.leaf? l).bind toValue?

/-- The arguments that give a leaf what settings hold for it. There are none for null. -/
def arguments (config : Setting) (l : Leaf) : List String :=
  match config.valueAt? l with
  | none | some (.scalar .null) => []
  | some v => l.arguments v

def argumentGroups (config : Setting) (l : Leaf) : List (OptionGroup OptionMeaning) :=
  match config.valueAt? l with
  | none | some (.scalar .null) => []
  | some v => [l.argumentGroup v]

variable {config : Setting} {l : Leaf}

theorem flatMap_argumentGroups (config : Setting) (l : Leaf) :
    (config.argumentGroups l).flatMap OptionGroup.args = config.arguments l := by
  unfold argumentGroups arguments
  split
  · rfl
  · rfl
  · rw [List.flatMap_singleton, Leaf.args_argumentGroup]

theorem mem_argumentGroups {g : OptionGroup OptionMeaning} : g ∈ config.argumentGroups l ↔
    ∃ v, config.valueAt? l = some v ∧ v ≠ .null ∧ g = l.argumentGroup v := by
  unfold argumentGroups
  split
  · rename_i hnone
    simp [hnone]
  · rename_i hnull
    simp [hnull, Value.null]
  · rename_i v hother hv
    have hne : v ≠ .null := hother
    simp [hv, hne]

/-- All that settings hold can be written as arguments. -/
def Expressible (config : Setting) (s : Schema) : Prop :=
  ∀ l ∈ s.leaves, ∀ v, config.valueAt? l = some v → v.Expressible

theorem IsSettled.valueAt? {s : Schema} (h : config.IsSettled s) (hs : Sectioned s)
    (hl : l ∈ s.leaves) : ∃ v, config.valueAt? l = some v ∧ l.field.Fixes v := by
  obtain ⟨leaf, v, hleaf, hvalue, hv⟩ := h.leaf hs hl
  refine ⟨v, ?_, hv⟩
  rw [Setting.valueAt?, hleaf]
  exact hvalue

theorem IsSettled.fixes {s : Schema} (h : config.IsSettled s) (hs : Sectioned s)
    (hl : l ∈ s.leaves) {v : Value} (hv : config.valueAt? l = some v) : l.field.Fixes v := by
  obtain ⟨v', hv', hfixes⟩ := h.valueAt? hs hl
  rw [hv] at hv'
  cases hv'
  exact hfixes

end Setting

/-! ## What the arguments bind -/

namespace TakesFlags

variable {cl : CommandLine} {s : Schema} {target start : Setting} {order : List Leaf}

/-- The arguments for some leaves of settings are accepted, and bind each of their paths to what is
held there unless it is null. -/
theorem read_arguments (h : TakesFlags cl s) (hs : Sectioned s)
    (hexpressed : ∀ l ∈ s.leaves, ∃ a c, IsExpressed l.field.2 a c) (htarget : target.IsSettled s)
    (hexpressible : target.Expressible s) (horder : ∀ l ∈ order, l ∈ s.leaves) :
    ∃ as, cl.read (order.flatMap target.arguments) = .settings as ∧ as.Distinct ∧
      ∀ path v, as.lookup path = some v ↔
        ∃ l ∈ order, l.path = path ∧ target.valueAt? l = some v ∧ v ≠ .null := by
  have hgives : ∀ l ∈ order, ∀ v, target.valueAt? l = some v → v ≠ .null →
      cl.Gives (l.argumentGroup v) l.path v := by
    intro l hl v hv hnull
    obtain ⟨a, c, hexpressed⟩ := hexpressed l (horder l hl)
    have hl := horder l hl
    exact h.gives_argumentGroup hs hl hexpressed (htarget.fixes hs hl hv) hnull
      (hexpressible l hl v hv)
  have hgroups : ∀ path v, (∃ g ∈ order.flatMap target.argumentGroups, cl.Gives g path v) ↔
      ∃ l ∈ order, l.path = path ∧ target.valueAt? l = some v ∧ v ≠ .null := by
    intro path v
    constructor
    · rintro ⟨g, hg, hgive⟩
      obtain ⟨l, hl, hg⟩ := List.mem_flatMap.mp hg
      obtain ⟨w, hw, hnull, rfl⟩ := Setting.mem_argumentGroups.mp hg
      obtain ⟨hpath, rfl⟩ := hgive.unique (hgives l hl w hw hnull)
      exact ⟨l, hl, hpath.symm, hw, hnull⟩
    · rintro ⟨l, hl, rfl, hv, hnull⟩
      exact ⟨_, List.mem_flatMap.mpr ⟨l, hl, Setting.mem_argumentGroups.mpr ⟨v, hv, hnull, rfl⟩⟩,
        hgives l hl v hv hnull⟩
  have hgiving : ∀ g ∈ order.flatMap target.argumentGroups, ∃ path v, cl.Gives g path v := by
    intro g hg
    obtain ⟨l, hl, hg⟩ := List.mem_flatMap.mp hg
    obtain ⟨v, hv, hnull, rfl⟩ := Setting.mem_argumentGroups.mp hg
    exact ⟨l.path, v, hgives l hl v hv hnull⟩
  obtain ⟨as, hread, hdistinct, hlookup⟩ := CommandLine.read_gives hgiving
    fun g hg g' hg' path v v' hgive hgive' => by
      -- what is given for one path is held by one leaf
      obtain ⟨l, hl, hpath, hv, _⟩ := (hgroups path v).mp ⟨g, hg, hgive⟩
      obtain ⟨l', hl', hpath', hv', _⟩ := (hgroups path v').mp ⟨g', hg', hgive'⟩
      have hsame := hs.eq_of_path (horder l hl) (horder l' hl') (hpath.trans hpath'.symm)
      subst hsame
      rw [hv] at hv'
      exact Option.some.inj hv'
  rw [List.flatMap_assoc] at hread
  simp only [Setting.flatMap_argumentGroups] at hread
  exact ⟨as, hread, hdistinct, fun path v => (hlookup path v).trans (hgroups path v)⟩

/-- The arguments for all leaves of settings, laid over other settings: what is held is taken over,
and where it is null the other settings stay as they are. -/
theorem apply_arguments (h : TakesFlags cl s) (hs : Sectioned s)
    (hexpressed : ∀ l ∈ s.leaves, ∃ a c, IsExpressed l.field.2 a c) (htarget : target.IsSettled s)
    (hstart : start.IsSettled s) (hexpressible : target.Expressible s)
    (horder : order.Perm s.leaves) :
    ∃ as, cl.read (order.flatMap target.arguments) = .settings as ∧
      (s.applyFlags start as).stop = none ∧ ∀ l ∈ s.leaves, ∃ v, target.valueAt? l = some v ∧
        (v ≠ .null → (s.applyFlags start as).config.leaf? l = some (.value v)) ∧
        (v = .null → (s.applyFlags start as).config.leaf? l = start.leaf? l) := by
  obtain ⟨as, hread, hdistinct, hlookup⟩ := h.read_arguments hs hexpressed htarget hexpressible
    fun l hl => horder.mem_iff.mp hl
  have hsections := hstart.inSections hs
  have hleaves : ∀ l ∈ s.leaves, (start.leaf? l).isSome = true := by
    intro l hl
    obtain ⟨leaf, _, hleaf, _⟩ := hstart.leaf hs hl
    rw [hleaf]
    rfl
  have hbinds : ∀ a ∈ as, ∃ l ∈ s.leaves, l.path = a.1 ∧
      l.field.check (.value a.2) = .ok (.value a.2) := by
    rintro ⟨path, v⟩ ha
    obtain ⟨l, hl, hpath, hv, _⟩ := (hlookup path v).mp (hdistinct.mem_iff.mp ha)
    have hl := horder.mem_iff.mp hl
    exact ⟨l, hl, hpath, (htarget.fixes hs hl hv).check⟩
  have hstop : (s.applyFlags start as).stop = none := by
    refine hs.applyFlags_accepted hsections fun a ha => ?_
    obtain ⟨l, hl, hpath, hcheck⟩ := hbinds a ha
    exact ⟨l, hl, hpath, _, hcheck⟩
  have hpaths : ∀ path ∈ as.map Prod.fst, ∃ l ∈ s.leaves, l.path = path := by
    intro path hpath
    obtain ⟨a, ha, rfl⟩ := List.mem_map.mp hpath
    obtain ⟨l, hl, hpath, _⟩ := hbinds a ha
    exact ⟨l, hl, hpath⟩
  refine ⟨as, hread, hstop, fun l hl => ?_⟩
  obtain ⟨v, hv, hfixes⟩ := htarget.valueAt? hs hl
  obtain ⟨leaf, hleaf, htakes⟩ := hs.applyFlags hsections hleaves hdistinct hpaths hstop l hl
  refine ⟨v, hv, fun hnull => ?_, fun hnull => ?_⟩
  · have hbound : as.lookup l.path = some v :=
      (hlookup l.path v).mpr ⟨l, horder.mem_iff.mpr hl, rfl, hv, hnull⟩
    rw [hbound] at htakes
    have hcheck : l.field.check (.value v) = .ok leaf := htakes
    rw [hleaf, ← Except.ok.inj (hcheck.symm.trans hfixes.check)]
  · have hbound : as.lookup l.path = none := by
      refine Option.eq_none_iff_forall_ne_some.mpr fun w hw => ?_
      obtain ⟨l', hl', hpath, hheld, hne⟩ := (hlookup l.path w).mp hw
      have hsame := hs.eq_of_path (horder.mem_iff.mp hl') hl hpath
      subst hsame
      rw [hv] at hheld
      exact hne ((Option.some.inj hheld).symm.trans hnull)
    rw [hbound] at htakes
    exact hleaf.trans htakes.symm

end TakesFlags

/-! ## The flags of the program -/

namespace Ingester

/-- The value of every leaf can be given by its flag. -/
theorem isExpressed : ∀ l ∈ schema.leaves, ∃ a c, IsExpressed l.field.2 a c := by
  have htext : ∃ a c, IsExpressed (.scalar .text) a c := ⟨_, _, .text⟩
  have hint : ∃ a c, IsExpressed (.scalar .int) a c := ⟨_, _, .int⟩
  have hoptional : ∃ a c, IsExpressed (.union .choice true [.scalar .text]) a c := ⟨_, _, .optional⟩
  have hints : ∃ a c, IsExpressed (.list (some .int)) a c := ⟨_, _, .ints⟩
  have hlevel : ∃ a c, IsExpressed (.enumeration logLevels) a c :=
    ⟨_, _, .choice (by decide +kernel)⟩
  have hformat : ∃ a c, IsExpressed (.enumeration logFormats) a c :=
    ⟨_, _, .choice (by decide +kernel)⟩
  have hbackend : ∃ a c, IsExpressed (.enumeration storageBackends) a c :=
    ⟨_, _, .choice (by decide +kernel)⟩
  have hnone : ∀ f ∈ ([] : List Field), ∃ a c, IsExpressed f.2 a c := fun f hf => nomatch hf
  simp only [Schema.leaves, schema, groupField, Schema.toType, List.flatMap_cons, List.flatMap_nil,
    List.append_nil, List.forall_mem_append, List.forall_mem_map, server, log, storage, ingester,
    blocksStorage, List.forall_mem_cons]
  exact ⟨⟨htext, hint, hint, hint, hnone⟩, ⟨hlevel, hformat, hoptional, hint, hint, hnone⟩,
    ⟨hbackend, htext, hoptional, hoptional, hnone⟩, ⟨hint, hint, hint, hint, hnone⟩,
    ⟨htext, hints, hint, hint, hnone⟩⟩

theorem mem_commandLine : ∀ o ∈ schema.flags, o ∈ Program.commandLine.options :=
  fun _ ho => List.mem_cons_of_mem _ (List.mem_cons_of_mem _ ho)

theorem takesFlags_fullCommandLine : TakesFlags Program.fullCommandLine schema where
  flags o ho := List.mem_append_left _ (mem_commandLine o ho)
  distinct := by decide +kernel
  spelling := by
    have hall : (Program.fullCommandLine.options.all fun o => o.spellings.all fun x =>
        x != separator && !x.toList.contains '=' &&
          (x.toList[1]?).all fun d => !Options.isDigit d) = true := by decide +kernel
    simpa [and_assoc, Option.all_eq_true] using hall

theorem takesFlags_commandLine : TakesFlags Program.commandLine schema :=
  takesFlags_fullCommandLine.of_append mem_commandLine

/-- **Flags can express all settings.** Of valid settings whose integers can be read, whose texts
are of characters and no separator, and whose list is not empty, let the arguments for all leaves
that do not hold null be given, in any order: the flag of a leaf with its value behind an equals
sign, or with its items as the next arguments. They are accepted by the command line, with the
startup options or without, and laid over any valid settings without being refused. After that
each leaf holds what it holds in the settings that were written, or, if that is null, what it held
before. -/
theorem settings_of_written {target start : Setting} (htarget : target.IsSettled schema)
    (hstart : start.IsSettled schema) (hexpressible : target.Expressible schema)
    {order : List Leaf} (horder : order.Perm schema.leaves) {cl : CommandLine}
    (hcl : cl = Program.commandLine ∨ cl = Program.fullCommandLine) :
    ∃ as, cl.read (order.flatMap target.arguments) = .settings as ∧
      (schema.applyFlags start as).stop = none ∧
      ∀ l ∈ schema.leaves, ∃ v, target.valueAt? l = some v ∧
        (v ≠ .null → (schema.applyFlags start as).config.leaf? l = some (.value v)) ∧
        (v = .null → (schema.applyFlags start as).config.leaf? l = start.leaf? l) := by
  have htakes : TakesFlags cl schema := by
    rcases hcl with rfl | rfl
    · exact takesFlags_commandLine
    · exact takesFlags_fullCommandLine
  exact htakes.apply_arguments sectioned isExpressed htarget hstart hexpressible horder

/-- Texts with hyphens in front, with an equals sign and with nothing in them, negative numbers and
a text that is unset, from the last leaf to the first one. -/
theorem settings_of_written_hyphens :
    let text := fun s => Scalar.text (Text.ofString s)
    let document : Value := .map [
      (text "server", .map [(text "http_listen_address", .string "")]),
      (text "log", .map [(text "level", .string "error"), (text "file", .string "--a b=c")]),
      (text "ingester", .map [(text "join_after", .int (-7))]),
      (text "blocks_storage", .map [(text "block_ranges", .list [.int (-3), .int 7200])])]
    ∃ target start as, schema.check document = .ok target ∧ schema.check (.map []) = .ok start ∧
      schema.leaves.reverse.flatMap target.arguments = [
        "--blocks-storage.ship-interval=60", "--blocks-storage.retention-period=21600",
        "--blocks-storage.block-ranges", "-3", "7200", "--blocks-storage.tsdb-dir=/data/tsdb",
        "--ingester.final-sleep=30", "--ingester.join-after=-7", "--ingester.heartbeat-period=5",
        "--ingester.replication-factor=3", "--storage.directory=/data/blocks",
        "--storage.backend=filesystem", "--log.retention-count=5", "--log.rotation-size=10485760",
        "--log.file=--a b=c", "--log.format=text", "--log.level=ERROR", "--server.metrics-port=0",
        "--server.grpc-listen-port=9095", "--server.http-listen-port=8080",
        "--server.http-listen-address="] ∧
      Program.fullCommandLine.read (schema.leaves.reverse.flatMap target.arguments) =
        .settings as ∧
      (schema.applyFlags start as).stop = none ∧
      ∀ l ∈ schema.leaves, ∃ v, target.valueAt? l = some v ∧
        (v ≠ .null → (schema.applyFlags start as).config.leaf? l = some (.value v)) ∧
        (v = .null → (schema.applyFlags start as).config.leaf? l = start.leaf? l) := by
  intro text document
  have hchecked : ((schema.check document).toOption.any fun target =>
      (schema.leaves.all fun l => (target.valueAt? l).all fun v => decide v.Expressible) &&
        (schema.leaves.reverse.flatMap target.arguments == [
          "--blocks-storage.ship-interval=60", "--blocks-storage.retention-period=21600",
          "--blocks-storage.block-ranges", "-3", "7200", "--blocks-storage.tsdb-dir=/data/tsdb",
          "--ingester.final-sleep=30", "--ingester.join-after=-7", "--ingester.heartbeat-period=5",
          "--ingester.replication-factor=3", "--storage.directory=/data/blocks",
          "--storage.backend=filesystem", "--log.retention-count=5",
          "--log.rotation-size=10485760", "--log.file=--a b=c", "--log.format=text",
          "--log.level=ERROR", "--server.metrics-port=0", "--server.grpc-listen-port=9095",
          "--server.http-listen-port=8080", "--server.http-listen-address="])) = true := by
    decide +kernel
  have hdefaults : (schema.check (.map [])).toOption.isSome = true := by decide +kernel
  simp only [Option.any_eq_true, Bool.and_eq_true, beq_iff_eq] at hchecked
  obtain ⟨target, htarget, hexpressible, harguments⟩ := hchecked
  obtain ⟨start, hstart⟩ := Option.isSome_iff_exists.mp hdefaults
  have htarget := eq_ok_of_toOption htarget
  have hstart := eq_ok_of_toOption hstart
  have hexpressible : target.Expressible schema := fun l hl v hv => by
    have hl := List.all_eq_true.mp hexpressible l hl
    rw [hv] at hl
    exact of_decide_eq_true hl
  obtain ⟨as, hread, hstop, hleaves⟩ := settings_of_written (sectioned.settled_check exact htarget)
    (sectioned.settled_check exact hstart) hexpressible (List.reverse_perm _) (.inr rfl)
  exact ⟨target, start, as, htarget, hstart, harguments, hread, hstop, hleaves⟩

end Ingester

end BootConfig
