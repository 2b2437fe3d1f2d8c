import BootConfig.Proofs.Flags.Given
import BootConfig.Proofs.Options.Bindings

/-!
# A single flag

Arguments that are one option with its values. What they are accepted as depends on how the option
reads the values, and what settings hold after that on the check of the field for which it is.

* `CommandLine.Presents`: arguments that are one option with texts as its values.
* `Presents.read`: what they are accepted as.
* `Schema.Sets`: arguments that are accepted, and leave something at a path of settings.
* `Schema.sets_iff`, `Schema.accepted_iff`: this is a matter of reading the texts and checking what
  is read.
-/

namespace BootConfig

open Options (Arity CommandLine CommandOption Conversion NoEquals OptionGroup OptionMeaning
  attachedValues classify find? joined scan separator startsWith valueCount)

/-! ## Arguments for one option -/

namespace Options.CommandLine

variable {c : CommandLine} {o : CommandOption} {args texts : List String} {x : String}

/-- The arguments are one option with texts as its values, and nothing else. -/
def Presents (c : CommandLine) (args : List String) (o : CommandOption) (texts : List String) :
    Prop :=
  scan c.options true args = .ok ⟨[⟨o, texts⟩], [], none⟩

theorem presents_group {g : OptionGroup OptionMeaning} (hfull : g.Full)
    (hstands : g.Stands c.options true) :
    c.Presents g.args g.occurrence.option g.occurrence.values := by
  have hscan := scan_groups (List.forall_mem_singleton.mpr hfull)
    (List.forall_mem_singleton.mpr hstands)
  rwa [List.flatMap_singleton] at hscan

/-- A spelling stands for its option, also with a text attached. -/
theorem classify_spelling (hequals : NoEquals c.options) (ho : find? c.options x = some o)
    (hhyphens : startsWith x separator = true) (attached : Option String) :
    classify c.options true (joined x attached) = .ok (.option ⟨o, x, attached⟩) := by
  obtain ⟨hmem, hspelled⟩ := find?_eq_some ho
  refine classify_of_named (startsWith_trans (startsWith_trans (startsWith_joined x attached)
    hhyphens) (by decide)) ?_
  rw [named?_joined hequals attached (hequals o hmem x hspelled), ho]
  rfl

/-- A text attached to a spelling is the value of its option. -/
theorem presents_attached (hequals : NoEquals c.options) (ho : find? c.options x = some o)
    (hhyphens : startsWith x separator = true) (harity : o.arity ≠ .none) (text : String) :
    c.Presents [joined x (some text)] o (attachedValues text) := by
  let g : OptionGroup OptionMeaning := ⟨joined x (some text), ⟨o, x, some text⟩, []⟩
  refine presents_group (g := g) ⟨harity, rfl⟩ fun r hr => ?_
  cases List.mem_singleton.mp hr
  -- the separator has no equals sign in it
  refine ⟨fun heq => ?_, classify_spelling hequals ho hhyphens (some text)⟩
  have hmem : '=' ∈ (joined x (some text)).toList := by simp [joined, String.toList_append]
  rw [show joined x (some text) = separator from heq] at hmem
  exact absurd hmem (by decide)

/-- Arguments behind a spelling that look like no options are the values of its option. -/
theorem presents_following (hequals : NoEquals c.options) (ho : find? c.options x = some o)
    (hhyphens : startsWith x separator = true) (hx : x ≠ separator) (harity : o.arity ≠ .none)
    (hcount : valueCount o.arity texts.length = some texts.length)
    (htexts : ∀ t ∈ texts, t ≠ separator ∧ classify c.options true t = .ok .plain) :
    c.Presents (x :: texts) o texts := by
  let g : OptionGroup OptionMeaning := ⟨x, ⟨o, x, none⟩, texts⟩
  refine presents_group (g := g) ⟨harity, hcount⟩ fun r hr => ?_
  rcases List.mem_cons.mp hr with rfl | hr
  · exact ⟨hx, classify_spelling hequals ho hhyphens none⟩
  · obtain ⟨t, ht, rfl⟩ := List.mem_map.mp hr
    exact htexts t ht

/-- Arguments for one option are accepted if its values can be read. -/
theorem Presents.read {path : String} (h : c.Presents args o texts)
    (hpath : o.meaning.purpose = .setting path) :
    c.read args = match o.meaning.conversion.readAll o.arity texts with
      | .ok v => .settings [(path, v)]
      | .error f => .refused (.value o.spellings f) := by
  unfold Presents at h
  rw [CommandLine.read, h]
  simp only [follow, hpath]
  cases o.meaning.conversion.readAll o.arity texts <;> rfl

end Options.CommandLine

/-! ## Settings after one flag -/

namespace Schema

variable {s : Schema} {config new : Setting} {path : String} {f : Field} {args texts : List String}

/-- A value that is laid at a path which leads to a field is checked for that field, and held there
or refused. -/
theorem Reaches.applyFlags (h : s.Reaches config (Flags.names path) f) (v : Value) :
    s.applyFlags config [(path, v)] = match f.check (.value v) with
      | .ok new => ⟨config.putAt (Flags.names path) new, [(path, v)], none⟩
      | .error issues => ⟨config, [], some (.refused
          (issues.map (Issue.under (PathStep.ofString f.1.name))))⟩ := by
  rw [Schema.applyFlags, List.mergeSort_singleton, Flags.applyEach, h.applyAt]
  cases f.check (.value v) <;> rfl

/-- Arguments are accepted, and so is all that they give when it is laid over settings, which then
hold something at a path. -/
def Sets (s : Schema) (c : CommandLine) (config : Setting) (args : List String)
    (path : String) (new : Setting) : Prop :=
  ∃ as, c.read args = .settings as ∧ (s.applyFlags config as).stop = none ∧
    (s.applyFlags config as).config.at? (Flags.names path) = some new

/-- One flag leaves what the check of its field makes of the value that is read from its texts. -/
theorem sets_iff {c : CommandLine} {o : CommandOption} {args texts : List String}
    (hpresents : c.Presents args o texts) (hpath : o.meaning.purpose = .setting path)
    (hreaches : s.Reaches config (Flags.names path) f) :
    s.Sets c config args path new ↔
      ∃ v, o.meaning.conversion.readAll o.arity texts = .ok v ∧ f.check (.value v) = .ok new := by
  rw [Sets, hpresents.read hpath]
  cases o.meaning.conversion.readAll o.arity texts with
  | error fault => simp
  | ok v =>
    have happly := hreaches.applyFlags v
    cases hcheck : f.check (.value v) with
    | error issues =>
      rw [hcheck] at happly
      simp [happly, hcheck]
    | ok held =>
      rw [hcheck] at happly
      have hheld : (config.putAt (Flags.names path) held).at? (Flags.names path) = some held := by
        have hat : (config.putAt (Flags.names path) held).at? (Flags.names path ++ []) =
            held.at? [] := Setting.at?_putAt hreaches.isSome_at?
        rwa [List.append_nil] at hat
      simp [happly, hcheck, hheld]

/-- One flag is accepted exactly if it leaves something at its path. -/
theorem accepted_iff {c : CommandLine} {o : CommandOption} (hpresents : c.Presents args o texts)
    (hpath : o.meaning.purpose = .setting path)
    (hreaches : s.Reaches config (Flags.names path) f) :
    (∃ as, c.read args = .settings as ∧ (s.applyFlags config as).stop = none) ↔
      ∃ new, s.Sets c config args path new := by
  refine ⟨fun ⟨as, hread, hstop⟩ => ?_, fun ⟨_, as, hread, hstop, _⟩ => ⟨as, hread, hstop⟩⟩
  simp only [sets_iff hpresents hpath hreaches]
  rw [hpresents.read hpath] at hread
  cases hv : o.meaning.conversion.readAll o.arity texts with
  | error fault =>
    rw [hv] at hread
    cases hread
  | ok v =>
    rw [hv] at hread
    cases hread
    rw [hreaches.applyFlags v] at hstop
    cases hcheck : f.check (.value v) with
    | error issues =>
      rw [hcheck] at hstop
      cases hstop
    | ok held => exact ⟨held, v, rfl, hcheck⟩

end Schema

end BootConfig
