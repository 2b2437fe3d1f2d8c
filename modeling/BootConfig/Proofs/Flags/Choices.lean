import BootConfig.Proofs.Flags.Expressed
import BootConfig.Proofs.Flags.Members
import BootConfig.Proofs.Flags.Order
import BootConfig.Proofs.Load.OneLeaf
import BootConfig.Proofs.Text.Folding

/-!
# Choices given by flags and by files

A choice can be given by a flag or by a file. The flag compares in lower case; the file takes the
log level in upper case, and everything else as it is written. So the two take different spellings.

* `Leaf.IsChoice`: leaves that are a choice among texts.
* `Leaf.IsChoice.sets_iff`: the spellings that the flag of a choice takes.
* `Leaf.IsChoice.check_text`: the spellings that its field takes.
* `Ingester.choice_spellings`: when the two agree, for the choices of the program.
-/

namespace BootConfig

open Options (CommandLine Conversion attachedValues joined separator)

/-! ## What a field takes -/

/-- What a field takes a given text for. -/
def FieldInfo.taken (info : FieldInfo) (t : Text) : Text :=
  if info.upperCase then t.toUpper else t

theorem FieldInfo.prepare_text (info : FieldInfo) (t : Text) :
    info.prepare (.value (.text t)) = .value (.text (info.taken t)) := by
  unfold prepare taken
  cases info.upperCase <;> rfl

/-- A choice takes the texts that are members of it. -/
theorem Enumeration.check_text {e : Enumeration} {t : Text} {new : Setting} :
    e.check (.value (.text t)) = .ok new ↔ .text t ∈ e.members ∧ new = .value (.text t) := by
  have hfind : (Setting.scalar? (.value (.text t))).bind e.find? =
      e.members.find? fun m => m.sameKey (.text t) := rfl
  rw [check, hfind]
  cases hfound : e.members.find? fun m => m.sameKey (.text t) with
  | none =>
    have hnot : .text t ∉ e.members := fun hmem =>
      List.find?_eq_none.mp hfound (.text t) hmem (Scalar.sameKey_self _)
    simp [Checked.fault, hnot]
  | some m =>
    have hsame := List.find?_some hfound
    obtain rfl := Scalar.sameKey_text.mp hsame
    simp [List.mem_of_find?_eq_some hfound, Value.text, eq_comm]

/-! ## Choices -/

/-- A leaf that is a choice among texts, of which no two are the same in lower case, and none is the
separator of arguments. If texts are taken in upper case, then the members are plain words of
capital letters. -/
structure Leaf.IsChoice (l : Leaf) (e : Enumeration) : Prop where
  type : l.field.2 = .enumeration e
  rule : l.field.1.rule = none
  texts : ∀ m ∈ e.members, ∃ t, m = .text t
  distinct : (e.members.map fun m => m.plain.toLower).Nodup
  noSeparator : ∀ m ∈ e.members, m.plain.toLower ≠ (Text.ofString separator).toLower
  capital : l.field.1.upperCase = true → ∀ m ∈ e.members, m.plain.IsPlainWord

namespace Leaf.IsChoice

variable {l : Leaf} {e : Enumeration} {t m : Text} {new : Setting}

theorem check_eq (h : l.IsChoice e) (input : Setting) :
    l.field.check input = e.check (l.field.1.prepare input) := by
  rw [Field.check, h.type, FieldType.check]
  cases e.check (l.field.1.prepare input) with
  | error issues => rfl
  | ok held => exact FieldInfo.obey_eq h.rule held

/-- The field of a choice takes the texts that it takes for members. -/
theorem check_text (h : l.IsChoice e) : l.field.check (.value (.text t)) = .ok new ↔
    .text (l.field.1.taken t) ∈ e.members ∧ new = .value (.text (l.field.1.taken t)) := by
  rw [h.check_eq, FieldInfo.prepare_text, Enumeration.check_text]

/-- In lower case a text is a member if it is that member in upper case and has no dotless i. -/
theorem toLower_eq_iff (h : l.IsChoice e) (hupper : l.field.1.upperCase = true)
    (hm : .text m ∈ e.members) :
    m.toLower = t.toLower ↔ l.field.1.taken t = m ∧ Case.dotlessI ∉ t.points := by
  have hplain : m.IsPlainWord := h.capital hupper _ hm
  rw [eq_comm, Text.toLower_eq_iff hplain, FieldInfo.taken, if_pos hupper]

/-- Where texts are taken in upper case, the members in lower case are what the field takes, but for
texts with a dotless i. -/
theorem named_iff_check (h : l.IsChoice e) (hupper : l.field.1.upperCase = true) :
    (∃ m, .text m ∈ e.members ∧ m.toLower = t.toLower ∧ new = .value (.text m)) ↔
      l.field.check (.value (.text t)) = .ok new ∧ Case.dotlessI ∉ t.points := by
  rw [h.check_text]
  constructor
  · rintro ⟨m, hm, hsame, rfl⟩
    obtain ⟨rfl, hdotless⟩ := (h.toLower_eq_iff hupper hm).mp hsame
    exact ⟨⟨hm, rfl⟩, hdotless⟩
  · rintro ⟨⟨hm, rfl⟩, hdotless⟩
    exact ⟨_, hm, (h.toLower_eq_iff hupper hm).mpr ⟨rfl, hdotless⟩, rfl⟩

/-- Where texts are taken as they are, the field takes what is a member in lower case only if it is
that member. -/
theorem check_iff_named (h : l.IsChoice e) (hupper : l.field.1.upperCase = false) :
    l.field.check (.value (.text t)) = .ok new ↔
      (∃ m, .text m ∈ e.members ∧ m.toLower = t.toLower ∧ new = .value (.text m)) ∧
        new = .value (.text t) := by
  have htaken : l.field.1.taken t = t := if_neg (by rw [hupper]; decide)
  rw [h.check_text, htaken]
  constructor
  · rintro ⟨ht, rfl⟩
    exact ⟨⟨t, ht, rfl, rfl⟩, rfl⟩
  · rintro ⟨⟨m, hm, _, rfl⟩, hnew⟩
    cases hnew
    exact ⟨hm, rfl⟩

/-- A member is taken for itself. -/
theorem taken_member (h : l.IsChoice e) (hm : .text m ∈ e.members) : l.field.1.taken m = m := by
  cases hupper : l.field.1.upperCase with
  | true => exact ((h.toLower_eq_iff hupper hm).mp rfl).1
  | false => rw [FieldInfo.taken, if_neg (by rw [hupper]; decide)]

/-- The field of a choice leaves members as they are. -/
theorem check_member (h : l.IsChoice e) (hm : .text m ∈ e.members) :
    l.field.check (.value (.text m)) = .ok (.value (.text m)) := by
  rw [h.check_text, h.taken_member hm]
  exact ⟨hm, rfl⟩

theorem named?_iff (h : l.IsChoice e) {x : Scalar} :
    e.named? t = some x ↔ ∃ m, .text m ∈ e.members ∧ m.toLower = t.toLower ∧ x = .text m := by
  rw [Enumeration.named?_iff_of_distinct h.distinct]
  constructor
  · rintro ⟨hx, hsame⟩
    obtain ⟨m, rfl⟩ := h.texts x hx
    exact ⟨m, hx, hsame, rfl⟩
  · rintro ⟨m, hm, hsame, rfl⟩
    exact ⟨hm, hsame⟩

/-- A value that is attached to the flag of a choice, read and checked, is a member that it names.
-/
theorem reads_iff (h : l.IsChoice e) (word : String) :
    (∃ v, (Conversion.member e).readAll .one (attachedValues word) = .ok v ∧
        l.field.check (.value v) = .ok new) ↔
      ∃ x, e.named? (Text.ofString word) = some x ∧
        l.field.check (.value (.scalar x)) = .ok new := by
  by_cases hseparator : word = separator
  · -- of the separator no text is left, and without one there is no member
    subst hseparator
    have hempty : l.field.check (.value (.list [])) = Checked.fault (.notMember e) := by
      rw [h.check_eq, FieldInfo.prepare]
      cases l.field.1.upperCase <;> rfl
    have hnone := Enumeration.named?_eq_none.mpr h.noSeparator
    constructor
    · rintro ⟨v, hv, hnew⟩
      cases hv
      cases hempty.symm.trans hnew
    · rintro ⟨x, hx, _⟩
      cases hnone.symm.trans hx
  · rw [show attachedValues word = [word] from if_neg (by simpa using hseparator),
      Conversion.readAll, Conversion.read]
    cases e.named? (Text.ofString word) <;> simp [Except.map]

theorem isExpressed (h : l.IsChoice e) (hexpressed : ∃ a c, IsExpressed l.field.2 a c) :
    IsExpressed l.field.2 .one (.member e) := by
  obtain ⟨a, c, hexpressed⟩ := hexpressed
  rw [h.type] at hexpressed ⊢
  cases hexpressed with
  | choice named => exact .choice named

variable {s : Schema} {c : CommandLine} {config : Setting}

/-- What is attached to the flag of a choice is its value. -/
theorem presents (h : l.IsChoice e) (hs : Sectioned s) (htakes : TakesFlags c s)
    (hl : l ∈ s.leaves) (hexpressed : ∃ a c, IsExpressed l.field.2 a c) (word : String) :
    c.Presents [joined (Flags.spelling l.path) (some word)]
      (Flags.option l.path l.field.1.help .one (.member e)) (attachedValues word) := by
  have hexpressed := h.isExpressed hexpressed
  have hflag := htakes.find?_flag hs hl hexpressed
  rw [hexpressed.flag] at hflag
  exact CommandLine.presents_attached htakes.noEquals hflag (Options.startsWith_append _ _)
    nofun word

/-- The flag of a choice takes the texts that are members in lower case. -/
theorem sets_iff (h : l.IsChoice e) (hs : Sectioned s) (htakes : TakesFlags c s)
    (hl : l ∈ s.leaves) (hexpressed : ∃ a c, IsExpressed l.field.2 a c)
    (hconfig : config.IsComplete s) (word : String) :
    s.Sets c config [joined (Flags.spelling l.path) (some word)] l.path new ↔
      ∃ m, .text m ∈ e.members ∧ m.toLower = (Text.ofString word).toLower ∧
        new = .value (.text m) := by
  rw [Schema.sets_iff (h.presents hs htakes hl hexpressed word) rfl
    (hs.reaches hconfig (hs.fieldAt?_leaf hl))]
  -- the check leaves the member that is named as it is
  refine (h.reads_iff word).trans ⟨?_, ?_⟩
  · rintro ⟨x, hx, hnew⟩
    obtain ⟨m, hm, hsame, rfl⟩ := h.named?_iff.mp hx
    exact ⟨m, hm, hsame, (Except.ok.inj ((h.check_member hm).symm.trans hnew)).symm⟩
  · rintro ⟨m, hm, hsame, rfl⟩
    exact ⟨_, h.named?_iff.mpr ⟨m, hm, hsame, rfl⟩, h.check_member hm⟩

end Leaf.IsChoice

/-! ## The choices of the program -/

namespace Ingester

/-- The paths of choices. -/
def choicePaths : List String := ["log.level", "log.format", "storage.backend"]

theorem isChoice_textChoice {group name : String} {members : List String} {info : FieldInfo}
    (hrule : info.rule = none)
    (hdistinct : ((textChoice name members).members.map fun m => m.plain.toLower).Nodup)
    (hseparator : ∀ m ∈ (textChoice name members).members,
      m.plain.toLower ≠ (Text.ofString separator).toLower)
    (hcapital : info.upperCase = true →
      ∀ m ∈ (textChoice name members).members, m.plain.IsPlainWord) :
    Leaf.IsChoice ⟨group, info, .enumeration (textChoice name members)⟩
      (textChoice name members) where
  type := rfl
  rule := hrule
  texts := wellFormed_textChoice name members rfl
  distinct := hdistinct
  noSeparator := hseparator
  capital := hcapital

theorem isChoice : ∀ l ∈ schema.leaves, l.path ∈ choicePaths → ∃ e, l.IsChoice e := by
  have hnone : ∀ {l : Leaf}, l.path ∉ choicePaths → l.path ∈ choicePaths → ∃ e, l.IsChoice e :=
    fun hnot hpath => (hnot hpath).elim
  have hlevel : Leaf.IsChoice ⟨"log", levelField⟩ logLevels :=
    isChoice_textChoice rfl (by decide +kernel) (by decide +kernel) (by decide +kernel)
  have hformat : Leaf.IsChoice ⟨"log", choiceField "format"
      "Output log messages in the given format (text or json)" "text" logFormats⟩ logFormats :=
    isChoice_textChoice rfl (by decide +kernel) (by decide +kernel) nofun
  have hbackend : Leaf.IsChoice ⟨"storage", choiceField "backend"
      "Backend storage to use (filesystem, s3 or gcs)" "filesystem" storageBackends⟩
      storageBackends :=
    isChoice_textChoice rfl (by decide +kernel) (by decide +kernel) nofun
  simp only [Schema.leaves, schema, groupField, Schema.toType, List.flatMap_cons, List.flatMap_nil,
    List.append_nil, List.forall_mem_append, List.forall_mem_map, server, log, storage, ingester,
    blocksStorage, List.forall_mem_cons]
  refine ⟨⟨hnone ?_, hnone ?_, hnone ?_, hnone ?_, by simp⟩,
    ⟨fun _ => ⟨_, hlevel⟩, fun _ => ⟨_, hformat⟩, hnone ?_, hnone ?_, hnone ?_, by simp⟩,
    ⟨fun _ => ⟨_, hbackend⟩, hnone ?_, hnone ?_, hnone ?_, by simp⟩,
    ⟨hnone ?_, hnone ?_, hnone ?_, hnone ?_, by simp⟩,
    ⟨hnone ?_, hnone ?_, hnone ?_, hnone ?_, by simp⟩⟩ <;> decide

theorem upperCase_eq : ∀ l ∈ schema.leaves, l.field.1.upperCase = (l.path == "log.level") := by
  decide +kernel

/-- **The flag of a choice takes its members in any case, a file only the log level.** Over
reachable settings, let the flag of the log level, the log format or the storage backend be given
some text, on the command line with the startup options or without, and let a document give the same
text to the same leaf and nothing else. The flag and the load are each accepted exactly if they
leave something in the leaf. The flag leaves the member that is the same in lower case, and the load
the one that the text is itself, or, for the log level, in upper case. So for the log level both
leave the same unless the text has a dotless i in it and the load is accepted, and for the others
unless the flag leaves something else than the text itself. -/
theorem choice_spellings {config : Setting} (hconfig : Session.Reachable schema config)
    {c : CommandLine} (hc : c = Program.commandLine ∨ c = Program.fullCommandLine) {l : Leaf}
    (hl : l ∈ schema.leaves) (hpath : l.path ∈ choicePaths) {files : FileTree} {env : Environment}
    {r : Load.Request} {upper : Entries} {word : String}
    (hdocument : Load.document? files env r = some upper) (hupper : upper.IsOnly l (.string word))
    (metric : Metric) :
    let args := [joined (Flags.spelling l.path) (some word)]
    let byFlag := schema.Sets c config args l.path
    let byFile := Load.Sets schema files env r config metric l
    let t := Text.ofString word
    ((∃ as, c.read args = .settings as ∧ (schema.applyFlags config as).stop = none) ↔
      ∃ new, byFlag new) ∧
    ((∃ fingerprint, (Load.run schema files env r config metric).result = .ok fingerprint) ↔
      ∃ new, byFile new) ∧
    (∃ e, l.field.2 = .enumeration e ∧
      (∀ new, byFlag new ↔
        ∃ m, .text m ∈ e.members ∧ m.toLower = t.toLower ∧ new = .value (.text m)) ∧
      ∀ new, byFile new ↔
        ∃ m, .text m ∈ e.members ∧ m = (if l.path = "log.level" then t.toUpper else t) ∧
          new = .value (.text m)) ∧
    (l.path = "log.level" → ((∀ new, byFlag new ↔ byFile new) ↔
      ('\u0131' ∈ word.toList → ∀ new, ¬ byFile new))) ∧
    (l.path ≠ "log.level" → ((∀ new, byFlag new ↔ byFile new) ↔
      ∀ new, byFlag new → new = .value (.string word))) := by
  intro args byFlag byFile t
  obtain ⟨e, he⟩ := isChoice l hl hpath
  have hsettled := isSettled_of_reachable hconfig
  have htakes : TakesFlags c schema := by
    rcases hc with rfl | rfl
    · exact takesFlags_commandLine
    · exact takesFlags_fullCommandLine
  have hreaches := sectioned.reaches hsettled.isComplete (sectioned.fieldAt?_leaf hl)
  have hwellFormed : schema.WellFormed := wellFormed _ (by simp [schemas])
  have hflag : ∀ new, byFlag new ↔
      ∃ m, .text m ∈ e.members ∧ m.toLower = t.toLower ∧ new = .value (.text m) := fun new =>
    he.sets_iff sectioned htakes hl (isExpressed l hl) hsettled.isComplete word
  have hfile : ∀ new, byFile new ↔ l.field.check (.value (.text t)) = .ok new := fun new =>
    Load.sets_iff sectioned hwellFormed hsettled hl hdocument hupper
  have hcapital := upperCase_eq l hl
  have hpresents := he.presents sectioned htakes hl (isExpressed l hl) word
  refine ⟨Schema.accepted_iff hpresents rfl hreaches,
    Load.succeeds_iff sectioned hwellFormed hsettled hl hdocument hupper,
    ⟨e, he.type, hflag, fun new => ?_⟩, fun hlevel => ?_, fun hother => ?_⟩
  · have htaken : l.field.1.taken t = if l.path = "log.level" then t.toUpper else t := by
      rw [FieldInfo.taken, hcapital]
      simp only [beq_iff_eq]
    rw [hfile, he.check_text, htaken]
    simp
  · have hupper : l.field.1.upperCase = true := by rw [hcapital, hlevel]; rfl
    have hdotless : Case.dotlessI ∈ t.points ↔ '\u0131' ∈ word.toList :=
      Case.dotlessI_mem_points word
    -- the flag takes what the file takes, unless there is a dotless i
    simp only [hflag, he.named_iff_check hupper, ← hfile, hdotless, and_iff_left_iff_imp]
    exact ⟨fun h hmem new hnew => h new hnew hmem, fun h new hnew hmem => h hmem new hnew⟩
  · have hupper : l.field.1.upperCase = false := by rw [hcapital]; simpa using hother
    -- the file takes what the flag takes, if it is the text itself
    simp only [hfile, he.check_iff_named hupper, ← hflag, iff_self_and]
    rfl

/-- The log level in capitals and small letters. -/
theorem choice_spellings_info :
    let files : FileTree := ⟨["srv"], [(["srv", "cfg.yaml"],
      .file (Utf8.ofString "log: \x7blevel: Info\x7d"))]⟩
    let r : Load.Request := ⟨"cfg.yaml", true⟩
    ∃ s upper, ∃ l ∈ schema.leaves, Session.begin schema files Environment.empty = .ok s ∧
      l.path = "log.level" ∧ Load.document? files Environment.empty r = some upper ∧
      upper.IsOnly l (.string "Info") ∧
      schema.Sets Program.commandLine s.config ["--log.level=Info"] "log.level"
        (.value (.string "INFO")) ∧
      Load.Sets schema files Environment.empty r s.config Metric.new l
        (.value (.string "INFO")) := by
  intro files r
  let l : Leaf := ⟨"log", levelField⟩
  have hbegin : (Session.begin schema files Environment.empty).toOption.isSome = true := by
    decide +kernel
  have hdocument : (Load.document? files Environment.empty r).bind Entries.only? =
      some (.text (Text.ofString "log"), levelField.1.key, .text (Text.ofString "Info")) := by
    decide +kernel
  obtain ⟨s, hs⟩ := Option.isSome_iff_exists.mp hbegin
  have hs := eq_ok_of_toOption hs
  obtain ⟨upper, hupper, honly⟩ := Option.bind_eq_some_iff.mp hdocument
  have hl : l ∈ schema.leaves :=
    List.mem_of_getElem? (show schema.leaves[4]? = some l from rfl)
  have hpath : l.path = "log.level" := by decide
  have hargument : joined (Flags.spelling "log.level") (some "Info") = "--log.level=Info" := by
    decide
  have hmember : .text (Text.ofString "INFO") ∈ logLevels.members := by decide +kernel
  have hsame : (Text.ofString "INFO").toLower = (Text.ofString "Info").toLower := by
    decide +kernel
  have honly : upper.IsOnly l (.string "Info") := Entries.isOnly_of_only? honly
  obtain ⟨_, _, ⟨e, he, hflag, _⟩, hagree, _⟩ := choice_spellings ⟨_, _, s, [], hs, rfl⟩ (.inl rfl)
    hl (by decide) hupper honly Metric.new
  cases he
  have hnew := (hflag (.value (.string "INFO"))).mpr ⟨_, hmember, hsame, rfl⟩
  have hfile := ((hagree hpath).mpr fun hmem => absurd hmem (by decide)) _ |>.mp hnew
  rw [hpath, hargument] at hnew
  exact ⟨s, upper, l, hl, hs, hpath, hupper, honly, hnew, hfile⟩

/-- A format in capitals is taken by the flag only, and a level with a dotless i by the file only.
-/
theorem choice_spellings_differ :
    let files : String → FileTree := fun text =>
      ⟨["srv"], [(["srv", "cfg.yaml"], .file (Utf8.ofString text))]⟩
    let r : Load.Request := ⟨"cfg.yaml", true⟩
    let document := fun text => Load.document? (files text) Environment.empty r
    let format := "log: \x7bformat: JSON\x7d"
    let level := "log: \x7blevel: \u0131nfo\x7d"
    ∃ config, schema.defaults = .ok config ∧
      (∃ upper, ∃ l ∈ schema.leaves, l.path = "log.format" ∧ document format = some upper ∧
        upper.IsOnly l (.string "JSON") ∧
        schema.Sets Program.commandLine config ["--log.format=JSON"] l.path
          (.value (.string "json")) ∧
        ∃ failure, (Load.run schema (files format) Environment.empty r config Metric.new).result =
          .error failure) ∧
      ∃ upper, ∃ l ∈ schema.leaves, l.path = "log.level" ∧ document level = some upper ∧
        upper.IsOnly l (.string "\u0131nfo") ∧
        (∀ new, ¬ schema.Sets Program.commandLine config ["--log.level=\u0131nfo"] l.path new) ∧
        Load.Sets schema (files level) Environment.empty r config Metric.new l
          (.value (.string "INFO")) := by
  intro files r document format level
  have hdefaults : schema.defaults.toOption.isSome = true := by decide +kernel
  have hformat : (document format).bind Entries.only? = some (.text (Text.ofString "log"),
      .text (Text.ofString "format"), .text (Text.ofString "JSON")) := by decide +kernel
  have hlevel : (document level).bind Entries.only? = some (.text (Text.ofString "log"),
      .text (Text.ofString "level"), .text (Text.ofString "\u0131nfo")) := by decide +kernel
  obtain ⟨config, hconfig⟩ := Option.isSome_iff_exists.mp hdefaults
  have hconfig := eq_ok_of_toOption hconfig
  have hsettled : config.IsSettled schema := sectioned.settled_check exact hconfig
  have hwellFormed : schema.WellFormed := wellFormed _ (by simp [schemas])
  refine ⟨config, hconfig, ?_, ?_⟩
  · obtain ⟨upper, hupper, honly⟩ := Option.bind_eq_some_iff.mp hformat
    let l : Leaf := schema.leaves[5]
    have hl : l ∈ schema.leaves := List.getElem_mem _
    have hpath : l.path = "log.format" := by decide
    have honly : upper.IsOnly l (.string "JSON") := Entries.isOnly_of_only? honly
    obtain ⟨e, he⟩ := isChoice l hl (by decide)
    obtain rfl : logFormats = e := FieldType.enumeration.inj he.type
    have hmember : .text (Text.ofString "json") ∈ logFormats.members := by decide +kernel
    have hsame : (Text.ofString "json").toLower = (Text.ofString "JSON").toLower := by
      decide +kernel
    have hflag := (he.sets_iff sectioned takesFlags_commandLine hl (isExpressed l hl)
      hsettled.isComplete "JSON").mpr ⟨_, hmember, hsame, rfl⟩
    have hfile := Load.run_isOnly sectioned hwellFormed hsettled hl hupper honly Metric.new
    have hargument : joined (Flags.spelling l.path) (some "JSON") = "--log.format=JSON" := by
      decide
    rw [hargument] at hflag
    refine ⟨upper, l, hl, hpath, hupper, honly, hflag, ?_⟩
    cases hcheck : l.field.check (.value (.string "JSON")) with
    | ok new => exact absurd (he.check_text.mp hcheck).1 (by decide +kernel)
    | error issues =>
      rw [hcheck] at hfile
      exact hfile
  · obtain ⟨upper, hupper, honly⟩ := Option.bind_eq_some_iff.mp hlevel
    let l : Leaf := schema.leaves[4]
    have hl : l ∈ schema.leaves := List.getElem_mem _
    have hpath : l.path = "log.level" := by decide
    have honly : upper.IsOnly l (.string "\u0131nfo") := Entries.isOnly_of_only? honly
    obtain ⟨e, he⟩ := isChoice l hl (by decide)
    obtain rfl : logLevels = e := FieldType.enumeration.inj he.type
    have hflag : ∀ new, schema.Sets Program.commandLine config
        [joined (Flags.spelling l.path) (some "\u0131nfo")] l.path new ↔ _ := fun new =>
      he.sets_iff sectioned takesFlags_commandLine hl (isExpressed l hl) hsettled.isComplete _
    have hargument :
        joined (Flags.spelling l.path) (some "\u0131nfo") = "--log.level=\u0131nfo" := by decide
    have hnone : ∀ x ∈ logLevels.members,
        x.plain.toLower ≠ (Text.ofString "\u0131nfo").toLower := by decide +kernel
    have htaken : l.field.1.taken (Text.ofString "\u0131nfo") = Text.ofString "INFO" := by
      decide +kernel
    rw [hargument] at hflag
    refine ⟨upper, l, hl, hpath, hupper, honly, fun new hnew => ?_, ?_⟩
    · obtain ⟨m, hm, hsame, _⟩ := (hflag new).mp hnew
      exact hnone _ hm hsame
    · refine (Load.sets_iff sectioned hwellFormed hsettled hl hupper honly).mpr ?_
      refine he.check_text.mpr ?_
      rw [htaken]
      exact ⟨by decide +kernel, rfl⟩

end Ingester

end BootConfig
