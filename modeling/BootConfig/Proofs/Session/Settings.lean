import BootConfig.Proofs.Failing
import BootConfig.Proofs.Schema.Settled
import BootConfig.Proofs.Session.Reachable

/-!
# The settings of the ingester as a record

Whatever a session does, its settings are a record of the right types: ports are in range, there is
a replica at least, the storage directory starts at the root, and choices are members. Written out
and checked, the record is what it has been.

* `Ingester.Settings`: these records. Values out of range cannot be written down.
* `Ingester.isSettled_of_reachable`: the invariant of sessions from which this follows.
* `Ingester.settings_of_reachable`: reachable settings are such records, and their own check.
-/

namespace BootConfig.Ingester

/-! ## Records -/

/-- An integer that a port may be. -/
abbrev Port := {n : Int // 0 ≤ n ∧ n ≤ 65535}

abbrev Replicas := {n : Int // 1 ≤ n}

abbrev AbsolutePath := {t : Text // t.points.head? = some (CodePoint.ofChar '/')}

inductive LogLevel where
  | debug
  | info
  | warning
  | error
  | critical

def LogLevel.name : LogLevel → String
  | .debug => "DEBUG"
  | .info => "INFO"
  | .warning => "WARNING"
  | .error => "ERROR"
  | .critical => "CRITICAL"

inductive LogFormat where
  | text
  | json

def LogFormat.name : LogFormat → String
  | .text => "text"
  | .json => "json"

inductive StorageBackend where
  | filesystem
  | s3
  | gcs

def StorageBackend.name : StorageBackend → String
  | .filesystem => "filesystem"
  | .s3 => "s3"
  | .gcs => "gcs"

structure ServerSettings where
  httpListenAddress : Text
  httpListenPort : Port
  grpcListenPort : Port
  metricsPort : Port

structure LogSettings where
  level : LogLevel
  format : LogFormat
  file : Option Text
  rotationSize : Int
  retentionCount : Int

structure StorageSettings where
  backend : StorageBackend
  directory : AbsolutePath
  bucketName : Option Text
  endpoint : Option Text

structure IngesterSettings where
  replicationFactor : Replicas
  heartbeatPeriod : Int
  joinAfter : Int
  finalSleep : Int

structure BlocksStorageSettings where
  tsdbDir : Text
  blockRanges : List Int
  retentionPeriod : Int
  shipInterval : Int

/-- All settings of the ingester. -/
structure Settings where
  server : ServerSettings
  log : LogSettings
  storage : StorageSettings
  ingester : IngesterSettings
  blocksStorage : BlocksStorageSettings

/-! ## Records as settings -/

def ofInt (n : Int) : Setting := .value (.int n)

def ofText (t : Text) : Setting := .value (.text t)

def ofName (name : String) : Setting := .value (.string name)

def ofOptional : Option Text → Setting
  | none => .value .null
  | some t => ofText t

def ServerSettings.toSetting (r : ServerSettings) : Setting := .group "ServerConfig" [
  ("http_listen_address", ofText r.httpListenAddress),
  ("http_listen_port", ofInt r.httpListenPort),
  ("grpc_listen_port", ofInt r.grpcListenPort),
  ("metrics_port", ofInt r.metricsPort)]

def LogSettings.toSetting (r : LogSettings) : Setting := .group "LogConfig" [
  ("level", ofName r.level.name),
  ("format", ofName r.format.name),
  ("file", ofOptional r.file),
  ("rotation_size", ofInt r.rotationSize),
  ("retention_count", ofInt r.retentionCount)]

def StorageSettings.toSetting (r : StorageSettings) : Setting := .group "StorageConfig" [
  ("backend", ofName r.backend.name),
  ("directory", ofText r.directory),
  ("bucket_name", ofOptional r.bucketName),
  ("endpoint", ofOptional r.endpoint)]

def IngesterSettings.toSetting (r : IngesterSettings) : Setting := .group "IngesterConfig" [
  ("replication_factor", ofInt r.replicationFactor),
  ("heartbeat_period", ofInt r.heartbeatPeriod),
  ("join_after", ofInt r.joinAfter),
  ("final_sleep", ofInt r.finalSleep)]

def BlocksStorageSettings.toSetting (r : BlocksStorageSettings) : Setting :=
  .group "BlocksStorageConfig" [
    ("tsdb_dir", ofText r.tsdbDir),
    ("block_ranges", .value (.list (r.blockRanges.map Value.int))),
    ("retention_period", ofInt r.retentionPeriod),
    ("ship_interval", ofInt r.shipInterval)]

def Settings.toSetting (r : Settings) : Setting := .group "Config" [
  ("server", r.server.toSetting),
  ("log", r.log.toSetting),
  ("storage", r.storage.toSetting),
  ("ingester", r.ingester.toSetting),
  ("blocks_storage", r.blocksStorage.toSetting)]

/-! ## What leaves hold -/

section Leaves

variable {name help : String} {st : Setting}

theorem scalar_of_plain {t : ScalarType} {default : Value} {rule : Option Rule}
    (h : (plain t name help default rule).HoldsPlain st) :
    ∃ s, st = .value (.scalar s) ∧ t.coerceScalar s = .ok s ∧
      ∀ r, rule = some r → r.holds s = true := by
  obtain ⟨v, rfl, hv⟩ := h
  obtain ⟨hcheck, hobey⟩ := Field.check_eq_ok hv.check
  obtain ⟨s, hs, hcoerce⟩ := FieldType.check_scalar_eq_ok hcheck
  cases hs
  refine ⟨s, rfl, hcoerce, fun r hr => ?_⟩
  subst hr
  by_contra hbroken
  have hobey : (if r.holds s then Except.ok (Setting.value (.scalar s)) else
      Checked.fault (.brokenRule r s)) = .ok (.value (.scalar s)) := hobey
  rw [if_neg hbroken] at hobey
  cases hobey

theorem int_of_coerceScalar {s : Scalar} (h : ScalarType.int.coerceScalar s = .ok s) :
    ∃ n, s = .int n := by
  have h : (Coercion.int s).map Scalar.int = .ok s := h
  cases hint : Coercion.int s with
  | error kind =>
    rw [hint] at h
    cases h
  | ok n =>
    rw [hint] at h
    exact ⟨n, (Except.ok.inj h).symm⟩

theorem text_of_coerceScalar {s : Scalar} (h : ScalarType.text.coerceScalar s = .ok s) :
    ∃ t, s = .text t := by
  have h : (Coercion.text s).map Scalar.text = .ok s := h
  cases htext : Coercion.text s with
  | error kind =>
    rw [htext] at h
    cases h
  | ok t =>
    rw [htext] at h
    exact ⟨t, (Except.ok.inj h).symm⟩

theorem int_of_plain {default : Value} {rule : Option Rule}
    (h : (plain .int name help default rule).HoldsPlain st) :
    ∃ n, st = ofInt n ∧ ∀ r, rule = some r → r.holds (.int n) = true := by
  obtain ⟨s, rfl, hcoerce, hrule⟩ := scalar_of_plain h
  obtain ⟨n, rfl⟩ := int_of_coerceScalar hcoerce
  exact ⟨n, rfl, hrule⟩

theorem text_of_plain {default : Value} {rule : Option Rule}
    (h : (plain .text name help default rule).HoldsPlain st) :
    ∃ t, st = ofText t ∧ ∀ r, rule = some r → r.holds (.text t) = true := by
  obtain ⟨s, rfl, hcoerce, hrule⟩ := scalar_of_plain h
  obtain ⟨t, rfl⟩ := text_of_coerceScalar hcoerce
  exact ⟨t, rfl, hrule⟩

theorem port_of_holds {default : Int} (h : (portField name help default).HoldsPlain st) :
    ∃ p : Port, st = ofInt p := by
  obtain ⟨n, rfl, hrule⟩ := int_of_plain h
  have hrange : (decide (0 ≤ n) && decide (n ≤ 65535)) = true := hrule .port rfl
  exact ⟨⟨n, by simpa using hrange⟩, rfl⟩

theorem replicas_of_holds (h : replicationField.HoldsPlain st) : ∃ n : Replicas, st = ofInt n := by
  obtain ⟨n, rfl, hrule⟩ := int_of_plain h
  exact ⟨⟨n, of_decide_eq_true (hrule .replicas rfl)⟩, rfl⟩

theorem directory_of_holds (h : directoryField.HoldsPlain st) :
    ∃ d : AbsolutePath, st = ofText d := by
  obtain ⟨t, rfl, hrule⟩ := text_of_plain h
  exact ⟨⟨t, eq_of_beq (hrule .directory rfl)⟩, rfl⟩

theorem optional_of_holds (h : (optionalText name help).HoldsPlain st) :
    ∃ t, st = ofOptional t := by
  obtain ⟨v, rfl, hv⟩ := h
  rcases FieldType.check_optional_eq_ok (Field.check_eq_ok hv.check).1 with
    ⟨w, hw, hnull⟩ | ⟨s, hs, hcoerce⟩
  · cases hw
    rw [hv.tree] at hnull
    cases hnull
    exact ⟨none, rfl⟩
  · obtain ⟨t, rfl⟩ := text_of_coerceScalar hcoerce
    cases hs
    exact ⟨some t, rfl⟩

/-- A choice among texts holds one of them. -/
theorem name_of_choice {info : FieldInfo} {enumName : String} {members : List String}
    (h : Field.HoldsPlain (info, .enumeration (textChoice enumName members)) st) :
    ∃ m ∈ members, st = ofName m := by
  obtain ⟨v, rfl, hv⟩ := h
  obtain ⟨_, hm, hvalue, _⟩ := FieldType.check_enumeration_eq_ok
    (wellFormed_textChoice enumName members) rfl (Field.check_eq_ok hv.check).1
  obtain ⟨m, hmember, rfl⟩ := List.mem_map.mp hm
  exact ⟨m, hmember, hvalue⟩

/-- Items that are taken as integers are integers. -/
theorem ints_of_coerceScalar {items : List Value}
    (h : ∀ v ∈ items, ∃ s, v = .scalar s ∧ ScalarType.int.coerceScalar s = .ok s) :
    ∃ ns : List Int, items = ns.map Value.int := by
  induction items with
  | nil => exact ⟨[], rfl⟩
  | cons item rest ih =>
    rw [List.forall_mem_cons] at h
    obtain ⟨⟨s, rfl, hcoerce⟩, hrest⟩ := h
    obtain ⟨n, rfl⟩ := int_of_coerceScalar hcoerce
    obtain ⟨ns, rfl⟩ := ih hrest
    exact ⟨n :: ns, rfl⟩

theorem ranges_of_holds (h : blockRangesField.HoldsPlain st) :
    ∃ ns : List Int, st = .value (.list (ns.map Value.int)) := by
  obtain ⟨v, rfl, hv⟩ := h
  obtain ⟨items, hvalue, hitems, _⟩ :=
    FieldType.check_list_eq_ok (Field.check_eq_ok hv.check).1
  obtain ⟨ns, rfl⟩ := ints_of_coerceScalar hitems
  exact ⟨ns, hvalue⟩

theorem level_of_holds (h : levelField.HoldsPlain st) : ∃ l : LogLevel, st = ofName l.name := by
  obtain ⟨m, hm, rfl⟩ := name_of_choice h
  simp only [List.mem_cons, List.not_mem_nil, or_false] at hm
  rcases hm with rfl | rfl | rfl | rfl | rfl
  · exact ⟨.debug, rfl⟩
  · exact ⟨.info, rfl⟩
  · exact ⟨.warning, rfl⟩
  · exact ⟨.error, rfl⟩
  · exact ⟨.critical, rfl⟩

theorem format_of_holds {default : String}
    (h : (choiceField name help default logFormats).HoldsPlain st) :
    ∃ f : LogFormat, st = ofName f.name := by
  obtain ⟨m, hm, rfl⟩ := name_of_choice h
  simp only [List.mem_cons, List.not_mem_nil, or_false] at hm
  rcases hm with rfl | rfl
  · exact ⟨.text, rfl⟩
  · exact ⟨.json, rfl⟩

theorem backend_of_holds {default : String}
    (h : (choiceField name help default storageBackends).HoldsPlain st) :
    ∃ b : StorageBackend, st = ofName b.name := by
  obtain ⟨m, hm, rfl⟩ := name_of_choice h
  simp only [List.mem_cons, List.not_mem_nil, or_false] at hm
  rcases hm with rfl | rfl | rfl
  · exact ⟨.filesystem, rfl⟩
  · exact ⟨.s3, rfl⟩
  · exact ⟨.gcs, rfl⟩

end Leaves

/-! ## What sections hold -/

section Sections

variable {P : Field → Setting → Prop} {st config : Setting}

/-- The first field of settings that a schema describes. -/
theorem first_field {f : Field} {rest : List Field} {fs : List (String × Setting)}
    (h : List.Forall₂ (fun f p => p.1 = f.1.name ∧ P f p.2) (f :: rest) fs) :
    ∃ st fs', fs = (f.1.name, st) :: fs' ∧ P f st ∧
      List.Forall₂ (fun f p => p.1 = f.1.name ∧ P f p.2) rest fs' := by
  cases h with
  | @cons _ p _ fs' hhead htail =>
    obtain ⟨name, st⟩ := p
    obtain ⟨rfl, hst⟩ := hhead
    exact ⟨st, fs', rfl, hst, htail⟩

theorem fields_of_section {g : Field} {inner : Schema} (hinner : IsSection g inner)
    (h : InSection P g st) : inner.Describes P st := by
  obtain ⟨inner', hinner', hst⟩ := h
  exact hinner.unique hinner' ▸ hst

theorem server_of_section (h : InSection Field.HoldsPlain (groupField "server" server) st) :
    ∃ r : ServerSettings, st = r.toSetting := by
  obtain ⟨fs, rfl, hfs⟩ := fields_of_section isSection_server h
  obtain ⟨_, _, rfl, haddress, hfs⟩ := first_field hfs
  obtain ⟨_, _, rfl, hhttp, hfs⟩ := first_field hfs
  obtain ⟨_, _, rfl, hgrpc, hfs⟩ := first_field hfs
  obtain ⟨_, _, rfl, hmetrics, hfs⟩ := first_field hfs
  cases hfs
  obtain ⟨address, rfl, _⟩ := text_of_plain haddress
  obtain ⟨http, rfl⟩ := port_of_holds hhttp
  obtain ⟨grpc, rfl⟩ := port_of_holds hgrpc
  obtain ⟨metrics, rfl⟩ := port_of_holds hmetrics
  exact ⟨⟨address, http, grpc, metrics⟩, rfl⟩

theorem log_of_section (h : InSection Field.HoldsPlain (groupField "log" log) st) :
    ∃ r : LogSettings, st = r.toSetting := by
  obtain ⟨fs, rfl, hfs⟩ := fields_of_section isSection_log h
  obtain ⟨_, _, rfl, hlevel, hfs⟩ := first_field hfs
  obtain ⟨_, _, rfl, hformat, hfs⟩ := first_field hfs
  obtain ⟨_, _, rfl, hfile, hfs⟩ := first_field hfs
  obtain ⟨_, _, rfl, hsize, hfs⟩ := first_field hfs
  obtain ⟨_, _, rfl, hcount, hfs⟩ := first_field hfs
  cases hfs
  obtain ⟨level, rfl⟩ := level_of_holds hlevel
  obtain ⟨format, rfl⟩ := format_of_holds hformat
  obtain ⟨file, rfl⟩ := optional_of_holds hfile
  obtain ⟨size, rfl, _⟩ := int_of_plain hsize
  obtain ⟨count, rfl, _⟩ := int_of_plain hcount
  exact ⟨⟨level, format, file, size, count⟩, rfl⟩

theorem storage_of_section (h : InSection Field.HoldsPlain (groupField "storage" storage) st) :
    ∃ r : StorageSettings, st = r.toSetting := by
  obtain ⟨fs, rfl, hfs⟩ := fields_of_section isSection_storage h
  obtain ⟨_, _, rfl, hbackend, hfs⟩ := first_field hfs
  obtain ⟨_, _, rfl, hdirectory, hfs⟩ := first_field hfs
  obtain ⟨_, _, rfl, hbucket, hfs⟩ := first_field hfs
  obtain ⟨_, _, rfl, hendpoint, hfs⟩ := first_field hfs
  cases hfs
  obtain ⟨backend, rfl⟩ := backend_of_holds hbackend
  obtain ⟨directory, rfl⟩ := directory_of_holds hdirectory
  obtain ⟨bucket, rfl⟩ := optional_of_holds hbucket
  obtain ⟨endpoint, rfl⟩ := optional_of_holds hendpoint
  exact ⟨⟨backend, directory, bucket, endpoint⟩, rfl⟩

theorem ingester_of_section (h : InSection Field.HoldsPlain (groupField "ingester" ingester) st) :
    ∃ r : IngesterSettings, st = r.toSetting := by
  obtain ⟨fs, rfl, hfs⟩ := fields_of_section isSection_ingester h
  obtain ⟨_, _, rfl, hreplicas, hfs⟩ := first_field hfs
  obtain ⟨_, _, rfl, hheartbeat, hfs⟩ := first_field hfs
  obtain ⟨_, _, rfl, hjoin, hfs⟩ := first_field hfs
  obtain ⟨_, _, rfl, hsleep, hfs⟩ := first_field hfs
  cases hfs
  obtain ⟨replicas, rfl⟩ := replicas_of_holds hreplicas
  obtain ⟨heartbeat, rfl, _⟩ := int_of_plain hheartbeat
  obtain ⟨join, rfl, _⟩ := int_of_plain hjoin
  obtain ⟨sleep, rfl, _⟩ := int_of_plain hsleep
  exact ⟨⟨replicas, heartbeat, join, sleep⟩, rfl⟩

theorem blocksStorage_of_section
    (h : InSection Field.HoldsPlain (groupField "blocks_storage" blocksStorage) st) :
    ∃ r : BlocksStorageSettings, st = r.toSetting := by
  obtain ⟨fs, rfl, hfs⟩ := fields_of_section isSection_blocksStorage h
  obtain ⟨_, _, rfl, hdir, hfs⟩ := first_field hfs
  obtain ⟨_, _, rfl, hranges, hfs⟩ := first_field hfs
  obtain ⟨_, _, rfl, hretention, hfs⟩ := first_field hfs
  obtain ⟨_, _, rfl, hship, hfs⟩ := first_field hfs
  cases hfs
  obtain ⟨dir, rfl, _⟩ := text_of_plain hdir
  obtain ⟨ranges, rfl⟩ := ranges_of_holds hranges
  obtain ⟨retention, rfl, _⟩ := int_of_plain hretention
  obtain ⟨ship, rfl, _⟩ := int_of_plain hship
  exact ⟨⟨dir, ranges, retention, ship⟩, rfl⟩

theorem settings_of_plain (h : config.IsPlain schema) : ∃ r : Settings, config = r.toSetting := by
  obtain ⟨fs, rfl, hfs⟩ := h
  obtain ⟨_, _, rfl, hserver, hfs⟩ := first_field hfs
  obtain ⟨_, _, rfl, hlog, hfs⟩ := first_field hfs
  obtain ⟨_, _, rfl, hstorage, hfs⟩ := first_field hfs
  obtain ⟨_, _, rfl, hingester, hfs⟩ := first_field hfs
  obtain ⟨_, _, rfl, hblocks, hfs⟩ := first_field hfs
  cases hfs
  obtain ⟨server, rfl⟩ := server_of_section hserver
  obtain ⟨log, rfl⟩ := log_of_section hlog
  obtain ⟨storage, rfl⟩ := storage_of_section hstorage
  obtain ⟨ingester, rfl⟩ := ingester_of_section hingester
  obtain ⟨blocks, rfl⟩ := blocksStorage_of_section hblocks
  exact ⟨⟨server, log, storage, ingester, blocks⟩, rfl⟩

end Sections

/-! ## Reachable settings -/

theorem exact : schema.Exact := by
  intro l hl
  obtain ⟨g, hg, inner, hinner, _, hf⟩ := sectioned.of_mem_leaves hl
  -- the schema of a section is one of those that are well formed
  have hwellFormed : inner.WellFormed := by
    refine wellFormed inner ?_
    simp only [schema, List.mem_cons, List.not_mem_nil, or_false] at hg
    rcases hg with rfl | rfl | rfl | rfl | rfl
    · simp [schemas, hinner.unique isSection_server]
    · simp [schemas, hinner.unique isSection_log]
    · simp [schemas, hinner.unique isSection_storage]
    · simp [schemas, hinner.unique isSection_ingester]
    · simp [schemas, hinner.unique isSection_blocksStorage]
  have hclosed : l.field.2.Closed := by
    have hgroup := closed g hg
    rw [hinner.type] at hgroup
    cases hgroup with
    | group hfields => exact hfields l.field hf
  have htextual : (schema.leaves.all fun l => l.field.2.choosesText) = true := by decide
  exact Field.exact (hwellFormed.fields l.field hf) (hinner.leaf l.field hf) hclosed
    (List.all_eq_true.mp htextual l hl)

theorem keeps_settled : schema.Keeps fun config => config.IsSettled schema :=
  ⟨sectioned.settled_check exact, sectioned.settled_change exact, Sectioned.settled_commit⟩

/-- The settings of the ingester are settled in the whole course of a session. -/
theorem isSettled_of_reachable {config : Setting} (h : Session.Reachable schema config) :
    config.IsSettled schema :=
  Session.keeps_of_reachable keeps_settled h

/-- **The settings of a session are a valid record.** Whatever is loaded, assigned, given by flags
and started up, from whatever files and with whatever values, and whether or not it succeeds: the
settings, with null unfolded where it is the root of a graph, are a record in which every port is in
range, there is a replica at least, the storage directory starts at the root, each choice is a
member and every other field is of its type. Written out they are accepted, and checked to be the
same record. -/
theorem settings_of_reachable {config : Setting} (h : Session.Reachable schema config) :
    ∃ r : Settings, config.unfolded? = some r.toSetting ∧
      ∃ v, config.toValue? = some v ∧ schema.check v = .ok r.toSetting := by
  obtain ⟨config', v, hunfold, hplain, hvalue, hcheck⟩ :=
    (isSettled_of_reachable h).check_again sectioned
  obtain ⟨r, rfl⟩ := settings_of_plain hplain
  exact ⟨r, hunfold, v, hvalue, hcheck⟩

/-- A session in which a file is loaded and another one refused, a section is assigned and a port
refused, a flag is taken and another one refused, and a startup fails. -/
theorem settings_of_reachable_refusals :
    let files : FileTree := ⟨["srv"], [
      (["srv", "good.yaml"], .file (Utf8.ofString "log: {level: debug, file: null}")),
      (["srv", "bad.yaml"], .file (Utf8.ofString
        "ingester: {replication_factor: 2}\nserver: {metrics_port: 70000}"))]⟩
    let steps : List Session.Step := [.load ⟨"good.yaml", true⟩, .load ⟨"bad.yaml", false⟩,
      .assign ["storage"] (.map [(.text (Text.ofString "backend"), .string "s3")]),
      .assign ["server", "grpc_listen_port"] (.int (-1)),
      .applyFlags [("log.format", .string "json")],
      .applyFlags [("storage.directory", .string "relative")],
      .start ["--config.file=bad.yaml"] true (.new "prog" none)]
    ∃ s config r v, Session.begin schema files Environment.empty = .ok s ∧
      (s.after steps).config = config ∧ Session.Reachable schema config ∧
      (∀ leaf ∈ [("log", "level", "DEBUG"), ("log", "format", "json"), ("storage", "backend", "s3"),
        ("storage", "directory", "/data/blocks")], ((config.get? leaf.1).bind fun g =>
          (g.get? leaf.2.1).bind Setting.scalar?) = some (.text (Text.ofString leaf.2.2))) ∧
      config.unfolded? = some (Settings.toSetting r) ∧ config.toValue? = some v ∧
      schema.check v = .ok r.toSetting := by
  intro files steps
  have hleaves : ((Session.begin schema files Environment.empty).toOption.any fun s =>
      [("log", "level", "DEBUG"), ("log", "format", "json"), ("storage", "backend", "s3"),
        ("storage", "directory", "/data/blocks")].all fun leaf =>
          (((s.after steps).config.get? leaf.1).bind fun g =>
            (g.get? leaf.2.1).bind Setting.scalar?) == some (.text (Text.ofString leaf.2.2))) =
        true := by decide +kernel
  simp only [Option.any_eq_true, List.all_eq_true, beq_iff_eq] at hleaves
  obtain ⟨s, hs, hleaves⟩ := hleaves
  have hbegin := eq_ok_of_toOption hs
  have hreachable : Session.Reachable schema (s.after steps).config := ⟨_, _, s, _, hbegin, rfl⟩
  obtain ⟨r, hunfold, v, hvalue, hcheck⟩ := settings_of_reachable hreachable
  exact ⟨s, _, r, v, hbegin, rfl, hreachable, hleaves, hunfold, hvalue, hcheck⟩

end BootConfig.Ingester
