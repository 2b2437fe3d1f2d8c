import BootConfig.Schema.FieldType

/-!
# The settings of the ingester

The schema of the program's own settings, with their defaults: the values in effect when neither a
file nor an option says otherwise.
-/

namespace BootConfig.Ingester

/-- A plain field. -/
def plain (t : ScalarType) (name help : String) (default : Value) (rule : Option Rule := none) :
    Field :=
  (⟨name, some default, some help, false, rule⟩, .scalar t)

def intField (name help : String) (default : Int) : Field :=
  plain .int name help (Value.int default)

def portField (name help : String) (default : Int) : Field :=
  plain .int name help (Value.int default) (some .port)

def textField (name help default : String) : Field :=
  plain .text name help (Value.string default)

/-- A text that is unset by default. -/
def optionalText (name help : String) : Field :=
  (⟨name, some .null, some help, false, none⟩, .union .choice true [.scalar .text])

def textChoice (name : String) (members : List String) : Enumeration :=
  ⟨name, members.map fun m => .text (Text.ofString m), true⟩

def choiceField (name help default : String) (e : Enumeration) : Field :=
  (⟨name, some (Value.string default), some help, false, none⟩, .enumeration e)

def groupField (name : String) (s : Schema) : Field := (⟨name, none, none, false, none⟩, s.toType)

def logLevels : Enumeration :=
  textChoice "LogLevel" ["DEBUG", "INFO", "WARNING", "ERROR", "CRITICAL"]

def logFormats : Enumeration := textChoice "LogFormat" ["text", "json"]

def storageBackends : Enumeration := textChoice "StorageBackend" ["filesystem", "s3", "gcs"]

/-- Where the program listens. -/
def server : Schema := ⟨"ServerConfig", [
  textField "http_listen_address" "HTTP server listen address" "0.0.0.0",
  portField "http_listen_port" "HTTP server listen port" 8080,
  portField "grpc_listen_port" "gRPC server listen port" 9095,
  portField "metrics_port" "Port to expose Prometheus metrics on (0 disables)" 0]⟩

/-- The severity from which messages are logged. Names in lower case are accepted. -/
def levelField : Field :=
  (⟨"level", some (Value.string "INFO"),
    some "Only log messages with the given severity or above", true, none⟩,
    .enumeration logLevels)

/-- What is logged and where. -/
def log : Schema := ⟨"LogConfig", [
  levelField,
  choiceField "format" "Output log messages in the given format (text or json)" "text" logFormats,
  optionalText "file" "Also write logs to this file",
  intField "rotation_size" "Log file size before rotation (bytes)" 10485760,
  intField "retention_count" "Number of rotated log files to keep" 5]⟩

/-- The directory of the file system backend. -/
def directoryField : Field :=
  plain .text "directory" "Local directory used by the filesystem backend"
    (Value.string "/data/blocks") (some .directory)

/-- Where blocks are stored. -/
def storage : Schema := ⟨"StorageConfig", [
  choiceField "backend" "Backend storage to use (filesystem, s3 or gcs)" "filesystem"
    storageBackends,
  directoryField,
  optionalText "bucket_name" "Bucket name for s3 and gcs backends",
  optionalText "endpoint" "Custom endpoint for the s3 backend"]⟩

/-- The number of ingesters that receive a series. -/
def replicationField : Field :=
  plain .int "replication_factor" "Number of ingesters to write series to" (Value.int 3)
    (some .replicas)

/-- The life cycle of an ingester. -/
def ingester : Schema := ⟨"IngesterConfig", [
  replicationField,
  intField "heartbeat_period" "Period at which to heartbeat to the ring (seconds)" 5,
  intField "join_after" "Period to wait before joining the ring (seconds)" 0,
  intField "final_sleep"
    "Duration to sleep before exiting, so metrics get scraped (seconds)" 30]⟩

/-- The ranges of blocks, in seconds. -/
def blockRangesField : Field :=
  (⟨"block_ranges", some (.list [Value.int 7200]), some "TSDB block ranges (seconds)", false, none⟩,
    .list (some .int))

/-- How blocks are kept before they are shipped. -/
def blocksStorage : Schema := ⟨"BlocksStorageConfig", [
  textField "tsdb_dir" "Local directory to store TSDBs in the ingesters" "/data/tsdb",
  blockRangesField,
  intField "retention_period" "TSDB blocks retention in the ingester (seconds)" 21600,
  intField "ship_interval"
    "How frequently blocks are shipped to storage (seconds, 0 disables)" 60]⟩

/-- All settings. -/
def schema : Schema := ⟨"Config", [
  groupField "server" server,
  groupField "log" log,
  groupField "storage" storage,
  groupField "ingester" ingester,
  groupField "blocks_storage" blocksStorage]⟩

/-- The schemas that settings can be checked against by name. -/
def schemas : List Schema := [server, log, storage, ingester, blocksStorage, schema]

end BootConfig.Ingester
