import BootConfig.Journal.Notice

/-!
# The fingerprint metric

A gauge with one label, the fingerprint of the settings file in effect. A new fingerprint takes the
place of all older ones.

* `Metric.record`, `Metric.reset`: a fingerprint takes effect, or none is in effect.
* `Metric.exposition`: the gauge in the text format that is collected.
-/

namespace BootConfig

/-- A gauge: values by the label they are given for. -/
structure Gauge where
  samples : List (String × Nat)
deriving DecidableEq, Inhabited

namespace Gauge

def empty : Gauge := ⟨[]⟩

def set (g : Gauge) (label : String) (value : Nat) : Gauge :=
  ⟨(g.samples.filter fun s => s.1 != label) ++ [(label, value)]⟩

def value? (g : Gauge) (label : String) : Option Nat := g.samples.lookup label

end Gauge

/-- The gauge of fingerprints together with the fingerprint in effect. -/
structure Metric where
  gauge : Gauge
  current : Option String
deriving DecidableEq, Inhabited

namespace Metric

def gaugeName : String := "blockstore_ingester_config_hash"
def gaugeHelp : String := "Hash of the currently active config file."
def labelName : String := "sha256"

/-- A metric with no fingerprint in effect. -/
def new : Metric := ⟨Gauge.empty, none⟩

/-- A fingerprint takes effect. -/
def record (_ : Metric) (fingerprint : String) : Metric :=
  ⟨Gauge.empty.set fingerprint 1, some fingerprint⟩

/-- No fingerprint is in effect. -/
def reset (_ : Metric) : Metric := new

/-- What is told about a fingerprint that takes effect. -/
def recorded (fingerprint : String) : Notice :=
  ⟨Severity.debug, Origin.within "monitoring." "config_hash" "record",
    s!"Config hash recorded: {fingerprint}"⟩

/-- A label between quotes. -/
def escapeLabel (s : String) : String :=
  String.ofList (s.toList.flatMap fun c =>
    if c == '\\' then ['\\', '\\'] else if c == '\n' then ['\\', 'n']
    else if c == '\x22' then ['\\', '\x22'] else [c])

/-- A value as the text format writes it. -/
def valueText (n : Nat) : String := s!"{n}.0"

/-- One line for the value of a label. -/
def sampleLine (s : String × Nat) : String :=
  gaugeName ++ "\x7b" ++ labelName ++ "=\x22" ++ escapeLabel s.1 ++ "\x22\x7d " ++ valueText s.2 ++
    "\n"

/-- The gauge in the text format. -/
def exposition (m : Metric) : String :=
  s!"# HELP {gaugeName} {gaugeHelp}\n# TYPE {gaugeName} gauge\n" ++
    String.join (m.gauge.samples.map sampleLine)

end Metric

end BootConfig
