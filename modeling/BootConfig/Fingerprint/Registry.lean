import BootConfig.Fingerprint.Metric
import BootConfig.Text.Quoted

/-!
# Registries of metrics

A registry exports at most one gauge of a name. Metrics are made for a registry, or shared: whoever
asks for the metric of a registry gets the one that was shared before.

* `Registries.create`: a metric of its own on a registry, unless the registry has one.
* `Registries.share`: the shared metric of a registry, made if there is none.
* `Registries.samples`: what a registry exports.
-/

namespace BootConfig

abbrev MetricId := Nat

/-- Metrics, the registries that export them, and the names they are known by. -/
structure Registries where
  /-- All metrics, by their numbers. -/
  metrics : List Metric
  /-- The registries that have been mentioned. -/
  known : List String
  /-- The metric whose gauge a registry exports. -/
  exported : List (String × MetricId)
  /-- The metric that is shared by those who ask for the one of a registry. -/
  shared : List (String × MetricId)
  /-- Names bound to metrics. -/
  names : List (String × MetricId)
deriving DecidableEq, Inhabited

/-- Why an operation on metrics is refused. -/
inductive MetricFault where
  /-- The registry exports a gauge of this name already. -/
  | duplicate
  /-- The name is bound to no metric. -/
  | unbound (name : String)
deriving DecidableEq, Inhabited

def MetricFault.message : MetricFault → String
  | .duplicate =>
    "Duplicated timeseries in CollectorRegistry: \x7b'" ++ Metric.gaugeName ++ "'\x7d"
  | .unbound name => Quoted.ofString name

namespace Registries

def empty : Registries := ⟨[], [], [], [], []⟩

/-- Makes a registry known. -/
def mention (r : Registries) (registry : String) : Registries :=
  if r.known.contains registry then r else { r with known := r.known ++ [registry] }

/-- A metric of its own on a registry, unless the registry exports one. -/
def create (r : Registries) (registry : String) : Except MetricFault (Registries × MetricId) :=
  if (r.exported.lookup registry).isSome then .error .duplicate
  else
    let id := r.metrics.length
    .ok ({ r with
      metrics := r.metrics ++ [Metric.new]
      exported := (registry, id) :: r.exported }, id)

/-- The shared metric of a registry. The first who asks for it makes it. -/
def share (r : Registries) (registry : String) : Except MetricFault (Registries × MetricId) :=
  match r.shared.lookup registry with
  | some id => .ok (r, id)
  | none => do
    let (r, id) ← r.create registry
    return ({ r with shared := (registry, id) :: r.shared }, id)

def bindName (r : Registries) (name : String) (id : MetricId) : Registries :=
  { r with names := (name, id) :: r.names.filter fun p => p.1 != name }

/-- The metric with a number. -/
def metric (r : Registries) (id : MetricId) : Metric := r.metrics.getD id Metric.new

/-- Changes a metric. -/
def update (r : Registries) (id : MetricId) (f : Metric → Metric) : Registries :=
  { r with metrics := r.metrics.modify id f }

def named (r : Registries) (name : String) : Except MetricFault MetricId :=
  match r.names.lookup name with
  | some id => .ok id
  | none => .error (.unbound name)

/-- The metric that a registry exports. -/
def exportedMetric? (r : Registries) (registry : String) : Option Metric :=
  (r.exported.lookup registry).map r.metric

def samples (r : Registries) (registry : String) : List (String × Nat) :=
  match r.exportedMetric? registry with
  | some m => m.gauge.samples
  | none => []

/-- The gauge of a registry in the text format; nothing for a registry without one. -/
def exposition (r : Registries) (registry : String) : String :=
  match r.exportedMetric? registry with
  | some m => m.exposition
  | none => ""

def namesOf (r : Registries) (id : MetricId) : List String :=
  ((r.names.filter fun p => p.2 == id).map Prod.fst).mergeSort fun a b => !(b < a)

/-! ## Operations by name -/

inductive Operation where
  | create (name registry : String)
  | share (name registry : String)
  | record (name fingerprint : String)
  | reset (name : String)
deriving DecidableEq

/-- Does an operation. One that is refused changes nothing but that its registry is known. -/
def run (r : Registries) : Operation → Registries × Option MetricFault
  | .create name registry =>
    let r := r.mention registry
    match r.create registry with
    | .ok (r', id) => (r'.bindName name id, none)
    | .error f => (r, some f)
  | .share name registry =>
    let r := r.mention registry
    match r.share registry with
    | .ok (r', id) => (r'.bindName name id, none)
    | .error f => (r, some f)
  | .record name fingerprint =>
    match r.named name with
    | .ok id => (r.update id fun m => m.record fingerprint, none)
    | .error f => (r, some f)
  | .reset name =>
    match r.named name with
    | .ok id => (r.update id Metric.reset, none)
    | .error f => (r, some f)

end Registries

end BootConfig
