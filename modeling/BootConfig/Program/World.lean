import BootConfig.Program.Run

/-!
# Runs one after another

The program may run several times in one process. What a run leaves behind the next one finds: the
host, and the servers that have been started, which go on serving. Between two runs others may
change the environment and the files.

* `World.step`: what happens in a world.
* `World.after`, `World.runs`: the world after several steps, and the runs among them.
-/

namespace BootConfig.Program

/-- A server of metrics. -/
structure Server where
  port : Int
  /-- The registry whose metrics are served. -/
  registry : String
deriving DecidableEq, Inhabited

/-- What there is between two runs. -/
structure World where
  host : Host
  servers : List Server

namespace World

/-- The world before the first run. -/
def begin (host : Host) : World := ⟨host, []⟩

/-- A run, with the world that it finds. -/
structure Run where
  found : World
  moment : Moment
  invocation : Invocation

namespace Run

/-- What a run comes to. -/
def outcome (r : Run) : Outcome := Program.run r.moment r.found.host r.invocation

/-- The servers that a run starts. -/
def started (r : Run) : List Server :=
  r.outcome.served.map fun port => ⟨port, r.invocation.registry⟩

/-- The world as a run leaves it. -/
def left (r : Run) : World := ⟨r.outcome.progress.host, r.found.servers ++ r.started⟩

end Run

/-- What happens in a world. -/
inductive Step where
  | setEnvironment (env : Environment)
  | setFiles (files : FileTree)
  | run (m : Moment) (i : Invocation)

/-- The run that a step is. -/
def run? (w : World) : Step → Option Run
  | .run m i => some ⟨w, m, i⟩
  | _ => none

/-- The world after a step. -/
def step (w : World) : Step → World
  | .setEnvironment environment => { w with host := { w.host with environment } }
  | .setFiles files => { w with host := { w.host with files } }
  | .run m i => (Run.mk w m i).left

/-- The world after several steps. -/
def after (w : World) (steps : List Step) : World := steps.foldl step w

/-- The runs among several steps. -/
def runs (w : World) : List Step → List Run
  | [] => []
  | e :: rest => (w.run? e).toList ++ (w.step e).runs rest

end World

end BootConfig.Program
