import BootConfig.Data.Value

/-!
# Load errors

What a failed load of a settings file reports: at which stage it failed, for which path, and why.
The causes are of a type of their own choice, so that the error can be looked at without them.
-/

namespace BootConfig

inductive LoadStage where
  | reading
  | parsing
  /-- No stage in particular. It counts as parsing. -/
  | unspecified
deriving DecidableEq, Inhabited

namespace LoadStage

def word : LoadStage → String
  | .reading => "read_failure"
  | .parsing | .unspecified => "parse_failure"

/-- What failed, in one sentence. -/
def summary : LoadStage → String
  | .reading => "Error reading config file"
  | .parsing => "Error parsing config file"
  | .unspecified => "Error loading config file"

end LoadStage

structure LoadError (Cause : Type) where
  stage : LoadStage
  path : String
  cause : Option Cause
  /-- A sentence in place of the one for the stage; an empty one does not count. -/
  remark : Option String
deriving Inhabited

namespace LoadError

variable {Cause : Type}

/-- What failed, without the cause. -/
def summary (e : LoadError Cause) : String :=
  match e.remark with
  | some r => if r.isEmpty then e.stage.summary else r
  | none => e.stage.summary

/-- What failed and why; `describe` tells of a cause. -/
def message (describe : Cause → String) (e : LoadError Cause) : String :=
  match e.cause with
  | some c => s!"{e.summary}: {describe c}"
  | none => e.summary

end LoadError

end BootConfig
