import BootConfig.Calendar
import BootConfig.Number.Numeral

/-!
# Scalars

The values that have no parts. They serve as keys of mappings and members of sets, so their equality
is a matter of its own.

* `Scalar.sameKey`: equality of keys. Numbers are compared by value whatever their kind, so that
  `1`, `1.0` and `true` are one key.
* `Scalar.quoted?`: a scalar as messages quote it.
-/

namespace BootConfig

inductive Scalar where
  | null
  | bool (b : Bool)
  | int (n : Int)
  | double (d : Double)
  | text (t : Text)
  | bytes (b : Bytes)
  | date (d : Date)
  | stamp (t : Timestamp)
deriving DecidableEq, Inhabited

namespace Scalar

/-- The integer that a truth value or an integer counts as. -/
def asInt? : Scalar → Option Int
  | .bool b => some (if b then 1 else 0)
  | .int n => some n
  | _ => none

/-- Equality of keys. -/
def sameKey : Scalar → Scalar → Bool
  | .null, .null => true
  | .text s, .text t => s == t
  | .bytes s, .bytes t => s == t
  | .date s, .date t => s == t
  | .stamp s, .stamp t => s.same t
  | .double d, .double e => d.same e
  | .double d, s => match s.asInt? with
    | some n => d.eqInt n
    | none => false
  | s, .double d => match s.asInt? with
    | some n => d.eqInt n
    | none => false
  | s, t => match s.asInt?, t.asInt? with
    | some m, some n => m == n
    | _, _ => false

/-- A scalar as messages quote it; nothing for an integer that is too long to be written. -/
def quoted? : Scalar → Option String
  | .null => some "None"
  | .bool b => some (if b then "True" else "False")
  | .int n => Numeral.intText? n
  | .double d => some d.text
  | .text t => some (Quoted.ofText t)
  | .bytes b => some (Quoted.ofBytes b)
  | .date d => some d.quoted
  | .stamp t => some t.quoted

end Scalar

end BootConfig
