import BootConfig.Data.Value

/-!
# What makes two keys the same

Keys are compared by their values. What counts in a key is put into a normal form, which numbers of
all kinds have in common, and times with an offset at one instant.

* `Scalar.keyForm`, `Scalar.sameKey_iff`: keys are the same if their forms are equal; so sameness is
  an equivalence.
* `Entries.get?_congr`: a mapping binds keys that are the same to one value.
-/

namespace BootConfig

/-! ## Normal forms -/

/-- What counts in a number. -/
inductive Magnitude where
  /-- A number that is finite, as a multiple of `2 ^ -1074`. -/
  | finite (units : Int)
  | infinite (negative : Bool)
  | nan (label : Nat)

namespace Magnitude

def ofInt (n : Int) : Magnitude := .finite (n * (Double.oneInUnits : Int))

def ofDouble : Double → Magnitude
  | .finite negative mant scale => .finite (Double.units negative mant scale)
  | .inf negative => .infinite negative
  | .nan label => .nan label

theorem ofInt_inj {m n : Int} : ofInt m = ofInt n ↔ m = n := by
  have hpos : ∀ k, 0 < Double.twoPow k := Nat.two_pow_pos
  have hunits : (Double.oneInUnits : Int) ≠ 0 :=
    Int.natCast_ne_zero.mpr (Nat.ne_of_gt (hpos 1074))
  rw [ofInt, ofInt, finite.injEq]
  exact ⟨Int.eq_of_mul_eq_mul_right hunits, fun h => by rw [h]⟩

theorem same_iff {d e : Double} : d.same e = true ↔ ofDouble d = ofDouble e := by
  cases d <;> cases e <;> simp [Double.same, ofDouble]

theorem eqInt_iff {d : Double} {n : Int} : d.eqInt n = true ↔ ofDouble d = ofInt n := by
  cases d <;>
    simp only [Double.eqInt, ofDouble, ofInt, beq_iff_eq, Bool.false_eq_true, finite.injEq,
      reduceCtorEq]

end Magnitude

/-- What counts in a scalar that serves as a key. -/
inductive KeyForm where
  | null
  | number (m : Magnitude)
  | text (t : Text)
  | bytes (b : Bytes)
  | date (d : Date)
  /-- The instant of a time with an offset, or the time as the clock shows it. -/
  | time (t : Int ⊕ Timestamp)

def Timestamp.keyForm (t : Timestamp) : Int ⊕ Timestamp :=
  match t.instant? with
  | some microseconds => .inl microseconds
  | none => .inr t

namespace Scalar

variable {s t : Scalar}

def keyForm : Scalar → KeyForm
  | .null => .null
  | .bool b => .number (.ofInt (if b then 1 else 0))
  | .int n => .number (.ofInt n)
  | .double d => .number (.ofDouble d)
  | .text t => .text t
  | .bytes b => .bytes b
  | .date d => .date d
  | .stamp t => .time t.keyForm

theorem same_iff_keyForm {s t : Timestamp} : s.same t = true ↔ s.keyForm = t.keyForm := by
  unfold Timestamp.same Timestamp.keyForm
  cases hs : s.instant? <;> cases ht : t.instant? <;> simp

/-- Two keys are the same if what counts in them is. -/
theorem sameKey_iff : s.sameKey t = true ↔ s.keyForm = t.keyForm := by
  cases s <;> cases t <;>
    simp only [sameKey, keyForm, asInt?, KeyForm.number.injEq, KeyForm.text.injEq,
      KeyForm.bytes.injEq, KeyForm.date.injEq, KeyForm.time.injEq, reduceCtorEq, beq_iff_eq,
      Bool.false_eq_true, Magnitude.ofInt_inj, Magnitude.same_iff, Magnitude.eqInt_iff,
      same_iff_keyForm]
  -- a whole number is compared from the side of the other number
  case bool.double => exact eq_comm
  case int.double => exact eq_comm

theorem sameKey_self (s : Scalar) : s.sameKey s = true := sameKey_iff.mpr rfl

theorem sameKey_comm (s t : Scalar) : s.sameKey t = t.sameKey s := by
  rw [Bool.eq_iff_iff, sameKey_iff, sameKey_iff, eq_comm]

theorem sameKey_congr_right (h : s.sameKey t = true) (u : Scalar) :
    u.sameKey s = u.sameKey t := by
  rw [Bool.eq_iff_iff, sameKey_iff, sameKey_iff, sameKey_iff.mp h]

/-! ### Distinct keys -/

/-- Entries have distinct keys if their keys are distinct. -/
theorem pairwise_keys_iff {α : Type} {entries : List (Scalar × α)} :
    (entries.map Prod.fst).Pairwise (fun k k' => k.sameKey k' = false) ↔
      entries.Pairwise fun e e' => e.1.sameKey e'.1 = false := List.pairwise_map

/-- Keys that are distinct stay so when one is added that is new. -/
theorem pairwise_add {keys : List Scalar} {key : Scalar}
    (hdistinct : keys.Pairwise fun k k' => k.sameKey k' = false) :
    (if keys.any fun k => k.sameKey key then keys else keys ++ [key]).Pairwise
      fun k k' => k.sameKey k' = false := by
  split
  · exact hdistinct
  · rename_i hnew
    refine List.pairwise_append.mpr
      ⟨hdistinct, List.pairwise_singleton _ key, fun k hk k' hk' => ?_⟩
    rw [List.mem_singleton.mp hk', Bool.eq_false_iff]
    exact fun hsame => hnew (List.any_eq_true.mpr ⟨k, hk, hsame⟩)

end Scalar

/-- A mapping binds keys that are the same to one value. -/
theorem Entries.get?_congr {key key' : Scalar} (h : key.sameKey key' = true) (es : Entries) :
    Entries.get? es key = Entries.get? es key' := by
  unfold Entries.get?
  simp only [Scalar.sameKey_congr_right h]

end BootConfig
