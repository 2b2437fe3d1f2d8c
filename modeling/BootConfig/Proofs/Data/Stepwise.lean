import BootConfig.Proofs.Data.Layers

/-!
# Overlays entry by entry

The entries of an upper mapping may be laid over a lower one in their order, each over what the ones
before it have made. What an overlay goes into below a key is nested less deep in the lower mapping,
however deep the upper one is.

* `Entries.lay`: one entry laid over a mapping.
* `Entries.foldl_lay`: all entries one after the other are the overlay.
* `Value.mappingDepth`: how deep mappings are nested in a value.
-/

namespace BootConfig

namespace Entries

variable {m es us : Entries} {key key' : Scalar} {v : Value}

/-! ## Bindings -/

theorem keys_put (m : Entries) (key : Scalar) (v : Value) : (m.put key v).map Prod.fst =
    if (m.map Prod.fst).any fun k => k.sameKey key then m.map Prod.fst
    else m.map Prod.fst ++ [key] := by
  induction m with
  | nil => rfl
  | cons e rest ih =>
    rw [put]
    cases hsame : e.1.sameKey key with
    | true => simp [hsame]
    | false =>
      rw [if_neg Bool.false_ne_true, List.map_cons, ih]
      simp only [List.map_cons, List.any_cons, hsame, Bool.false_or]
      split <;> rfl

theorem distinct_put (hdistinct : m.Pairwise fun e e' => e.1.sameKey e'.1 = false) :
    (m.put key v).Pairwise fun e e' => e.1.sameKey e'.1 = false := by
  rw [← Scalar.pairwise_keys_iff, keys_put]
  exact Scalar.pairwise_add (Scalar.pairwise_keys_iff.mpr hdistinct)

/-- Other keys go on to be bound as they are. -/
theorem get?_put_of_ne (hne : key.sameKey key' = false) :
    Entries.get? (m.put key v) key' = Entries.get? m key' := by
  induction m with
  | nil => rw [put, get?_cons, hne, if_neg Bool.false_ne_true]
  | cons e rest ih =>
    rw [put]
    cases hsame : e.1.sameKey key with
    | true =>
      have hother : e.1.sameKey key' = false := by
        rw [Bool.eq_false_iff, Ne, Scalar.sameKey_iff] at hne ⊢
        rwa [Scalar.sameKey_iff.mp hsame]
      rw [if_pos rfl, get?_cons, get?_cons, hother, if_neg Bool.false_ne_true,
        if_neg Bool.false_ne_true]
    | false => rw [if_neg Bool.false_ne_true, get?_cons, get?_cons, ih]

/-! ## One entry -/

/-- What becomes of the value of an upper entry: it is laid over the value that the lower mapping
binds to the key. -/
def settle (m : Entries) (e : Scalar × Value) : Value :=
  match Entries.get? m e.1 with
  | some lower => lower.overlay e.2
  | none => e.2

/-- One entry laid over a mapping. -/
def lay (m : Entries) (e : Scalar × Value) : Entries := m.put e.1 (m.settle e)

theorem distinct_lay {e : Scalar × Value}
    (hdistinct : m.Pairwise fun e e' => e.1.sameKey e'.1 = false) :
    (m.lay e).Pairwise fun e e' => e.1.sameKey e'.1 = false := distinct_put hdistinct

/-- One entry is an upper mapping of its own. -/
theorem lay_eq_overlay (hdistinct : m.Pairwise fun e e' => e.1.sameKey e'.1 = false)
    (e : Scalar × Value) : m.lay e = Entries.overlay m [e] := by
  have hlaid : ∀ x : Scalar × Value,
      laid [e] x.1 x.2 = if x.1.sameKey e.1 then x.2.overlay e.2 else x.2 := by
    intro x
    rw [laid, get?_cons, Scalar.sameKey_comm]
    cases x.1.sameKey e.1 <;> rfl
  rw [Entries.overlay, overlayBound_eq_map, unbound_eq_filter, lay, settle]
  simp only [hlaid]
  induction hdistinct with
  | nil => rfl
  | @cons first rest hfirst _ ih =>
    rw [put, get?_cons, List.map_cons]
    cases hsame : first.1.sameKey e.1 with
    | true =>
      -- no later key is the same as that of the entry
      have hlater : ∀ x ∈ rest,
          (x.1, if x.1.sameKey e.1 then x.2.overlay e.2 else x.2) = x := by
        intro x hx
        rw [← Scalar.sameKey_congr_right hsame, Scalar.sameKey_comm, hfirst x hx,
          if_neg Bool.false_ne_true]
      rw [List.map_congr_left hlater]
      simp [get?_cons, hsame]
    | false =>
      simp only [if_neg Bool.false_ne_true, ih, List.cons_append, get?_cons, List.filter_cons,
        hsame]
      rfl

/-! ## All entries -/

/-- The entries of a mapping laid over another one in their order. -/
theorem foldl_lay (hlower : es.Pairwise fun e e' => e.1.sameKey e'.1 = false)
    (hupper : us.Pairwise fun e e' => e.1.sameKey e'.1 = false) :
    us.foldl lay es = Entries.overlay es us := by
  induction hupper generalizing es with
  | nil => rw [List.foldl_nil, overlay_nil]
  | @cons u us hu _ ih =>
    have hnone : Entries.get? us u.1 = none := by
      rw [get?_eq_none_iff, List.any_eq_false]
      intro e he hsame
      rw [Scalar.sameKey_comm, hu e he] at hsame
      cases hsame
    have hcons : Entries.overlay [u] us = u :: us := by
      have hunbound : unbound [u] us = us := by
        rw [unbound_eq_filter, List.filter_eq_self]
        intro e he
        rw [get?_cons, hu e he]
        rfl
      rw [Entries.overlay, hunbound, overlayBound_eq_map, List.map_singleton, laid, hnone]
      rfl
    rw [List.foldl_cons, ih (distinct_lay hlower), lay_eq_overlay hlower, overlay_assoc, hcons]
    -- no key is bound both by the entry and by those behind it
    intro e _ w u' hw hu'
    rw [get?_cons] at hw
    split at hw
    · rename_i hsame
      rw [← Entries.get?_congr hsame, hnone] at hu'
      cases hu'
    · cases hw

end Entries

/-! ## Depth -/

mutual

/-- How deep mappings are nested in a value, that is, how many of them lie in one another. -/
def Value.mappingDepth : Value → Nat
  | .map es => entriesDepth es + 1
  | _ => 0

def entriesDepth : List (Scalar × Value) → Nat
  | [] => 0
  | (_, v) :: es => max v.mappingDepth (entriesDepth es)

end

theorem mappingDepth_lt_of_mem {es : Entries} {e : Scalar × Value} (he : e ∈ es) :
    e.2.mappingDepth < (Value.map es).mappingDepth := by
  rw [Value.mappingDepth, Nat.lt_succ_iff]
  induction es with
  | nil => cases he
  | cons first rest ih =>
    obtain ⟨key, v⟩ := first
    rw [entriesDepth]
    rcases List.mem_cons.mp he with rfl | he
    · exact Nat.le_max_left _ _
    · exact Nat.le_trans (ih he) (Nat.le_max_right _ _)

end BootConfig
