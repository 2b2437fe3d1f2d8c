import BootConfig.Data.Overlay
import BootConfig.Proofs.Data.KeyIdentity

/-!
# Lookups in mappings

What is bound to a key, in a mapping and in one that is laid over another.

* `Entries.get?_overlay`: a key that the lower mapping binds gets what the upper one makes of it.
* `Entries.get?_overlay_of_unbound`: any other key is bound as in the upper mapping.
* `Entries.map_fst_overlay`: the keys of an overlay, which depend on the lower mapping by its keys
  only.
-/

namespace BootConfig

/-- A text is the same key as itself only. -/
theorem Scalar.sameKey_text {key : Scalar} {t : Text} :
    key.sameKey (.text t) = true ↔ key = .text t := by
  cases key <;> simp [Scalar.sameKey, Scalar.asInt?]

theorem Text.ofString_injective {s t : String} (h : Text.ofString s = Text.ofString t) : s = t := by
  have hs := Text.toString?_ofString s
  rw [h, Text.toString?_ofString] at hs
  exact (Option.some.inj hs).symm

namespace Entries

variable {base upper : Entries} {key : Scalar}

@[simp] theorem get?_nil : Entries.get? [] key = none := rfl

theorem get?_cons (e : Scalar × Value) (es : Entries) :
    Entries.get? (e :: es) key = if e.1.sameKey key then some e.2 else Entries.get? es key := by
  unfold Entries.get?
  rw [List.find?_cons]
  cases e.1.sameKey key <;> rfl

theorem get?_append : Entries.get? (base ++ upper) key = (Entries.get? base key).or
    (Entries.get? upper key) := by
  unfold Entries.get?
  rw [List.find?_append]
  cases base.find? fun e => e.1.sameKey key <;> rfl

/-- What the upper mapping makes of the value that the lower one binds to a key. -/
def laid (upper : Entries) (key : Scalar) (lower : Value) : Value :=
  match Entries.get? upper key with
  | some w => Value.overlay lower w
  | none => lower

theorem get?_overlayBound : Entries.get? (overlayBound base upper) key =
    (Entries.get? base key).map (upper.laid key) := by
  induction base with
  | nil => simp [overlayBound]
  | cons e rest ih =>
    obtain ⟨key', v⟩ := e
    rw [overlayBound, get?_cons, get?_cons, ih]
    cases hkey : key'.sameKey key with
    | true =>
      unfold laid
      rw [Entries.get?_congr hkey]
      cases Entries.get? upper key <;> simp [hkey]
    | false =>
      cases Entries.get? upper key' <;> simp [hkey]

/-- A key of the lower mapping is bound to what the upper one makes of its value. -/
theorem get?_overlay {b : Value} (h : Entries.get? base key = some b) :
    Entries.get? (Entries.overlay base upper) key = some (upper.laid key b) := by
  rw [Entries.overlay, get?_append, get?_overlayBound, h]
  rfl

theorem get?_eq_none_iff : Entries.get? base key = none ↔
    (base.any fun e => e.1.sameKey key) = false := by
  unfold Entries.get?
  simp

/-- A key that the lower mapping does not bind is bound as in the upper one. -/
theorem get?_overlay_of_unbound (h : Entries.get? base key = none) :
    Entries.get? (Entries.overlay base upper) key = Entries.get? upper key := by
  rw [Entries.overlay, get?_append, get?_overlayBound, h, Option.map_none, Option.none_or]
  unfold Entries.get? Entries.unbound
  rw [List.find?_filter]
  congr 2
  funext e
  -- an entry for the key is not among those that are left out
  cases hkey : e.1.sameKey key with
  | false => simp
  | true =>
    have hany : (base.any fun b => b.1.sameKey e.1) = false := by
      rw [← get?_eq_none_iff, Entries.get?_congr hkey, h]
    simp [hany]

theorem keys_overlayBound : (overlayBound base upper).map Prod.fst = base.map Prod.fst := by
  induction base with
  | nil => rfl
  | cons e rest ih =>
    obtain ⟨key, v⟩ := e
    rw [overlayBound]
    cases Entries.get? upper key <;> exact congrArg (key :: ·) ih

/-- The keys of an overlay: the lower ones, then those of the upper ones that are new. -/
theorem map_fst_overlay (base upper : Entries) : (Entries.overlay base upper).map Prod.fst =
    base.map Prod.fst ++
      (upper.map Prod.fst).filter fun key => !(base.map Prod.fst).any fun k => k.sameKey key := by
  rw [Entries.overlay, List.map_append, keys_overlayBound, List.filter_map]
  simp only [Entries.unbound, List.any_map, Function.comp_def]

/-- Mappings with the same keys have overlays with the same keys. -/
theorem keys_overlay {base' : Entries} (h : base.map Prod.fst = base'.map Prod.fst)
    (upper : Entries) :
    (Entries.overlay base upper).map Prod.fst = (Entries.overlay base' upper).map Prod.fst := by
  rw [map_fst_overlay, map_fst_overlay, h]

end Entries

end BootConfig
