import BootConfig.Proofs.Data.Pathwise

/-!
# Layers

Several mappings laid over one another. The empty mapping adds nothing, a mapping laid twice counts
once, and the upper layers may be put together first, unless a layer between two mappings has cut
off the lower one with a value that is no mapping.

* `Value.KeysDistinct`: every mapping binds a key once.
* `Value.Uninterrupted`: no value between two mappings is anything but a mapping.
* `Value.overlay_self`, `Value.overlay_assoc`: a value over itself, and three layers.
* `Entries.overlay_layers`: the laws for mappings.
-/

namespace BootConfig

/-! ## One level -/

namespace Entries

variable {base upper top es : Entries} {key : Scalar}

theorem overlayBound_eq_map (base upper : Entries) :
    overlayBound base upper = base.map fun e => (e.1, upper.laid e.1 e.2) := by
  induction base with
  | nil => rfl
  | cons e rest ih =>
    obtain ⟨key, v⟩ := e
    rw [overlayBound, ih, List.map_cons]
    unfold laid
    cases Entries.get? upper key <;> rfl

theorem unbound_eq_filter (base upper : Entries) :
    unbound base upper = upper.filter fun e => (Entries.get? base e.1).isNone := by
  unfold unbound
  congr 1
  funext e
  rw [Bool.eq_iff_iff, Bool.not_eq_true', ← get?_eq_none_iff, Option.isNone_iff_eq_none]

theorem get?_overlay_eq_none_iff : Entries.get? (Entries.overlay base upper) key = none ↔
    Entries.get? base key = none ∧ Entries.get? upper key = none := by
  cases hb : Entries.get? base key with
  | none => rw [get?_overlay_of_unbound hb]; simp
  | some b => rw [get?_overlay hb]; simp

/-- A mapping that binds each of its keys once binds it as it is listed. -/
theorem get?_of_mem (hdistinct : es.Pairwise fun e e' => e.1.sameKey e'.1 = false)
    {e : Scalar × Value} (he : e ∈ es) : Entries.get? es e.1 = some e.2 := by
  induction hdistinct with
  | nil => cases he
  | @cons first rest hfirst _ ih =>
    rw [get?_cons]
    rcases List.mem_cons.mp he with rfl | he
    · rw [if_pos (Scalar.sameKey_self e.1)]
    · rw [hfirst e he]
      exact ih he

@[simp] theorem nil_overlay (es : Entries) : Entries.overlay [] es = es := by
  rw [Entries.overlay, unbound_eq_filter, overlayBound]
  simp

@[simp] theorem overlay_nil (es : Entries) : Entries.overlay es [] = es := by
  rw [Entries.overlay, overlayBound_eq_map]
  simp [laid, unbound]

/-- A mapping over itself, if its values over themselves are what they have been. -/
theorem overlay_self (hdistinct : es.Pairwise fun e e' => e.1.sameKey e'.1 = false)
    (hvalues : ∀ e ∈ es, e.2.overlay e.2 = e.2) : Entries.overlay es es = es := by
  have hbound : ∀ e ∈ es, (e.1, laid es e.1 e.2) = e := by
    intro e he
    rw [laid, get?_of_mem hdistinct he]
    exact Prod.ext rfl (hvalues e he)
  have hnew : unbound es es = [] := by
    rw [unbound_eq_filter, List.filter_eq_nil_iff]
    intro e he
    rw [get?_of_mem hdistinct he]
    simp
  rw [Entries.overlay, hnew, List.append_nil, overlayBound_eq_map, List.map_congr_left hbound,
    List.map_id']

/-- What two layers make of a value is what the two of them put together make of it, if this is so
for the values that they bind to its key. -/
theorem laid_overlay {v : Value} (hvalues : ∀ w u, Entries.get? upper key = some w →
      Entries.get? top key = some u → (v.overlay w).overlay u = v.overlay (w.overlay u)) :
    top.laid key (upper.laid key v) = (Entries.overlay upper top).laid key v := by
  unfold laid
  cases hw : Entries.get? upper key with
  | none => rw [get?_overlay_of_unbound hw]
  | some w =>
    rw [get?_overlay hw, laid]
    cases hu : Entries.get? top key with
    | none => rfl
    | some u => exact hvalues w u hw hu

/-- Three layers, if the law holds for the values that they bind to the lowest keys. The keys that
are new in the upper two come in the same order, since the middle ones come first both times. -/
theorem overlay_assoc (hvalues : ∀ e ∈ base, ∀ w u, Entries.get? upper e.1 = some w →
      Entries.get? top e.1 = some u → (e.2.overlay w).overlay u = e.2.overlay (w.overlay u)) :
    Entries.overlay (Entries.overlay base upper) top =
      Entries.overlay base (Entries.overlay upper top) := by
  have hbound : overlayBound (overlayBound base upper) top =
      overlayBound base (Entries.overlay upper top) := by
    simp only [overlayBound_eq_map, List.map_map]
    exact List.map_congr_left fun e he => Prod.ext rfl (laid_overlay (hvalues e he))
  have hmiddle : overlayBound (unbound base upper) top =
      unbound base (overlayBound upper top) := by
    simp only [overlayBound_eq_map, unbound_eq_filter, List.filter_map, Function.comp_def]
  have htop : unbound (Entries.overlay base upper) top = unbound base (unbound upper top) := by
    simp only [unbound_eq_filter, List.filter_filter]
    congr 1
    funext e
    rw [Bool.eq_iff_iff, Bool.and_eq_true]
    simp only [Option.isNone_iff_eq_none, get?_overlay_eq_none_iff]
  have happend : ∀ a b, overlayBound (a ++ b) top = overlayBound a top ++ overlayBound b top := by
    intro a b
    simp only [overlayBound_eq_map, List.map_append]
  calc Entries.overlay (Entries.overlay base upper) top
      = overlayBound (overlayBound base upper) top ++ overlayBound (unbound base upper) top ++
          unbound (Entries.overlay base upper) top := by
        rw [← happend]
        rfl
    _ = overlayBound base (Entries.overlay upper top) ++
          (unbound base (overlayBound upper top) ++ unbound base (unbound upper top)) := by
        rw [hbound, hmiddle, htop, List.append_assoc]
    _ = Entries.overlay base (Entries.overlay upper top) := by
        unfold unbound
        rw [← List.filter_append]
        rfl

end Entries

/-! ## All levels -/

namespace Value

variable {v u a b c : Value} {key : Scalar} {es : Entries}

/-- Induction on the mappings in a value. -/
theorem induction_on_mappings {P : Value → Prop}
    (mapping : ∀ es, (∀ e ∈ es, P e.2) → P (.map es))
    (other : ∀ v, (∀ es, v ≠ .map es) → P v) (v : Value) : P v := by
  match v with
  | .map es => exact mapping es fun e he => induction_on_mappings mapping other e.2
  | .scalar _ | .list _ | .pair _ _ | .set _ | .graph _ => exact other _ (by simp)
termination_by sizeOf v
decreasing_by
  have hlist := List.sizeOf_lt_of_mem he
  have hpair : sizeOf e.2 < sizeOf e := by
    obtain ⟨key, v⟩ := e
    show sizeOf v < sizeOf (key, v)
    rw [Prod.mk.sizeOf_spec]
    omega
  rw [Value.map.sizeOf_spec]
  omega

/-- Every mapping that can be reached through mappings binds each of its keys once. -/
def KeysDistinct (v : Value) : Prop :=
  ∀ path es, v.mappingAt? path = some es → es.Pairwise fun e e' => e.1.sameKey e'.1 = false

theorem mappingAt?_cons (h : v.child? key = some u) (path : List Scalar) :
    v.mappingAt? (key :: path) = u.mappingAt? path := by
  rw [mappingAt?, at?, h]
  rfl

theorem KeysDistinct.child? (h : v.KeysDistinct) (hu : v.child? key = some u) : u.KeysDistinct :=
  fun path es hes => h (key :: path) es ((mappingAt?_cons hu path).trans hes)

theorem KeysDistinct.entries (h : (Value.map es).KeysDistinct) :
    es.Pairwise fun e e' => e.1.sameKey e'.1 = false := h [] es rfl

theorem child?_of_mem (h : (Value.map es).KeysDistinct) {e : Scalar × Value} (he : e ∈ es) :
    (Value.map es).child? e.1 = some e.2 := by
  rw [child?_eq rfl]
  exact Entries.get?_of_mem h.entries he

/-- A mapping all of whose values have distinct keys, as they are listed. -/
theorem keysDistinct_of_entries (h : es.Pairwise fun e e' => e.1.sameKey e'.1 = false)
    (hvalues : ∀ e ∈ es, e.2.KeysDistinct) : (Value.map es).KeysDistinct := by
  intro path found hfound
  cases path with
  | nil =>
    cases hfound
    exact h
  | cons key path =>
    obtain ⟨u, hu, hentries⟩ := Option.bind_eq_some_iff.mp hfound
    obtain ⟨w, hw, hbelow⟩ := Option.bind_eq_some_iff.mp hu
    obtain ⟨e, he, rfl⟩ := Option.map_eq_some_iff.mp ((child?_eq rfl key).symm.trans hw)
    refine hvalues e (List.mem_of_find?_eq_some he) path found ?_
    rw [mappingAt?, hbelow]
    exact hentries

theorem mappingAt?_of_not_mapping (h : v.entries? = none) (path : List Scalar) :
    v.mappingAt? path = none := by
  cases path with
  | nil => exact h
  | cons key path => simp [mappingAt?, at?, Value.child?, h]

theorem keysDistinct_of_not_mapping (h : v.entries? = none) : v.KeysDistinct := by
  intro path es hes
  rw [mappingAt?_of_not_mapping h] at hes
  cases hes

theorem overlay_map (es us : Entries) :
    (Value.map es).overlay (.map us) = .map (Entries.overlay es us) := overlay_mappings rfl

theorem overlay_of_ne_map (h : ∀ es, v ≠ .map es) (upper : Value) : v.overlay upper = upper := by
  rw [Value.overlay]
  exact h

/-- A value over itself is what it has been. -/
theorem overlay_self (h : v.KeysDistinct) : v.overlay v = v := by
  induction v using induction_on_mappings with
  | mapping es ih =>
    rw [overlay_mappings rfl, Entries.overlay_self h.entries]
    exact fun e he => ih e he (h.child? (child?_of_mem h he))
  | other v hv => exact overlay_of_ne_map hv v

/-- Wherever the outer ones of three values both hold a mapping, the middle one holds a mapping, or
nothing at all. -/
def Uninterrupted (a b c : Value) : Prop :=
  ∀ path v, (a.mappingAt? path).isSome = true → (c.mappingAt? path).isSome = true →
    b.at? path = some v → v.entries?.isSome = true

theorem Uninterrupted.child {a' b' c' : Value} (h : Uninterrupted a b c)
    (ha : a.child? key = some a') (hb : b.child? key = some b') (hc : c.child? key = some c') :
    Uninterrupted a' b' c' := by
  intro path v hpath hpath' hv
  refine h (key :: path) v ?_ ?_ ?_
  · rwa [mappingAt?_cons ha]
  · rwa [mappingAt?_cons hc]
  · rwa [at?, hb, Option.bind_some]

/-- What lies between a value and itself is never in the way. -/
theorem uninterrupted_same (a b : Value) : Uninterrupted a b b := by
  intro path v _ hpath hv
  rwa [mappingAt?, hv] at hpath

/-- Nothing is in the way below a value that is no mapping. -/
theorem uninterrupted_of_not_mapping (h : a.entries? = none) : Uninterrupted a b c := by
  intro path v hpath
  rw [mappingAt?_of_not_mapping h] at hpath
  cases hpath

/-- Nothing is in the way in three mappings, if this is so for what they bind to the keys of the
lowest one. -/
theorem uninterrupted_of_entries {as bs cs : Entries}
    (h : ∀ e ∈ as, ∀ w u, Entries.get? bs e.1 = some w → Entries.get? cs e.1 = some u →
      Uninterrupted e.2 w u) : Uninterrupted (.map as) (.map bs) (.map cs) := by
  intro path v hlower htop hv
  cases path with
  | nil =>
    cases hv
    rfl
  | cons key path =>
    obtain ⟨w, hw, hbelow⟩ := Option.bind_eq_some_iff.mp hv
    cases hlowest : (Value.map as).child? key with
    | none => simp [mappingAt?, at?, hlowest] at hlower
    | some a' =>
      cases hupper : (Value.map cs).child? key with
      | none => simp [mappingAt?, at?, hupper] at htop
      | some c' =>
        rw [mappingAt?_cons hlowest] at hlower
        rw [mappingAt?_cons hupper] at htop
        rw [child?_eq rfl] at hw hlowest hupper
        obtain ⟨e, he, rfl⟩ := Option.map_eq_some_iff.mp hlowest
        have hsame : e.1.sameKey key = true := by simpa using List.find?_some he
        rw [← Entries.get?_congr hsame] at hw hupper
        exact h e (List.mem_of_find?_eq_some he) w c' hw hupper path v hlower htop hbelow

/-- Three layers come to the same from below and from above, if none of them interrupts. The
induction is on the mappings of the lowest one, which the other two are only looked up in. -/
theorem overlay_assoc (ha : a.KeysDistinct) (hb : b.IsTree) (h : Uninterrupted a b c) :
    (a.overlay b).overlay c = a.overlay (b.overlay c) := by
  induction a using induction_on_mappings generalizing b c with
  | other a hmap => rw [overlay_of_ne_map hmap, overlay_of_ne_map hmap]
  | mapping as ih =>
    cases hbs : b.entries? with
    | none =>
      -- the middle value replaces the lower mapping, so the upper one must be no mapping
      have hlower : (Value.map as).overlay b = b := overlay_of_not_both (by simp [hbs])
      have hmiddle : b.overlay c = c := overlay_of_not_both (by simp [hbs])
      rw [hlower, hmiddle, overlay_of_not_both]
      rintro ⟨hjoint, htop⟩
      have hmapping := h [] b hjoint htop rfl
      rw [hbs] at hmapping
      cases hmapping
    | some bs =>
      obtain rfl := hb.eq_map hbs
      cases hcs : c.entries? with
      | none =>
        -- the upper value replaces whatever lies below it
        have hreplaces : ∀ lower : Value, lower.overlay c = c :=
          fun lower => overlay_of_not_both (by simp [hcs])
        rw [hreplaces, hreplaces, hreplaces]
      | some cs =>
        rw [overlay_mappings hbs, overlay_mappings hcs, overlay_mappings hcs, overlay_mappings rfl,
          Entries.overlay_assoc]
        intro e he w u hw hu
        have hlower := child?_of_mem ha he
        have hmiddle : (Value.map bs).child? e.1 = some w := (child?_eq rfl e.1).trans hw
        exact ih e he (ha.child? hlower) (hb.child? hmiddle)
          (h.child hlower hmiddle ((child?_eq hcs e.1).trans hu))

end Value

/-! ## Mappings -/

/-- **The laws of layers.** The empty mapping below or above changes nothing, a mapping laid twice
counts once, and of three layers the upper two may be put together first, unless the middle one
interrupts somewhere. Keys count with their order and their kind. The mapping in the middle lies
below another one, so it is a tree, as dumped settings are. A document is a graph; what it makes of
dumped settings unfolds to what its tree makes of them (`Value.tree?_overlay`), and the laws are
those of such trees. -/
theorem Entries.overlay_layers {a b : Entries} (ha : (Value.map a).KeysDistinct)
    (hb : (Value.map b).KeysDistinct) (htree : (Value.map b).IsTree) :
    Entries.overlay [] a = a ∧ Entries.overlay a [] = a ∧
      Entries.overlay (Entries.overlay a b) b = Entries.overlay a b ∧
      ∀ c : Entries, Value.Uninterrupted (.map a) (.map b) (.map c) →
        Entries.overlay (Entries.overlay a b) c = Entries.overlay a (Entries.overlay b c) := by
  have hassoc : ∀ c : Entries, Value.Uninterrupted (.map a) (.map b) (.map c) →
      Entries.overlay (Entries.overlay a b) c = Entries.overlay a (Entries.overlay b c) := by
    intro c hc
    have hvalues := Value.overlay_assoc ha htree hc
    simp only [Value.overlay_map] at hvalues
    injection hvalues
  have hself : Entries.overlay b b = b := by
    have hvalue := Value.overlay_self hb
    rw [Value.overlay_map] at hvalue
    injection hvalue
  refine ⟨nil_overlay a, overlay_nil a, ?_, hassoc⟩
  rw [hassoc b (Value.uninterrupted_same _ _), hself]

/-- Three layers with a mapping under one key of all of them, and keys that only one of them has. -/
theorem Entries.overlay_layers_nested :
    let key (name : String) : Scalar := .text (Text.ofString name)
    let a : Entries := [(key "log", .map [(key "level", .int 1)])]
    let b : Entries := [(key "log", .map [(key "file", .null)]), (.int 1, .int 5)]
    let c : Entries := [(.bool true, .list []), (key "log", .map [(key "level", .int 2)])]
    (Value.map a).KeysDistinct ∧ (Value.map b).KeysDistinct ∧ (Value.map b).IsTree ∧
      Value.Uninterrupted (.map a) (.map b) (.map c) ∧
      (Entries.overlay [] a = a ∧ Entries.overlay a [] = a ∧
        Entries.overlay (Entries.overlay a b) b = Entries.overlay a b) ∧
      Entries.overlay (Entries.overlay a b) c = Entries.overlay a (Entries.overlay b c) := by
  intro key a b c
  have hinner : ∀ (name : String) (v : Scalar),
      (Value.map [(key name, .scalar v)]).KeysDistinct := fun name v =>
    Value.keysDistinct_of_entries (List.pairwise_singleton _ _)
      (List.forall_mem_singleton.mpr (Value.keysDistinct_of_not_mapping (by cases v <;> rfl)))
  have ha : (Value.map a).KeysDistinct :=
    Value.keysDistinct_of_entries (List.pairwise_singleton _ _)
      (List.forall_mem_singleton.mpr (hinner "level" (.int 1)))
  have hb : (Value.map b).KeysDistinct := by
    refine Value.keysDistinct_of_entries (by decide) ?_
    simp only [b, List.forall_mem_cons]
    exact ⟨hinner "file" .null, Value.keysDistinct_of_not_mapping rfl, by simp⟩
  have htree : (Value.map b).IsTree := rfl
  have hpath : Value.Uninterrupted (.map a) (.map b) (.map c) := by
    refine Value.uninterrupted_of_entries (List.forall_mem_singleton.mpr fun w u hw hu => ?_)
    cases hw
    cases hu
    refine Value.uninterrupted_of_entries (List.forall_mem_singleton.mpr fun w u hw hu => ?_)
    exact Value.uninterrupted_of_not_mapping rfl
  obtain ⟨hbelow, habove, htwice, hassoc⟩ := Entries.overlay_layers ha hb htree
  exact ⟨ha, hb, htree, hpath, ⟨hbelow, habove, htwice⟩, hassoc c hpath⟩

end BootConfig
