import BootConfig.Proofs.Data.Overlay
import Mathlib.Data.Nat.Find

/-!
# Overlays along paths

Where a value of an overlay comes from. Both values are followed along a path of keys as long as
both of them hold mappings; the key behind the last ones decides whose value stands at the path.

* `Value.at?`: the value at a path of keys.
* `Value.at?_overlay`: where both hold a value, the overlay has the one laid over the other.
* `Value.Forks`: the place where a path leaves the mappings that both hold.
* `Value.overlay_pathwise`: the values at all paths, and the keys of the mappings that both hold.
-/

namespace BootConfig.Value

/-- What a mapping binds to a key. -/
def child? (v : Value) (key : Scalar) : Option Value := v.entries?.bind (Entries.get? · key)

/-- The value at a path of keys. -/
def at? : List Scalar → Value → Option Value
  | [], v => some v
  | key :: path, v => (v.child? key).bind (at? path)

/-- The mapping at a path of keys. -/
def mappingAt? (v : Value) (path : List Scalar) : Option Entries := (v.at? path).bind entries?

variable {v base upper b u : Value} {path path' rest : List Scalar} {key : Scalar}
  {es us : Entries}

theorem child?_eq (h : v.entries? = some es) (key : Scalar) :
    v.child? key = Entries.get? es key := by
  rw [child?, h, Option.bind_some]

theorem child?_eq_some (h : v.child? key = some u) :
    ∃ es, v.entries? = some es ∧ Entries.get? es key = some u := Option.bind_eq_some_iff.mp h

theorem at?_singleton : v.at? [key] = v.child? key := Option.bind_fun_some _

theorem at?_append : v.at? (path ++ path') = (v.at? path).bind (at? path') := by
  induction path generalizing v with
  | nil => rfl
  | cons key path ih =>
    rw [List.cons_append, at?, at?]
    cases v.child? key with
    | none => rfl
    | some w => exact ih

theorem mappingAt?_append (h : v.at? path = some u) :
    v.mappingAt? (path ++ path') = u.mappingAt? path' := by
  rw [mappingAt?, mappingAt?, at?_append, h, Option.bind_some]

/-! ## Trees -/

/-- A value without graphs in it unfolds to itself. -/
def IsTree (v : Value) : Prop := v.tree? = some v

theorem treeFrom_ne_graph {g g' : Graph} {fuel : Nat} {id : CellId} :
    g.treeFrom fuel id ≠ some (.graph g') := by
  cases fuel with
  | zero => simp [Graph.treeFrom]
  | succ fuel =>
    rw [Graph.treeFrom]
    cases g.cell id <;> simp

/-- A mapping that is a tree is no graph. -/
theorem IsTree.eq_map (h : v.IsTree) (hes : v.entries? = some es) : v = .map es := by
  cases v with
  | map es' =>
    cases hes
    rfl
  | graph g => exact absurd h treeFrom_ne_graph
  | scalar s => cases hes
  | list items => cases hes
  | pair a b => cases hes
  | set members => cases hes

theorem isTree_pair_iff {a b : Value} : (Value.pair a b).IsTree ↔ a.IsTree ∧ b.IsTree := by
  unfold IsTree
  rw [Value.tree?]
  cases a.tree? <;> cases b.tree? <;> simp

theorem isTree_list_iff {vs : List Value} : (Value.list vs).IsTree ↔ ∀ v ∈ vs, v.IsTree := by
  have hitems : (Value.list vs).IsTree ↔ treeItems vs = some vs := by
    unfold IsTree
    rw [Value.tree?]
    cases treeItems vs <;> simp
  rw [hitems]
  clear hitems
  induction vs with
  | nil => simp [treeItems]
  | cons v vs ih =>
    refine Iff.trans ?_ (List.forall_mem_cons.trans (and_congr_right fun _ => ih.symm)).symm
    rw [treeItems]
    unfold IsTree
    cases v.tree? <;> cases treeItems vs <;> simp

theorem isTree_map_iff {es : Entries} : (Value.map es).IsTree ↔ ∀ e ∈ es, e.2.IsTree := by
  have hentries : (Value.map es).IsTree ↔ treeEntries es = some es := by
    unfold IsTree
    rw [Value.tree?]
    cases treeEntries es <;> simp
  rw [hentries]
  clear hentries
  induction es with
  | nil => simp [treeEntries]
  | cons e es ih =>
    obtain ⟨key, v⟩ := e
    refine Iff.trans ?_ (List.forall_mem_cons.trans (and_congr_right fun _ => ih.symm)).symm
    rw [treeEntries]
    unfold IsTree
    cases v.tree? <;> cases treeEntries es <;> simp

/-- What a tree binds to a key is a tree. -/
theorem IsTree.child? (h : v.IsTree) (hu : v.child? key = some u) : u.IsTree := by
  obtain ⟨es, hes, hget⟩ := child?_eq_some hu
  obtain rfl := h.eq_map hes
  obtain ⟨e, he, rfl⟩ := Option.map_eq_some_iff.mp hget
  exact isTree_map_iff.mp h e (List.mem_of_find?_eq_some he)

/-- What a tree holds at a path is a tree. -/
theorem IsTree.below (h : v.IsTree) (hu : v.at? path = some u) : u.IsTree := by
  induction path generalizing v with
  | nil =>
    cases hu
    exact h
  | cons key path ih =>
    obtain ⟨w, hw, hbelow⟩ := Option.bind_eq_some_iff.mp hu
    exact ih (h.child? hw) hbelow

theorem IsTree.at?_eq_map (h : v.IsTree) (hes : v.mappingAt? path = some es) :
    v.at? path = some (.map es) := by
  obtain ⟨w, hw, hwes⟩ := Option.bind_eq_some_iff.mp hes
  rw [hw, (h.below hw).eq_map hwes]

/-! ## One level -/

/-- Two mappings laid over one another. -/
theorem overlay_mappings (hupper : upper.entries? = some us) :
    (Value.map es).overlay upper = .map (Entries.overlay es us) := by
  rw [Value.overlay, hupper]
  rfl

/-- Where only one value is a mapping, or none is, the upper one counts. -/
theorem overlay_of_not_both (h : ¬ (base.entries?.isSome = true ∧ upper.entries?.isSome = true)) :
    base.overlay upper = upper := by
  cases base with
  | map es =>
    have hupper : upper.entries? = none := by
      rw [← Option.not_isSome_iff_eq_none]
      exact fun hsome => h ⟨rfl, hsome⟩
    rw [Value.overlay, hupper]
  | scalar | list | pair | set | graph => rw [Value.overlay]; simp

/-! ## Paths -/

/-- Both values hold a mapping at the path. -/
def Joint (base upper : Value) (path : List Scalar) : Prop :=
  (base.mappingAt? path).isSome = true ∧ (upper.mappingAt? path).isSome = true

instance : DecidablePred (Joint base upper) := fun _ => inferInstanceAs (Decidable (_ ∧ _))

/-- Where both hold a value, the overlay has the one laid over the other. -/
theorem at?_overlay (htree : base.IsTree) (hb : base.at? path = some b)
    (hu : upper.at? path = some u) : (base.overlay upper).at? path = some (b.overlay u) := by
  induction path generalizing base upper with
  | nil =>
    cases hb
    cases hu
    rfl
  | cons key path ih =>
    obtain ⟨v, hv, hbelow⟩ := Option.bind_eq_some_iff.mp hb
    obtain ⟨w, hw, habove⟩ := Option.bind_eq_some_iff.mp hu
    obtain ⟨es, hes, hget⟩ := child?_eq_some hv
    obtain ⟨us, hus, hw⟩ := child?_eq_some hw
    have hchild : (base.overlay upper).child? key = some (v.overlay w) := by
      rw [htree.eq_map hes, overlay_mappings hus, child?_eq rfl, Entries.get?_overlay hget,
        Entries.laid, hw]
    rw [at?, hchild]
    exact ih (htree.child? hv) hbelow habove

/-- The mapping at a path where both hold one. -/
theorem mappingAt?_overlay (htree : base.IsTree) (hes : base.mappingAt? path = some es)
    (hus : upper.mappingAt? path = some us) :
    (base.overlay upper).mappingAt? path = some (Entries.overlay es us) := by
  obtain ⟨u, hu, huus⟩ := Option.bind_eq_some_iff.mp hus
  rw [mappingAt?, at?_overlay htree (htree.at?_eq_map hes) hu, Option.bind_some,
    overlay_mappings huus]
  rfl

/-- What stands under a key of which not both mappings hold a mapping: the upper value, if there is
one. -/
theorem child?_overlay (hupper : upper.entries? = some us)
    (hnot : ¬ Joint (.map es) upper [key]) :
    ((Value.map es).overlay upper).child? key = (upper.child? key).or (Entries.get? es key) := by
  rw [overlay_mappings hupper, child?_eq rfl, child?_eq hupper]
  cases hv : Entries.get? es key with
  | none => rw [Entries.get?_overlay_of_unbound hv, Option.or_none]
  | some v =>
    rw [Entries.get?_overlay hv, Entries.laid]
    cases hw : Entries.get? us key with
    | none => rfl
    | some w =>
      have hboth : ¬ (v.entries?.isSome = true ∧ w.entries?.isSome = true) := by
        simpa [Joint, mappingAt?, at?_singleton, child?_eq hupper, child?_eq (v := .map es) rfl, hw,
          hv] using hnot
      rw [Option.some_or]
      exact congrArg some (overlay_of_not_both hboth)

/-- The value at a path that leaves the mappings that both hold. -/
theorem at?_overlay_fork (htree : base.IsTree) (hjoint : Joint base upper path)
    (hnot : ¬ Joint base upper (path ++ [key])) :
    (base.overlay upper).at? (path ++ key :: rest) =
      if (upper.at? (path ++ [key])).isSome then upper.at? (path ++ key :: rest)
      else base.at? (path ++ key :: rest) := by
  obtain ⟨es, hes⟩ := Option.isSome_iff_exists.mp hjoint.1
  obtain ⟨us, hus⟩ := Option.isSome_iff_exists.mp hjoint.2
  obtain ⟨u, hu, huus⟩ := Option.bind_eq_some_iff.mp hus
  have hb := htree.at?_eq_map hes
  have hat := at?_overlay htree hb hu
  have hnot : ¬ Joint (.map es) u [key] := by
    rwa [Joint, mappingAt?_append hb, mappingAt?_append hu] at hnot
  simp only [at?_append, hb, hu, hat, Option.bind_some, at?_singleton]
  rw [at?, child?_overlay huus hnot, at?, at?, child?_eq (v := .map es) rfl]
  cases u.child? key <;> rfl

/-! ## Forks -/

/-- A path leaves the mappings that both values hold behind `before`, with the key `key`. -/
structure Forks (base upper : Value) (path before : List Scalar) (key : Scalar)
    (rest : List Scalar) : Prop where
  path_eq : path = before ++ key :: rest
  joint : Joint base upper before
  /-- No longer proper prefix of the path is one along which both hold mappings. -/
  longest : ∀ q, q <+: path → q ≠ path → Joint base upper q → q.length ≤ before.length

theorem exists_forks (hroot : Joint base upper []) (hpath : path ≠ []) :
    ∃ before key rest, Forks base upper path before key rest := by
  let n := Nat.findGreatest (fun k => Joint base upper (path.take k)) (path.length - 1)
  have hlength : 0 < path.length := List.length_pos_iff.mpr hpath
  have hn : n ≤ path.length - 1 := Nat.findGreatest_le _
  have hjoint : Joint base upper (path.take n) :=
    Nat.findGreatest_spec (P := fun k => Joint base upper (path.take k)) (Nat.zero_le _) hroot
  obtain ⟨key, rest, hdrop⟩ : ∃ key rest, path.drop n = key :: rest := by
    apply List.exists_cons_of_ne_nil
    rw [Ne, List.drop_eq_nil_iff]
    omega
  refine ⟨path.take n, key, rest, ?_, hjoint, ?_⟩
  · rw [← hdrop, List.take_append_drop]
  · intro q hq hne hq'
    have hlt : q.length < path.length :=
      lt_of_le_of_ne hq.length_le fun hlen => hne (hq.eq_of_length hlen)
    have hle : q.length ≤ n := by
      refine Nat.le_findGreatest (by omega) ?_
      rwa [← List.prefix_iff_eq_take.mp hq]
    rw [List.length_take]
    omega

/-- Behind a fork the two do not both hold a mapping, unless they do so at the whole path. -/
theorem Forks.not_joint {before : List Scalar} (h : Forks base upper path before key rest)
    (hpath : ¬ Joint base upper path) : ¬ Joint base upper (before ++ [key]) := by
  intro hjoint
  have hprefix : before ++ [key] <+: path := ⟨rest, by simp [h.path_eq]⟩
  by_cases hwhole : before ++ [key] = path
  · exact hpath (hwhole ▸ hjoint)
  · have hlength := h.longest _ hprefix hwhole hjoint
    rw [List.length_append, List.length_singleton] at hlength
    omega

/-- **An overlay, path by path.** Let a mapping be laid over one that is a tree, as dumped settings
are. At a path where both hold mappings the overlay holds one too. Every other path leaves the
mappings that both hold behind a longest prefix: if the upper mapping there binds the next key, the
value at the path is the upper one, and else the lower one, and it is absent if that is. The keys of
a mapping where both hold one are the lower keys, unchanged and in order, and then the upper keys
that are new, in order. -/
theorem overlay_pathwise (htree : base.IsTree) (hroot : Joint base upper []) :
    (∀ path, path ≠ [] →
      (Joint base upper path → ((base.overlay upper).mappingAt? path).isSome = true) ∧
      (¬ Joint base upper path → ∃ before key rest, Forks base upper path before key rest ∧
        (base.overlay upper).at? path =
          if (upper.at? (before ++ [key])).isSome then upper.at? path else base.at? path)) ∧
    ∀ path es us, base.mappingAt? path = some es → upper.mappingAt? path = some us →
      ∃ merged, (base.overlay upper).mappingAt? path = some merged ∧
        merged.map Prod.fst = es.map Prod.fst ++
          (us.map Prod.fst).filter fun key => !(es.map Prod.fst).any fun k => k.sameKey key := by
  refine ⟨fun path hpath => ⟨fun hjoint => ?_, fun hnot => ?_⟩, fun path es us hes hus => ?_⟩
  · obtain ⟨es, hes⟩ := Option.isSome_iff_exists.mp hjoint.1
    obtain ⟨us, hus⟩ := Option.isSome_iff_exists.mp hjoint.2
    rw [mappingAt?_overlay htree hes hus]
    rfl
  · obtain ⟨before, key, rest, hforks⟩ := exists_forks hroot hpath
    refine ⟨before, key, rest, hforks, ?_⟩
    rw [hforks.path_eq]
    exact at?_overlay_fork htree hforks.joint (hforks.not_joint hnot)
  · exact ⟨_, mappingAt?_overlay htree hes hus, Entries.map_fst_overlay es us⟩

/-- Keys that are the same though they are written as an integer and as a truth value, a mapping
over a scalar, a scalar over a mapping, and a key that is new. -/
theorem overlay_pathwise_mixedKeys :
    let x : Scalar := .text (Text.ofString "x")
    let y : Scalar := .text (Text.ofString "y")
    let base : Value := .map [(.int 1, .map [(x, .int 1), (y, .map [])]), (x, .int 2)]
    let upper : Value :=
      .map [(x, .map [(y, .null)]), (.null, .int 3), (.bool true, .map [(y, .list [])])]
    base.IsTree ∧ Joint base upper [] ∧
      (Joint base upper [.int 1] ∧ ((base.overlay upper).mappingAt? [.int 1]).isSome = true) ∧
      (¬ Joint base upper [x, y] ∧ ∃ before key rest, Forks base upper [x, y] before key rest ∧
        (base.overlay upper).at? [x, y] =
          if (upper.at? (before ++ [key])).isSome then some .null else none) ∧
      ∃ merged, (base.overlay upper).mappingAt? [] = some merged ∧
        merged.map Prod.fst = [.int 1, x, .null] := by
  intro x y base upper
  have htree : base.IsTree := rfl
  have hroot : Joint base upper [] := by decide
  have hjoint : Joint base upper [.int 1] := by decide
  have hnot : ¬ Joint base upper [x, y] := by decide
  obtain ⟨hvalues, hkeys⟩ := overlay_pathwise htree hroot
  refine ⟨htree, hroot, ⟨hjoint, (hvalues _ (by simp)).1 hjoint⟩, ⟨hnot, ?_⟩, ?_⟩
  · exact (hvalues [x, y] (by simp)).2 hnot
  · exact hkeys [] _ _ rfl rfl

end BootConfig.Value
