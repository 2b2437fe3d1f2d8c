import BootConfig.Proofs.Data.Held
import BootConfig.Proofs.Failing

/-!
# Documents as layers

A document is a graph, in which an alias makes two places hold one object. What is laid over dumped
settings is such a graph, and parts of it become parts of the result. If it does not contain itself
it unfolds to a tree, and so does the result: to the tree laid over the settings. So what is known of
layers that are trees is known of documents.

* `Graph.treeFrom_succ`: a graph unfolds alike if more steps are allowed for.
* `Value.unfolds_entries`: a mapping unfolds entry by entry.
* `Value.tree?_overlay`: an overlay unfolds to the overlay of what is laid over.
-/

namespace BootConfig

/-! ## Graphs -/

namespace Graph

variable {g : Graph} {fuel : Nat} {id : CellId} {v : Value}

/-- What a graph unfolds to below a cell does not depend on its root. -/
theorem treeFrom_focus (g : Graph) (root : CellId) (fuel : Nat) (id : CellId) :
    (g.focus root).treeFrom fuel id = g.treeFrom fuel id := by
  induction fuel generalizing id with
  | zero => rfl
  | succ fuel ih =>
    rw [treeFrom, treeFrom, funext ih]
    rfl

/-- A cell that unfolds with some fuel unfolds alike with more. The induction is on the fuel, along
which the parts of a cell are unfolded. -/
theorem treeFrom_succ (h : g.treeFrom fuel id = some v) : g.treeFrom (fuel + 1) id = some v := by
  induction fuel generalizing id v with
  | zero => cases h
  | succ fuel ih =>
    have hparts {α β : Type} {f f' : α → Option β} {items : List α} {results : List β}
        (hf : ∀ a b, f a = some b → f' a = some b) (h : items.mapM f = some results) :
        items.mapM f' = some results :=
      mapM_eq_some.mpr ((mapM_eq_some.mp h).imp hf)
    rw [treeFrom] at h ⊢
    cases hcell : g.cell id with
    | scalar s =>
      rw [hcell] at h
      exact h
    | set members =>
      rw [hcell] at h
      exact h
    | list items =>
      simp only [hcell, Option.map_eq_some_iff] at h ⊢
      obtain ⟨vs, hvs, rfl⟩ := h
      exact ⟨vs, hparts (fun _ _ => ih) hvs, rfl⟩
    | pairs items =>
      simp only [hcell, Option.map_eq_some_iff] at h ⊢
      obtain ⟨vs, hvs, rfl⟩ := h
      refine ⟨vs, hparts (fun p w hw => ?_) hvs, rfl⟩
      obtain ⟨a, ha, hw⟩ := Option.bind_eq_some_iff.mp hw
      obtain ⟨b, hb, hw⟩ := Option.bind_eq_some_iff.mp hw
      exact Option.bind_eq_some_iff.mpr ⟨a, ih ha, Option.bind_eq_some_iff.mpr ⟨b, ih hb, hw⟩⟩
    | map entries =>
      simp only [hcell, Option.map_eq_some_iff] at h ⊢
      obtain ⟨es, hes, rfl⟩ := h
      refine ⟨es, hparts (fun e w hw => ?_) hes, rfl⟩
      obtain ⟨u, hu, rfl⟩ := Option.map_eq_some_iff.mp hw
      exact Option.map_eq_some_iff.mpr ⟨u, ih hu, rfl⟩

/-- A part of a graph that is taken out of it unfolds as it does in the graph. -/
theorem tree?_ofCell (h : g.treeFrom g.cells.size id = some v) :
    (Value.ofCell g id).tree? = some v := by
  have hmore := treeFrom_succ h
  unfold Value.ofCell
  cases hcell : g.cell id with
  | scalar s =>
    rw [treeFrom, hcell] at hmore
    exact hmore
  | list | pairs | set | map =>
    show (g.focus id).treeFrom (g.cells.size + 1) id = some v
    rw [treeFrom_focus, hmore]

end Graph

/-! ## Mappings -/

/-- Two mappings with the same keys, the values of the first of which unfold to those of the
second. -/
def Entries.Unfolds (es es' : Entries) : Prop :=
  List.Forall₂ (fun e e' => e.1 = e'.1 ∧ e.2.tree? = some e'.2) es es'

theorem treeEntries_eq_some {es es' : Entries} : treeEntries es = some es' ↔ es.Unfolds es' := by
  unfold Entries.Unfolds
  induction es generalizing es' with
  | nil =>
    rw [treeEntries, List.forall₂_nil_left_iff, Option.some_inj]
    exact eq_comm
  | cons e es ih =>
    obtain ⟨key, v⟩ := e
    rw [treeEntries, List.forall₂_cons_left_iff]
    constructor
    · intro h
      split at h
      · rename_i u us hu hus
        cases h
        exact ⟨(key, u), us, ⟨rfl, hu⟩, ih.mp hus, rfl⟩
      · cases h
    · rintro ⟨⟨key', u⟩, us, ⟨hkey, hu⟩, hus, rfl⟩
      obtain rfl : key = key' := hkey
      rw [hu, ih.mpr hus]

namespace Value

variable {v u base upper : Value} {es : Entries}

/-- A mapping unfolds to a mapping, and anything else does not. A graph is unfolded below its root
by one step less than the graph is, as if each part were a graph of its own. -/
theorem unfolds_entries (h : v.tree? = some u) :
    Option.Rel Entries.Unfolds v.entries? u.entries? := by
  cases v with
  | scalar s =>
    cases h
    exact .none
  | set members =>
    cases h
    exact .none
  | list items =>
    obtain ⟨vs, -, rfl⟩ := Option.map_eq_some_iff.mp h
    exact .none
  | pair a b =>
    rw [Value.tree?] at h
    split at h
    · cases h
      exact .none
    · cases h
  | map es =>
    obtain ⟨es', hes', rfl⟩ := Option.map_eq_some_iff.mp h
    exact .some (treeEntries_eq_some.mp hes')
  | graph g =>
    rw [Value.tree?, Graph.tree?, Graph.treeFrom] at h
    rw [entries?_graph, Objects.entries?, show Objects.cell g.cells g.root = g.cell g.root from rfl]
    cases hcell : g.cell g.root with
    | scalar | set =>
      simp only [hcell, Option.some_inj] at h
      subst h
      exact .none
    | list | pairs =>
      simp only [hcell, Option.map_eq_some_iff] at h
      obtain ⟨vs, -, rfl⟩ := h
      exact .none
    | map entries =>
      simp only [hcell, Option.map_eq_some_iff] at h
      obtain ⟨es', hes', rfl⟩ := h
      refine .some ?_
      unfold Entries.Unfolds
      rw [List.forall₂_map_left_iff]
      refine (mapM_eq_some.mp hes').imp fun e e' he => ?_
      obtain ⟨w, hw, rfl⟩ := Option.map_eq_some_iff.mp he
      exact ⟨rfl, Graph.tree?_ofCell hw⟩

end Value

/-! ## Overlays -/

namespace Entries

variable {base us us' : Entries}

/-- What is bound to a key unfolds to what is bound to it afterwards. -/
theorem Unfolds.get? (h : us.Unfolds us') (key : Scalar) :
    Option.Rel (fun v u => v.tree? = some u) (us.get? key) (us'.get? key) := by
  induction h with
  | nil => exact .none
  | @cons e e' _ _ he _ ih =>
    rw [get?_cons, get?_cons, he.1]
    cases e'.1.sameKey key with
    | true => exact .some he.2
    | false => exact ih

/-- The entries that are new to a mapping are the same ones. -/
theorem Unfolds.unbound (h : us.Unfolds us') (base : Entries) :
    (Entries.unbound base us).Unfolds (Entries.unbound base us') := by
  unfold Entries.unbound
  induction h with
  | nil => exact .nil
  | @cons e e' _ _ he _ ih =>
    rw [List.filter_cons, List.filter_cons, he.1]
    split
    · exact .cons he ih
    · exact ih

/-- Entries laid over those of a tree unfold, if the values that both bind to a key do. -/
theorem Unfolds.overlay (h : us.Unfolds us') (hbase : (Value.map base).IsTree)
    (hvalues : ∀ e ∈ base, ∀ v u, v.tree? = some u → (e.2.overlay v).tree? = some (e.2.overlay u)) :
    (Entries.overlay base us).Unfolds (Entries.overlay base us') := by
  have hbound : Unfolds (overlayBound base us) (overlayBound base us') := by
    rw [overlayBound_eq_map, overlayBound_eq_map]
    unfold Unfolds
    rw [List.forall₂_map_left_iff, List.forall₂_map_right_iff, List.forall₂_same]
    refine fun e he => ⟨rfl, ?_⟩
    have hbound := h.get? e.1
    unfold laid
    generalize us.get? e.1 = v at hbound ⊢
    generalize us'.get? e.1 = u at hbound ⊢
    cases hbound with
    | none => exact Value.isTree_map_iff.mp hbase e he
    | some hvu => exact hvalues e he _ _ hvu
  exact List.rel_append hbound (h.unbound base)

end Entries

namespace Value

variable {base upper u : Value}

/-- **An overlay unfolds to the overlay of what is laid over.** Let a value be laid over a tree, as
dumped settings are. If it does not contain itself, the result does not either, and unfolds to what
the tree of the value makes of the settings. -/
theorem tree?_overlay (hbase : base.IsTree) (hupper : upper.tree? = some u) :
    (base.overlay upper).tree? = some (base.overlay u) := by
  induction base using induction_on_mappings generalizing upper u with
  | other v hv => rw [overlay_of_ne_map hv, overlay_of_ne_map hv, hupper]
  | mapping es ih =>
    have hentries := unfolds_entries hupper
    generalize hus : upper.entries? = us, hus' : u.entries? = us' at hentries
    cases hentries with
    | none =>
      rw [overlay_of_not_both (by simp [hus]), overlay_of_not_both (by simp [hus']), hupper]
    | some hunfolds =>
      rw [overlay_mappings hus, overlay_mappings hus', Value.tree?, treeEntries_eq_some.mpr
        (hunfolds.overlay hbase fun e he _ _ => ih e he (isTree_map_iff.mp hbase e he)),
        Option.map_some]

end Value

end BootConfig
