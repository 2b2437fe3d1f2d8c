import BootConfig.Load.Merging
import BootConfig.Proofs.Data.Held
import BootConfig.Proofs.Data.Stepwise
import BootConfig.Proofs.Yaml.BoundKeys

/-!
# Merged objects

Merging objects does what an overlay does to the values that they hold. A merge goes on below a key
only where the lower mapping has a mapping, so that it ends when the lower mappings do, whatever the
upper one contains; and a part that is copied is copied object for object.

* `Objects.Merging`: the objects while a mapping is merged, between two of its entries.
* `Objects.merge_spec`: a merge that may be nested as deep as the lower mapping makes the overlay.
* `Objects.merge_document`: a document is merged into settings, though it may contain itself.
-/

namespace BootConfig.Objects

variable {h h' k k' : Objects} {merged id r : CellId} {v : Value} {m es us : Entries}
  {key : Scalar} {depth : Nat}

/-! ## New objects -/

/-- A value is held by new objects: all that there was is the same, and what is reached is new
unless it is a scalar. -/
structure Yields (h h' : Objects) (id : CellId) (v : Value) : Prop where
  grows : Grows h h'
  holds : h'.Holds id v
  fresh : ∀ i, h'.Reaches id i → (h'.cell i).isScalar = true ∨ h.size ≤ i

/-- A copy of an object that holds a value. -/
theorem Holds.copy_yields (hholds : h.Holds id v) :
    ∃ h' r, h.copy id = some (h', r) ∧ Yields h h' r v := by
  obtain ⟨h', ρ, hcopied, hcopy, hgrows, hnew, -⟩ := copy_spec fun i hi => hholds.lt_size hi
  refine ⟨h', ρ id, hcopied, hgrows, hholds.copy hcopy, fun j hj => ?_⟩
  obtain ⟨i, hi, rfl⟩ := hcopy.exists_of_reaches hj
  rw [hcopy.cell_eq hi, Cell.isScalar_rename]
  exact hnew i hi

/-! ## A merge that goes on -/

/-- An object holds a value in a mapping that is merged: it does not reach the mapping, which may be
changed therefore, and all that it reaches is new unless it is a scalar. -/
structure Carries (h k : Objects) (merged id : CellId) (v : Value) : Prop where
  holds : k.Holds id v
  ne : ∀ i, k.Reaches id i → i ≠ merged
  fresh : ∀ i, k.Reaches id i → (k.cell i).isScalar = true ∨ h.size ≤ i

namespace Carries

theorem same (hcarries : Carries h k merged id v)
    (hsame : ∀ i, k.Reaches id i → k'[i]? = some (k.cell i)) : Carries h k' merged id v := by
  have hcopy := IsCopy.of_same hsame
  refine ⟨hcarries.holds.copy hcopy, fun j hj => ?_, fun j hj => ?_⟩
  · obtain ⟨i, hi, rfl⟩ := hcopy.exists_of_reaches hj
    exact hcarries.ne i hi
  · obtain ⟨i, hi, rfl⟩ := hcopy.exists_of_reaches hj
    rw [cell_of_getElem? (hsame i hi)]
    exact hcarries.fresh i hi

/-- New objects do not disturb. -/
theorem grow (hcarries : Carries h k merged id v) (hgrows : Grows k k') :
    Carries h k' merged id v :=
  hcarries.same fun i hi => (hgrows.same i (hcarries.holds.lt_size hi)).trans
    (getElem?_of_lt (hcarries.holds.lt_size hi))

/-- The mapping may be changed. -/
theorem set (hcarries : Carries h k merged id v) (c : Cell) :
    Carries h (k.setIfInBounds merged c) merged id v :=
  hcarries.same fun i hi => by
    rw [Array.getElem?_setIfInBounds_ne (hcarries.ne i hi).symm,
      getElem?_of_lt (hcarries.holds.lt_size hi)]

end Carries

/-- A mapping is merged in new objects, and holds what the entries so far make of the lower one. -/
structure Merging (h k : Objects) (merged : CellId) (m : Entries) : Prop where
  grows : Grows h k
  new : h.size ≤ merged
  entries : ∃ entries, k[merged]? = some (.map entries) ∧
    List.Forall₂ (fun o e => o.1 = e.1 ∧ Carries h k merged o.2 e.2) entries m

/-- A merge starts with a copy of the lower mapping. -/
theorem Yields.merging (hyields : Yields h k merged (.map es)) (htree : (Value.map es).IsTree) :
    Merging h k merged es := by
  obtain ⟨entries, hcell, hentries⟩ := Holds.map_iff.mp hyields.holds
  have hcarries : ∀ o e, o ∈ entries → k.HoldsEntry o e → Carries h k merged o.2 e.2 := by
    intro o e ho hentry
    have hpart := contains_of_mem (cell_of_getElem? hcell) ho
    refine ⟨hentry.2, ?_, fun i hi => hyields.fresh i (.head hpart hi)⟩
    rintro i hi rfl
    exact hyields.holds.acyclic htree (.head' hpart hi)
  refine ⟨hyields.grows, (hyields.fresh merged .refl).resolve_left ?_, entries, hcell, ?_⟩
  · rw [cell_of_getElem? hcell]
    exact Bool.false_ne_true
  · obtain ⟨hlength, hall⟩ := List.forall₂_iff_zip.mp hentries
    exact List.forall₂_iff_zip.mpr ⟨hlength, fun {o e} hmem =>
      ⟨(hall hmem).1, hcarries o e (List.of_mem_zip hmem).1 (hall hmem)⟩⟩

namespace Merging

theorem holds (hmerging : Merging h k merged m) : k.Holds merged (.map m) := by
  obtain ⟨entries, hcell, hentries⟩ := hmerging.entries
  exact Holds.map_iff.mpr ⟨entries, hcell, hentries.imp fun _ _ he => ⟨he.1, he.2.holds⟩⟩

theorem yields (hmerging : Merging h k merged m) : Yields h k merged (.map m) := by
  refine ⟨hmerging.grows, hmerging.holds, fun i hi => ?_⟩
  obtain ⟨entries, hcell, hentries⟩ := hmerging.entries
  rcases hi.cases_head with rfl | ⟨part, hpart, hi⟩
  · exact .inr hmerging.new
  · obtain ⟨hlength, hall⟩ := List.forall₂_iff_zip.mp hentries
    rw [Contains, cell_of_getElem? hcell] at hpart
    obtain ⟨o, ho, rfl⟩ := List.mem_map.mp hpart
    obtain ⟨e, he⟩ := exists_mem_zip hlength ho
    exact (hall he).2.fresh i hi

end Merging

/-- New objects are carried by a mapping that there was. -/
theorem Yields.carries (hyields : Yields k k' r v) (hmerging : Merging h k merged m) :
    Carries h k' merged r v := by
  obtain ⟨entries, hcell, -⟩ := hmerging.entries
  have hlt := lt_size_of_getElem? hcell
  refine ⟨hyields.holds, ?_, fun i hi =>
    (hyields.fresh i hi).imp_right (Nat.le_trans hmerging.grows.size)⟩
  rintro i hi rfl
  rcases hyields.fresh i hi with hscalar | hnew
  · rw [hyields.grows.cell hlt, cell_of_getElem? hcell] at hscalar
    cases hscalar
  · exact Nat.not_lt.mpr hnew hlt

/-- A key is bound to new objects. -/
theorem Merging.bind (hmerging : Merging h k merged m) (key : Scalar) (hyields : Yields k k' r v) :
    ∃ k'', k'.bind? merged key r = some k'' ∧ Merging h k'' merged (m.put key v) := by
  have hvalue := hyields.carries hmerging
  obtain ⟨entries, hcell, hentries⟩ := hmerging.entries
  have hcell' : k'[merged]? = some (.map entries) :=
    (hyields.grows.same merged (lt_size_of_getElem? hcell)).trans hcell
  let k'' := k'.setIfInBounds merged (.map (Yaml.Builder.bind entries key r))
  refine ⟨k'', ?_, ⟨?_, fun i hi => ?_⟩, hmerging.new, _,
    Array.getElem?_setIfInBounds_self_of_lt (lt_size_of_getElem? hcell'),
    Yaml.Builder.forall₂_bind ?_ ?_⟩
  · rw [bind?, entries?_eq_some.mpr (cell_of_getElem? hcell')]
    rfl
  · rw [Array.size_setIfInBounds]
    exact Nat.le_trans hmerging.grows.size hyields.grows.size
  · have hne : merged ≠ i := Nat.ne_of_gt (Nat.lt_of_lt_of_le hi hmerging.new)
    rw [Array.getElem?_setIfInBounds_ne hne]
    exact (hmerging.grows.trans hyields.grows).same i hi
  · exact hentries.imp fun _ _ he => ⟨he.1, (he.2.grow hyields.grows).set _⟩
  · exact hvalue.set _

/-! ## Lower mappings -/

/-- A value as a merge may find it below: a tree whose mappings bind each of their keys once and are
nested at most so deep. -/
structure IsBase (depth : Nat) (v : Value) : Prop where
  tree : v.IsTree
  keys : v.KeysDistinct
  depth : v.mappingDepth ≤ depth

theorem IsBase.entry (hbase : IsBase (depth + 1) (.map es)) (hv : Entries.get? es key = some v) :
    IsBase depth v := by
  have hchild : (Value.map es).child? key = some v := (Value.child?_eq rfl key).trans hv
  refine ⟨hbase.tree.child? hchild, hbase.keys.child? hchild, ?_⟩
  obtain ⟨e, he, rfl⟩ := Option.map_eq_some_iff.mp hv
  exact Nat.le_of_lt_succ (Nat.lt_of_lt_of_le
    (mappingDepth_lt_of_mem (List.mem_of_find?_eq_some he)) hbase.depth)

/-- Merging two mappings makes the overlay if the lower one is not nested too deep. Nothing is said
about the depth of the upper one, which may contain itself. -/
def Merges (depth : Nat)
    (mergeMappings : Objects → CellId → CellId → Option (Objects × CellId)) : Prop :=
  ∀ {h lower upper es u us}, h.Holds lower (.map es) → IsBase depth (.map es) →
    h.Holds upper u → u.KeysDistinct → u.entries? = some us →
    ∃ h' merged, mergeMappings h lower upper = some (h', merged) ∧
      Yields h h' merged (.map (Entries.overlay es us))

/-! ## One entry -/

variable {mergeMappings : Objects → CellId → CellId → Option (Objects × CellId)}
  {o : Scalar × CellId} {u : Scalar × Value}

/-- What becomes of an entry. The two cases are those of an overlay: merges go on where both have a
mapping, and the upper value is copied elsewhere. -/
theorem mergeValue_spec (hmerges : Merges depth mergeMappings) (hmerging : Merging h k merged m)
    (hentry : k.HoldsEntry o u) (hkeys : u.2.KeysDistinct)
    (hbase : ∀ v, Entries.get? m u.1 = some v → IsBase depth v) :
    ∃ k' r, mergeValue mergeMappings merged k o = some (k', r) ∧ Yields k k' r (m.settle u) := by
  have hrel := hmerging.holds.child? u.1
  rw [Value.child?_eq rfl] at hrel
  rw [mergeValue, mappingUnder?, hentry.1, Entries.settle]
  generalize k.child? merged u.1 = lower at hrel ⊢
  generalize Entries.get? m u.1 = v at hrel hbase ⊢
  cases hrel with
  | none => exact hentry.2.copy_yields
  | @some lower v hlower =>
    have hbelow := hlower.entries?_isSome
    have habove := hentry.2.entries?_isSome
    by_cases hboth : v.entries?.isSome = true ∧ u.2.entries?.isSome = true
    · obtain ⟨es, hes⟩ := Option.isSome_iff_exists.mp hboth.1
      obtain ⟨us, hus⟩ := Option.isSome_iff_exists.mp hboth.2
      obtain ⟨os, hos⟩ := Option.isSome_iff_exists.mp (habove.trans hboth.2)
      have hv := hbase v rfl
      obtain rfl := hv.tree.eq_map hes
      rw [Option.filter_some, hbelow, if_pos hboth.1, hos]
      simp only [Value.overlay_mappings hus]
      exact hmerges hlower hv hentry.2 hkeys hus
    · simp only [Value.overlay_of_not_both hboth]
      split
      · rename_i hfound hos
        obtain ⟨hsame, hmapping⟩ := Option.filter_eq_some_iff.mp hfound
        cases hsame
        rw [hbelow] at hmapping
        rw [hos] at habove
        exact absurd ⟨hmapping, habove.symm⟩ hboth
      · exact hentry.2.copy_yields

/-- One entry is laid over what there is. -/
theorem mergeEntry_spec (hmerges : Merges depth mergeMappings) (hmerging : Merging h k merged m)
    (hentry : k.HoldsEntry o u) (hkeys : u.2.KeysDistinct)
    (hbase : ∀ v, Entries.get? m u.1 = some v → IsBase depth v) :
    ∃ k', mergeEntry mergeMappings merged k o = some k' ∧ Merging h k' merged (m.lay u) := by
  obtain ⟨k', r, hvalue, hyields⟩ := mergeValue_spec hmerges hmerging hentry hkeys hbase
  obtain ⟨k'', hbind, hmerging⟩ := hmerging.bind u.1 hyields
  refine ⟨k'', ?_, hmerging⟩
  rw [mergeEntry, hvalue]
  exact hentry.1 ▸ hbind

/-! ## All entries -/

/-- The entries are laid over the lower mapping in their order. What the lower mapping binds to the
keys that are still to come has not changed. -/
theorem mergeEntries_spec {os : List (Scalar × CellId)} (hmerges : Merges depth mergeMappings)
    (hentries : List.Forall₂ h.HoldsEntry os us)
    (hdistinct : us.Pairwise fun e e' => e.1.sameKey e'.1 = false)
    (hkeys : ∀ u ∈ us, u.2.KeysDistinct) (hmerging : Merging h k merged m)
    (hbase : ∀ u ∈ us, ∀ v, Entries.get? m u.1 = some v → IsBase depth v) :
    ∃ k', os.foldlM (mergeEntry mergeMappings merged) k = some k' ∧
      Merging h k' merged (us.foldl Entries.lay m) := by
  induction hentries generalizing k m with
  | nil => exact ⟨k, rfl, hmerging⟩
  | @cons o u os us hentry _ ih =>
    obtain ⟨hother, hdistinct⟩ := List.pairwise_cons.mp hdistinct
    obtain ⟨hkey, hkeys⟩ := List.forall_mem_cons.mp hkeys
    obtain ⟨hlower, hbase⟩ := List.forall_mem_cons.mp hbase
    have hentry : k.HoldsEntry o u := ⟨hentry.1, hentry.2.grow hmerging.grows⟩
    obtain ⟨mid, hmid, hmerging⟩ := mergeEntry_spec hmerges hmerging hentry hkey hlower
    have hbase : ∀ u' ∈ us, ∀ v, Entries.get? (m.lay u) u'.1 = some v → IsBase depth v := by
      intro u' hu' v hv
      rw [Entries.lay, Entries.get?_put_of_ne (hother u' hu')] at hv
      exact hbase u' hu' v hv
    obtain ⟨last, hlast, hmerging⟩ := ih hdistinct hkeys hmerging hbase
    refine ⟨last, ?_, hmerging⟩
    rw [List.foldlM_cons, hmid]
    exact hlast

/-- Merging makes the overlay, and succeeds if it may be nested as deep as the mappings of the lower
one. The induction is on this depth. -/
theorem merge_spec (depth : Nat) : Merges depth (merge depth) := by
  induction depth with
  | zero =>
    intro h lower upper es u us _ hbase
    exact absurd hbase.depth (Nat.not_succ_le_zero _)
  | succ depth ih =>
    intro h lower upper es u us hlower hbase hupper hkeys hus
    obtain ⟨copied, merged, hcopied, hyields⟩ := hlower.copy_yields
    obtain ⟨os, hcell, hentries⟩ := Holds.map_iff.mp (hupper.entries hus)
    have hsame := hyields.grows.cell (hupper.lt_size .refl)
    have hos : copied.entries? upper = some os :=
      entries?_eq_some.mpr (hsame.trans (cell_of_getElem? hcell))
    have hdistinct := hkeys [] us hus
    have hvalues : ∀ u ∈ us, u.2.KeysDistinct := fun u hu =>
      hkeys.child? ((Value.child?_eq hus u.1).trans (Entries.get?_of_mem hdistinct hu))
    obtain ⟨h', hfold, hmerging⟩ := mergeEntries_spec ih hentries hdistinct hvalues
      (hyields.merging hbase.tree) fun u _ v hv => hbase.entry hv
    rw [Entries.foldl_lay hbase.keys.entries hdistinct] at hmerging
    refine ⟨h', merged, ?_, hmerging.yields⟩
    simp [merge, hcopied, hos, hfold]

/-! ## More depth -/

theorem foldlM_mono {α β : Type} {f g : β → α → Option β}
    (hle : ∀ b a b', f b a = some b' → g b a = some b') {items : List α} {b b' : β}
    (h : items.foldlM f b = some b') : items.foldlM g b = some b' := by
  induction items generalizing b with
  | nil => exact h
  | cons a items ih =>
    rw [List.foldlM_cons] at h ⊢
    obtain ⟨mid, hmid, hrest⟩ := Option.bind_eq_some_iff.mp h
    exact Option.bind_eq_some_iff.mpr ⟨mid, hle b a mid hmid, ih hrest⟩

theorem mergeEntry_mono {f g : Objects → CellId → CellId → Option (Objects × CellId)}
    (hle : ∀ h lower upper r, f h lower upper = some r → g h lower upper = some r)
    (hentry : mergeEntry f merged k o = some k') : mergeEntry g merged k o = some k' := by
  obtain ⟨⟨mid, value⟩, hvalue, hbind⟩ := Option.bind_eq_some_iff.mp hentry
  refine Option.bind_eq_some_iff.mpr ⟨(mid, value), ?_, hbind⟩
  unfold mergeValue at hvalue ⊢
  split at hvalue
  · exact hle _ _ _ _ hvalue
  · exact hvalue

/-- What a merge makes does not depend on how deep it may be nested. -/
theorem merge_mono {depth' : Nat} {lower upper : CellId} {r : Objects × CellId}
    (hle : depth ≤ depth') (hmerge : merge depth h lower upper = some r) :
    merge depth' h lower upper = some r := by
  induction depth generalizing depth' h lower upper r with
  | zero => cases hmerge
  | succ depth ih =>
    obtain ⟨depth', rfl⟩ := Nat.exists_eq_add_of_lt hle
    obtain ⟨⟨copied, merged⟩, hcopied, hmerge⟩ := Option.bind_eq_some_iff.mp hmerge
    obtain ⟨entries, hentries, hmerge⟩ := Option.bind_eq_some_iff.mp hmerge
    obtain ⟨h', hfold, hmerge⟩ := Option.bind_eq_some_iff.mp hmerge
    refine Option.bind_eq_some_iff.mpr ⟨(copied, merged), hcopied, ?_⟩
    refine Option.bind_eq_some_iff.mpr ⟨entries, hentries, ?_⟩
    refine Option.bind_eq_some_iff.mpr ⟨h', foldlM_mono (fun _ _ _ hentry => ?_) hfold, hmerge⟩
    exact mergeEntry_mono (fun _ _ _ _ hbelow => ih (by omega) hbelow) hentry

/-! ## Documents -/

/-- Both objects have a mapping at a path of keys. -/
def BothMappings (h : Objects) (lower upper : CellId) (path : List Scalar) : Prop :=
  ((h.at? lower path).bind h.entries?).isSome = true ∧
    ((h.at? upper path).bind h.entries?).isSome = true

/-- A part that is taken over whole stands in the merged mapping as a copy of what it is in the
document. -/
theorem Yields.taken {base overlay taken : CellId} {upper : Value} {path : List Scalar}
    (hyields : Yields h h' merged (.map (Entries.overlay es us)))
    (hbase : h.Holds base (.map es)) (htree : (Value.map es).IsTree)
    (hoverlay : h.Holds overlay upper) (hdocument : upper.IsDocument)
    (hus : upper.entries? = some us) (hboth : h.BothMappings base overlay path)
    (hnot : ¬ h.BothMappings base overlay (path ++ [key]))
    (htaken : h.at? overlay (path ++ [key]) = some taken) :
    ∃ ρ, h'.at? merged (path ++ [key]) = some (ρ taken) ∧ IsCopy ρ h taken h' := by
  have hjoint : ∀ path, h.BothMappings base overlay path ↔ Value.Joint (.map es) upper path := by
    intro path
    rw [BothMappings, hbase.mappingAt?_isSome, hoverlay.mappingAt?_isSome]
    rfl
  rw [hjoint] at hboth hnot
  have habove := hoverlay.at? (path ++ [key])
  have hmade := hyields.holds.at? (path ++ [key])
  rw [← Value.overlay_mappings hus, Value.at?_overlay_fork htree hboth hnot] at hmade
  rw [htaken] at habove
  generalize hw : upper.at? (path ++ [key]) = w at habove hmade
  generalize h'.at? merged (path ++ [key]) = r at hmade ⊢
  cases habove with | some habove =>
  cases hmade with | some hmade =>
  obtain ⟨ρ, rfl, hcopy⟩ := habove.isCopy hmade (hdocument.below hw)
  exact ⟨ρ, rfl, hcopy⟩

/-- **A document is merged into settings, though it may contain itself.** Settings are any mapping
that does not contain itself, and they alone determine how deep merges are nested at most, for
whichever document. The merge of a document succeeds within this depth, and comes to the same if it
may be nested deeper; it changes no object that there was, and its new mapping holds the overlay of
the values. What the document has under a key where not both have a mapping is taken over as it is:
the objects that it reaches have one copy each, which hold one another as they do. -/
theorem merge_document {base : CellId} (hbase : h.Plain base)
    (hmapping : (h.entries? base).isSome = true) :
    ∃ es, h.Holds base (.map es) ∧ (Value.map es).IsTree ∧
      ∀ {bytes : Bytes} {upper : Value} {us : Entries} {overlay : CellId},
        Yaml.Document.ofBytes .unique bytes = .ok upper → upper.entries? = some us →
        h.Holds overlay upper →
        ∃ h' merged, (∀ depth, (Value.map es).mappingDepth ≤ depth →
            h.merge depth base overlay = some (h', merged)) ∧
          Yields h h' merged (.map (Entries.overlay es us)) ∧
          ∀ path key taken, h.BothMappings base overlay path →
            ¬ h.BothMappings base overlay (path ++ [key]) →
            h.at? overlay (path ++ [key]) = some taken →
            ∃ ρ, h'.at? merged (path ++ [key]) = some (ρ taken) ∧ IsCopy ρ h taken h' := by
  obtain ⟨v, htree, hholds⟩ := hbase.exists_tree
  obtain ⟨es, hes⟩ := Option.isSome_iff_exists.mp (hholds.entries?_isSome.symm.trans hmapping)
  obtain rfl := htree.eq_map hes
  refine ⟨es, hholds, htree, fun {bytes upper us overlay} hdocument hus hoverlay => ?_⟩
  have hdocument := Yaml.Document.isDocument_ofBytes hdocument
  obtain ⟨h', merged, hmerge, hyields⟩ := merge_spec (Value.map es).mappingDepth hholds
    ⟨htree, hholds.keysDistinct hbase.keys, Nat.le_refl _⟩ hoverlay
    (hoverlay.keysDistinct_of_isDocument hdocument) hus
  exact ⟨h', merged, fun depth hdepth => merge_mono hdepth hmerge, hyields,
    fun path key taken hboth hnot htaken =>
      hyields.taken hholds htree hoverlay hdocument hus hboth hnot htaken⟩

/-- A mapping that contains itself, and a list that contains it as well, lie under keys of which the
first two lead to mappings in the settings too. What lies behind them is taken over. -/
theorem merge_document_cyclic :
    let key (name : String) : Scalar := .text (Text.ofString name)
    let content : Bytes := Utf8.ofString "a: &x\n  b: *x\n  c: [*x, 1]\n"
    let document : Graph := ⟨#[.map [(key "a", 2)], .scalar (key "a"),
      .map [(key "b", 2), (key "c", 5)], .scalar (key "b"), .scalar (key "c"), .list [2, 6],
      .scalar (.int 1)], 0⟩
    let h : Objects := document.cells ++ #[.map [(key "a", 8)], .map [(key "b", 9), (key "d", 10)],
      .map [], .scalar (.int 7)]
    h.Plain 7 ∧ (h.entries? 7).isSome = true ∧
      Yaml.Document.ofBytes .unique content = .ok (.graph document) ∧ h.Holds 0 (.graph document) ∧
      (h.BothMappings 7 0 [key "a", key "b"] ∧
        ¬ h.BothMappings 7 0 [key "a", key "b", key "b"] ∧
        h.at? 0 [key "a", key "b", key "b"] = some 2) ∧
      ∃ es us h' merged ρ, h.Holds 7 (.map es) ∧ (Value.map es).IsTree ∧
        (Value.graph document).entries? = some us ∧
        (∀ depth, (Value.map es).mappingDepth ≤ depth → h.merge depth 7 0 = some (h', merged)) ∧
        Yields h h' merged (.map (Entries.overlay es us)) ∧
        h'.at? merged [key "a", key "b", key "b"] = some (ρ 2) ∧ IsCopy ρ h 2 h' := by
  intro key content document h
  have hplain : h.Plain 7 :=
    Plain.of_ascending (by decide +kernel) (by decide +kernel) (by decide +kernel)
  have hmapping : (h.entries? 7).isSome = true := by decide +kernel
  have hread : ((Yaml.Document.ofBytes .unique content).toOption.any fun v =>
      match v with
      | .graph g => g == document
      | _ => false) = true := by
    decide +kernel
  have hdocument : Yaml.Document.ofBytes .unique content = .ok (.graph document) := by
    obtain ⟨v, hv, hsame⟩ := (Option.any_eq_true _ _).mp hread
    cases v with
    | graph g => exact eq_of_beq hsame ▸ eq_ok_of_toOption hv
    | _ => cases hsame
  have hholds : h.Holds 0 (.graph document) := .of_append (by decide +kernel) (by decide +kernel)
  have hboth : h.BothMappings 7 0 [key "a", key "b"] := by
    unfold BothMappings
    decide +kernel
  have hnot : ¬ h.BothMappings 7 0 ([key "a", key "b"] ++ [key "b"]) := by
    unfold BothMappings
    decide +kernel
  have htaken : h.at? 0 ([key "a", key "b"] ++ [key "b"]) = some 2 := by decide +kernel
  obtain ⟨es, hes, htree, hmerges⟩ := merge_document hplain hmapping
  obtain ⟨h', merged, hmerge, hyields, htakes⟩ := hmerges hdocument rfl hholds
  obtain ⟨ρ, hρ, hcopy⟩ := htakes _ _ _ hboth hnot htaken
  exact ⟨hplain, hmapping, hdocument, hholds, ⟨hboth, hnot, htaken⟩, es, _, h', merged, ρ, hes,
    htree, rfl, hmerge, hyields, hρ, hcopy⟩

end BootConfig.Objects
