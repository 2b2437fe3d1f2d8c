import BootConfig.Data.Objects
import BootConfig.Proofs.Data.Table
import Mathlib.Data.List.Perm.Subperm
import Mathlib.Logic.Relation
import Mathlib.Tactic.Choose

/-!
# Deep copies

A deep copy has one object for each object that it copies, and its objects hold one another as those
do. So what is shared is shared in the copy, and what holds itself holds itself there.

* `Objects.Reaches`: what an object holds, directly or through others.
* `Objects.IsCopy`: objects that stand for others, one for one.
* `Copying.Sound`: a copy that is being made, with the objects that are still to be filled.
* `Objects.copy_spec`: every object can be copied, whatever holds itself, and nothing is changed.
-/

namespace BootConfig

open Relation (ReflTransGen)

namespace Cell

variable {c : Cell} {f g : CellId → CellId}

@[simp] theorem parts_rename (c : Cell) (f : CellId → CellId) :
    (c.rename f).parts = c.parts.map f := by
  cases c <;> simp [parts, rename, List.map_flatMap, List.flatMap_map]

@[simp] theorem isScalar_rename (c : Cell) (f : CellId → CellId) :
    (c.rename f).isScalar = c.isScalar := by
  cases c <;> rfl

theorem rename_congr (h : ∀ part ∈ c.parts, f part = g part) : c.rename f = c.rename g := by
  cases c with
  | scalar | set => rfl
  | list items => exact congrArg _ (List.map_congr_left h)
  | pairs items =>
    refine congrArg _ (List.map_congr_left fun p hp => Prod.ext (h _ ?_) (h _ ?_))
    · exact List.mem_flatMap.mpr ⟨p, hp, by simp⟩
    · exact List.mem_flatMap.mpr ⟨p, hp, by simp⟩
  | map entries =>
    refine congrArg _ (List.map_congr_left fun e he => ?_)
    rw [h e.2 (List.mem_map_of_mem he)]

theorem rename_rename (c : Cell) (f g : CellId → CellId) :
    (c.rename f).rename g = c.rename fun i => g (f i) := by
  cases c <;> simp [rename]

theorem rename_id (c : Cell) : (c.rename fun i => i) = c := by
  cases c <;> simp [rename]

theorem parts_of_isScalar (h : c.isScalar = true) : c.parts = [] := by
  cases c <;> first | rfl | cases h

theorem rename_of_isScalar (h : c.isScalar = true) : c.rename f = c := by
  cases c <;> first | rfl | cases h

end Cell

/-! ## Objects that are held -/

namespace Objects

variable {h h' h'' : Objects} {id i j : CellId} {c : Cell}

theorem cell_of_getElem? (hc : h[id]? = some c) : h.cell id = c := by
  rw [cell, Array.getD_eq_getD_getElem?, hc]
  rfl

theorem getElem?_of_lt (hid : id < h.size) : h[id]? = some (h.cell id) := by
  have hc := Array.getElem?_eq_getElem hid
  rw [hc, cell_of_getElem? hc]

theorem lt_size_of_getElem? (hc : h[id]? = some c) : id < h.size :=
  (Array.getElem?_eq_some_iff.mp hc).1

/-- An object holds another one directly. -/
def Contains (h : Objects) (whole part : CellId) : Prop := part ∈ (h.cell whole).parts

/-- An object holds another one, directly or through others, or is it. -/
def Reaches (h : Objects) : CellId → CellId → Prop := ReflTransGen h.Contains

/-- A scalar holds nothing. -/
theorem Reaches.of_isScalar (hreach : h.Reaches i j) (hscalar : (h.cell i).isScalar = true) :
    j = i := by
  rcases hreach.cases_head with rfl | ⟨part, hpart, -⟩
  · rfl
  · rw [Contains, Cell.parts_of_isScalar hscalar] at hpart
    cases hpart

/-- Objects have been added, and none has changed. -/
structure Grows (h h' : Objects) : Prop where
  size : h.size ≤ h'.size
  same : ∀ i < h.size, h'[i]? = h[i]?

theorem Grows.refl (h : Objects) : Grows h h := ⟨Nat.le_refl _, fun _ _ => rfl⟩

theorem Grows.trans (hgrows : Grows h h') (hgrows' : Grows h' h'') : Grows h h'' where
  size := Nat.le_trans hgrows.size hgrows'.size
  same i hi := (hgrows'.same i (Nat.lt_of_lt_of_le hi hgrows.size)).trans (hgrows.same i hi)

theorem Grows.cell (hgrows : Grows h h') (hi : i < h.size) : h'.cell i = h.cell i :=
  cell_of_getElem? ((hgrows.same i hi).trans (getElem?_of_lt hi))

/-! ## Objects that stand for others -/

/-- Objects stand for all that an object reaches: no object stands for two, and each holds what
stands for the parts of the one that it stands for. -/
structure IsCopy (ρ : CellId → CellId) (src : Objects) (root : CellId) (h : Objects) : Prop where
  cell : ∀ i, src.Reaches root i → h[ρ i]? = some ((src.cell i).rename ρ)
  injective : ∀ i j, src.Reaches root i → src.Reaches root j → ρ i = ρ j → i = j

namespace IsCopy

variable {ρ σ : CellId → CellId} {src : Objects} {root : CellId}

theorem cell_eq (hcopy : IsCopy ρ src root h) (hi : src.Reaches root i) :
    h.cell (ρ i) = (src.cell i).rename ρ := cell_of_getElem? (hcopy.cell i hi)

/-- What is reached has something that stands for it. -/
theorem exists_of_reaches (hcopy : IsCopy ρ src root h) (hj : h.Reaches (ρ root) j) :
    ∃ i, src.Reaches root i ∧ ρ i = j := by
  induction hj with
  | refl => exact ⟨root, .refl, rfl⟩
  | tail _ hpart ih =>
    obtain ⟨i, hi, rfl⟩ := ih
    rw [Contains, hcopy.cell_eq hi, Cell.parts_rename] at hpart
    obtain ⟨part, hmem, rfl⟩ := List.mem_map.mp hpart
    exact ⟨part, hi.tail hmem, rfl⟩

theorem part (hcopy : IsCopy ρ src root h) (hi : src.Reaches root i) : IsCopy ρ src i h where
  cell j hj := hcopy.cell j (hi.trans hj)
  injective j j' hj hj' := hcopy.injective j j' (hi.trans hj) (hi.trans hj')

theorem reaches (hcopy : IsCopy ρ src root h) (hi : src.Reaches root i) :
    h.Reaches (ρ root) (ρ i) := by
  induction hi with
  | refl => exact .refl
  | tail hreach hpart ih =>
    refine ih.tail ?_
    rw [Contains, hcopy.cell_eq hreach, Cell.parts_rename]
    exact List.mem_map_of_mem hpart

theorem trans (hcopy : IsCopy ρ src root h) (hcopy' : IsCopy σ h (ρ root) h') :
    IsCopy (fun i => σ (ρ i)) src root h' where
  cell i hi := by
    rw [hcopy'.cell _ (hcopy.reaches hi), hcopy.cell_eq hi, Cell.rename_rename]
  injective i j hi hj heq :=
    hcopy.injective i j hi hj (hcopy'.injective _ _ (hcopy.reaches hi) (hcopy.reaches hj) heq)

/-- Two copies of one thing are copies of one another. -/
theorem between (hcopy : IsCopy ρ src root h) (hcopy' : IsCopy σ src root h') :
    ∃ τ, τ (ρ root) = σ root ∧ IsCopy τ h (ρ root) h' := by
  have hsource : ∀ j, h.Reaches (ρ root) j → ∃ i, src.Reaches root i ∧ ρ i = j :=
    fun j hj => hcopy.exists_of_reaches hj
  choose! source hsource using hsource
  have hback : ∀ i, src.Reaches root i → source (ρ i) = i := by
    intro i hi
    obtain ⟨hreach, heq⟩ := hsource (ρ i) (hcopy.reaches hi)
    exact hcopy.injective _ _ hreach hi heq
  refine ⟨fun j => σ (source j), congrArg σ (hback root .refl), fun j hj => ?_,
    fun j j' hj hj' heq => ?_⟩
  · obtain ⟨hreach, heq⟩ := hsource j hj
    have hcell : h.cell j = (src.cell (source j)).rename ρ := by
      rw [← hcopy.cell_eq hreach, heq]
    rw [hcopy'.cell _ hreach, hcell, Cell.rename_rename]
    exact congrArg some (Cell.rename_congr fun part hpart =>
      congrArg σ (hback part (hreach.tail hpart)).symm)
  · obtain ⟨hreach, hj⟩ := hsource j hj
    obtain ⟨hreach', hj'⟩ := hsource j' hj'
    rw [← hj, ← hj', hcopy'.injective _ _ hreach hreach' heq]

/-- Objects stand for themselves where they are what they have been. -/
theorem of_same (hsame : ∀ i, h.Reaches root i → h'[i]? = some (h.cell i)) :
    IsCopy (fun i => i) h root h' where
  cell i hi := by rw [hsame i hi, Cell.rename_id]
  injective _ _ _ _ heq := heq

end IsCopy

end Objects

/-! ## A copy that is being made -/

namespace Copying

open Objects

variable {h : Objects} {root id i j : CellId} {opened : List CellId} {c c' c'' : Copying}

/-- Something stands for an object: itself if it is a scalar, or its copy. -/
def Known (h : Objects) (c : Copying) (id : CellId) : Prop :=
  (h.cell id).isScalar = true ∨ ∃ j, (id, j) ∈ c.copies

/-- A later state of a copy: more objects have been met, and all that there was is the same. -/
structure Extends (c c' : Copying) : Prop where
  copies : c.copies <:+ c'.copies
  objects : Grows c.objects c'.objects

theorem Extends.refl (c : Copying) : Extends c c := ⟨List.suffix_refl _, .refl _⟩

theorem Extends.trans (hext : Extends c c') (hext' : Extends c' c'') : Extends c c'' :=
  ⟨hext.copies.trans hext'.copies, hext.objects.trans hext'.objects⟩

theorem Extends.known (hext : Extends c c') (hknown : Known h c i) : Known h c' i :=
  hknown.imp_right fun ⟨j, hj⟩ => ⟨j, hext.copies.subset hj⟩

/-- The copies are the new objects, one for each object that has been met. -/
structure Tabled (h : Objects) (root : CellId) (c : Copying) : Prop where
  old : ∀ i < h.size, c.objects[i]? = h[i]?
  size : c.objects.size = h.size + c.copies.length
  met : ∀ p ∈ c.copies, h.Reaches root p.1 ∧ (h.cell p.1).isScalar = false
  keys : (c.copies.map Prod.fst).Nodup
  targets : c.copies.map Prod.snd = (List.range' h.size c.copies.length).reverse

namespace Tabled

theorem grows (htabled : Tabled h root c) : Grows h c.objects :=
  ⟨htabled.size ▸ Nat.le_add_right _ _, htabled.old⟩

theorem target (htabled : Tabled h root c) (hp : (i, j) ∈ c.copies) :
    h.size ≤ j ∧ j < c.objects.size := by
  have hj : j ∈ c.copies.map Prod.snd := List.mem_map_of_mem hp
  rw [htabled.targets, List.mem_reverse, List.mem_range'_1] at hj
  exact htabled.size ▸ hj

theorem target_inj (htabled : Tabled h root c) (hi : (i, j) ∈ c.copies)
    (hid : (id, j) ∈ c.copies) : i = id := by
  have hnodup : (c.copies.map Prod.snd).Nodup := by
    rw [htabled.targets]
    exact List.nodup_reverse.mpr List.nodup_range'
  exact congrArg Prod.fst (List.inj_on_of_nodup_map hnodup hi hid rfl)

theorem copyOf_of_mem (htabled : Tabled h root c) (hp : (i, j) ∈ c.copies) : c.copyOf i = j := by
  rw [copyOf, lookup_of_mem htabled.keys hp]
  rfl

theorem copyOf_of_isScalar (htabled : Tabled h root c) (hscalar : (h.cell i).isScalar = true) :
    c.copyOf i = i := by
  unfold copyOf
  cases hlookup : c.copies.lookup i with
  | none => rfl
  | some j =>
    have hmet := (htabled.met _ (mem_of_lookup hlookup)).2
    rw [hscalar] at hmet
    cases hmet

theorem isDone_iff (htabled : Tabled h root c) (hi : i < h.size) :
    c.isDone i = true ↔ Known h c i := by
  rw [isDone, htabled.grows.cell hi, Bool.or_eq_true, Option.isSome_iff_exists]
  refine or_congr_right (exists_congr fun j => ?_)
  exact ⟨mem_of_lookup, lookup_of_mem htabled.keys⟩

/-- What stands for an object stays the same. -/
theorem copyOf_eq (htabled : Tabled h root c) (htabled' : Tabled h root c') (hext : Extends c c')
    (hknown : Known h c i) : c'.copyOf i = c.copyOf i := by
  rcases hknown with hscalar | ⟨j, hj⟩
  · rw [htabled.copyOf_of_isScalar hscalar, htabled'.copyOf_of_isScalar hscalar]
  · rw [htabled.copyOf_of_mem hj, htabled'.copyOf_of_mem (hext.copies.subset hj)]

/-- No more objects are met than there are. -/
theorem length_le (htabled : Tabled h root c) (hrange : ∀ i, h.Reaches root i → i < h.size) :
    c.copies.length ≤ h.size := by
  have hsubset : c.copies.map Prod.fst ⊆ List.range h.size := by
    intro i hi
    obtain ⟨p, hp, rfl⟩ := List.mem_map.mp hi
    exact List.mem_range.mpr (hrange _ (htabled.met p hp).1)
  have hlength := (List.subperm_of_subset htabled.keys hsubset).length_le
  rwa [List.length_map, List.length_range] at hlength

end Tabled

/-- All copies are filled but those of the objects that are open, and something stands for all parts
of those that are filled. -/
structure Sound (h : Objects) (root : CellId) (opened : List CellId) (c : Copying) : Prop
    extends Tabled h root c where
  filled : ∀ p ∈ c.copies, p.1 ∉ opened →
    c.objects[p.2]? = some ((h.cell p.1).rename c.copyOf) ∧
      ∀ part ∈ (h.cell p.1).parts, Known h c part

theorem sound_start (h : Objects) (root : CellId) : Sound h root [] ⟨h, []⟩ where
  old _ _ := rfl
  size := rfl
  met _ hp := nomatch hp
  keys := List.nodup_nil
  targets := rfl
  filled _ hp := nomatch hp

theorem extends_meet (c : Copying) (id : CellId) : Extends c (c.meet id) where
  copies := List.suffix_cons _ _
  objects.size := by
    rw [meet, Array.size_push]
    exact Nat.le_succ _
  objects.same i hi := by
    rw [meet, Array.getElem?_push, if_neg (Nat.ne_of_lt hi)]

/-- An object that is met is open. -/
theorem Sound.meet (hsound : Sound h root opened c) (hid : h.Reaches root id)
    (hnew : ¬ Known h c id) : Sound h root (id :: opened) (c.meet id) := by
  obtain ⟨hscalar, hmem⟩ := not_or.mp hnew
  have hext := extends_meet c id
  have htabled : Tabled h root (c.meet id) := by
    refine ⟨fun i hi => ?_, ?_, ?_, ?_, ?_⟩
    · exact (hext.objects.same i (Nat.lt_of_lt_of_le hi hsound.grows.size)).trans (hsound.old i hi)
    · rw [Copying.meet, Array.size_push, hsound.size, List.length_cons, Nat.add_assoc]
    · exact List.forall_mem_cons.mpr ⟨⟨hid, Bool.eq_false_iff.mpr hscalar⟩, hsound.met⟩
    · refine List.nodup_cons.mpr ⟨fun hkey => ?_, hsound.keys⟩
      obtain ⟨p, hp, rfl⟩ := List.mem_map.mp hkey
      exact hmem ⟨p.2, hp⟩
    · rw [Copying.meet, List.map_cons, List.length_cons, List.range'_concat, List.reverse_append,
        hsound.targets, hsound.size]
      simp
  refine ⟨htabled, fun p hp hopen => ?_⟩
  obtain ⟨hne, hopen⟩ := List.ne_and_not_mem_of_not_mem_cons hopen
  rcases List.mem_cons.mp hp with rfl | hp
  · exact absurd rfl hne
  · obtain ⟨hcell, hparts⟩ := hsound.filled p hp hopen
    refine ⟨?_, fun part hpart => hext.known (hparts part hpart)⟩
    rw [hext.objects.same _ (hsound.target hp).2, hcell]
    exact congrArg some (Cell.rename_congr fun part hpart =>
      (hsound.copyOf_eq htabled hext (hparts part hpart)).symm)

theorem extends_fill (htabled : Tabled h root c') (hext : Extends c c')
    (hmem : (id, j) ∈ c'.copies) (hnew : c.objects.size ≤ j) : Extends c (c'.fill id) where
  copies := hext.copies
  objects.size := by
    rw [fill, Array.size_setIfInBounds]
    exact hext.objects.size
  objects.same i hi := by
    have hne : j ≠ i := fun heq => Nat.lt_irrefl _ (Nat.lt_of_lt_of_le hi (heq ▸ hnew))
    rw [fill, htabled.copyOf_of_mem hmem, Array.getElem?_setIfInBounds_ne hne]
    exact hext.objects.same i hi

/-- An object is filled when something stands for all its parts, and is not open any longer. -/
theorem Sound.fill (hsound : Sound h root (id :: opened) c) (hmem : (id, j) ∈ c.copies)
    (hid : id < h.size) (hparts : ∀ part ∈ (h.cell id).parts, Known h c part) :
    Sound h root opened (c.fill id) := by
  obtain ⟨hfirst, hlast⟩ := hsound.target hmem
  have hfill : (c.fill id).objects = c.objects.setIfInBounds j ((h.cell id).rename c.copyOf) := by
    rw [Copying.fill, hsound.copyOf_of_mem hmem, hsound.grows.cell hid]
  refine ⟨⟨fun i hi => ?_, ?_, hsound.met, hsound.keys, hsound.targets⟩, fun p hp hopen => ?_⟩
  · rw [hfill, Array.getElem?_setIfInBounds_ne (Nat.ne_of_gt (Nat.lt_of_lt_of_le hi hfirst))]
    exact hsound.old i hi
  · rw [hfill, Array.size_setIfInBounds]
    exact hsound.size
  · rw [hfill]
    by_cases hsame : p.1 = id
    · have htarget : j = p.2 := by
        rw [← hsound.copyOf_of_mem hmem, ← hsame, hsound.copyOf_of_mem hp]
      rw [← htarget, Array.getElem?_setIfInBounds_self_of_lt hlast, hsame]
      exact ⟨rfl, hparts⟩
    · have hne : j ≠ p.2 := fun heq => hsame (hsound.target_inj hp (heq ▸ hmem))
      rw [Array.getElem?_setIfInBounds_ne hne]
      exact hsound.filled p hp (List.not_mem_cons_of_ne_of_not_mem hsame hopen)

/-- Visits of several objects, if each of them can be visited whatever has been met before. -/
theorem visitAll_spec {visit : Copying → CellId → Option Copying} {n : Nat}
    (hvisit : ∀ {c id}, Sound h root opened c → h.Reaches root id → n ≤ c.copies.length →
      ∃ c', visit c id = some c' ∧ Sound h root opened c' ∧ Extends c c' ∧ Known h c' id)
    {ids : List CellId} (hsound : Sound h root opened c) (hids : ∀ id ∈ ids, h.Reaches root id)
    (hmet : n ≤ c.copies.length) :
    ∃ c', ids.foldlM visit c = some c' ∧ Sound h root opened c' ∧ Extends c c' ∧
      ∀ id ∈ ids, Known h c' id := by
  induction ids generalizing c with
  | nil => exact ⟨c, rfl, hsound, .refl c, fun _ hid => nomatch hid⟩
  | cons id ids ih =>
    obtain ⟨hid, hids⟩ := List.forall_mem_cons.mp hids
    obtain ⟨mid, hmid, hsound, hext, hknown⟩ := hvisit hsound hid hmet
    obtain ⟨last, hlast, hsound, hext', hall⟩ :=
      ih hsound hids (Nat.le_trans hmet hext.copies.length_le)
    refine ⟨last, ?_, hsound, hext.trans hext',
      List.forall_mem_cons.mpr ⟨hext'.known hknown, hall⟩⟩
    rw [List.foldlM_cons, hmid]
    exact hlast

/-- A visit succeeds if it may be nested as deep as there are objects that have not been met. The
induction is on the depth: each visit meets an object before it goes on to the parts. -/
theorem visit_spec (hrange : ∀ i, h.Reaches root i → i < h.size) {depth : Nat}
    (hsound : Sound h root opened c) (hid : h.Reaches root id)
    (hdepth : h.size < depth + c.copies.length) :
    ∃ c', visit depth c id = some c' ∧ Sound h root opened c' ∧ Extends c c' ∧ Known h c' id := by
  induction depth generalizing c id opened with
  | zero =>
    have hlength := hsound.length_le hrange
    omega
  | succ depth ih =>
    by_cases hknown : Known h c id
    · refine ⟨c, ?_, hsound, .refl c, hknown⟩
      rw [visit, if_pos ((hsound.isDone_iff (hrange id hid)).mpr hknown)]
    · have hmeet := hsound.meet hid hknown
      have hmem : (id, c.objects.size) ∈ (c.meet id).copies := List.mem_cons_self
      obtain ⟨filled, hvisits, hfilled, hext, hparts⟩ := visitAll_spec (n := c.copies.length + 1)
        (fun hsound hid hmet => ih hsound hid (by omega)) hmeet
        (fun part hpart => hid.tail hpart) (Nat.le_refl _)
      have hcell : c.objects.cell id = h.cell id := hsound.grows.cell (hrange id hid)
      have hcopy := hext.copies.subset hmem
      refine ⟨filled.fill id, ?_, hfilled.fill hcopy (hrange id hid) hparts,
        extends_fill hfilled.toTabled ((extends_meet c id).trans hext) hcopy (Nat.le_refl _),
        .inr ⟨_, hcopy⟩⟩
      rw [visit, if_neg fun hdone => hknown ((hsound.isDone_iff (hrange id hid)).mp hdone), hcell,
        hvisits]
      rfl

/-- When nothing is open any longer, something stands for all that is reached. -/
theorem Sound.known (hsound : Sound h root [] c) (hroot : Known h c root)
    (hi : h.Reaches root i) : Known h c i := by
  induction hi with
  | refl => exact hroot
  | tail _ hpart ih =>
    rcases ih with hscalar | ⟨j, hj⟩
    · rw [Contains, Cell.parts_of_isScalar hscalar] at hpart
      cases hpart
    · exact (hsound.filled _ hj List.not_mem_nil).2 _ hpart

theorem Sound.isCopy (hsound : Sound h root [] c) (hrange : ∀ i, h.Reaches root i → i < h.size)
    (hroot : Known h c root) : IsCopy c.copyOf h root c.objects := by
  have hknown : ∀ i, h.Reaches root i → Known h c i := fun i hi => hsound.known hroot hi
  refine ⟨fun i hi => ?_, fun i j hi hj heq => ?_⟩
  · rcases hknown i hi with hscalar | ⟨j, hj⟩
    · rw [hsound.copyOf_of_isScalar hscalar, Cell.rename_of_isScalar hscalar,
        hsound.old i (hrange i hi), getElem?_of_lt (hrange i hi)]
    · rw [hsound.copyOf_of_mem hj]
      exact (hsound.filled _ hj List.not_mem_nil).1
  · -- scalars stay below the new objects
    rcases hknown i hi with hscalar | ⟨k, hk⟩ <;> rcases hknown j hj with hscalar' | ⟨k', hk'⟩
    · rwa [hsound.copyOf_of_isScalar hscalar, hsound.copyOf_of_isScalar hscalar'] at heq
    · rw [hsound.copyOf_of_isScalar hscalar, hsound.copyOf_of_mem hk'] at heq
      exact absurd (heq ▸ hrange i hi) (Nat.not_lt.mpr (hsound.target hk').1)
    · rw [hsound.copyOf_of_mem hk, hsound.copyOf_of_isScalar hscalar'] at heq
      exact absurd (heq ▸ hrange j hj) (Nat.not_lt.mpr (hsound.target hk).1)
    · rw [hsound.copyOf_of_mem hk, hsound.copyOf_of_mem hk'] at heq
      exact hsound.target_inj hk (heq ▸ hk')

end Copying

/-- Every object can be copied if all that it reaches is there, also if it holds itself. The copy
stands for it object for object. All but scalars are new in it, and nothing else is new. -/
theorem Objects.copy_spec {h : Objects} {id : CellId} (hrange : ∀ i, h.Reaches id i → i < h.size) :
    ∃ h' ρ, h.copy id = some (h', ρ id) ∧ IsCopy ρ h id h' ∧ Grows h h' ∧
      (∀ i, h.Reaches id i → (h.cell i).isScalar = true ∨ h.size ≤ ρ i) ∧
      ∀ j < h'.size, h.size ≤ j → ∃ i, h.Reaches id i ∧ ρ i = j := by
  have hvisit : ∃ c, Copying.visit (h.size + 1) ⟨h, []⟩ id = some c ∧ Copying.Sound h id [] c ∧
      Copying.Extends ⟨h, []⟩ c ∧ Copying.Known h c id :=
    Copying.visit_spec hrange (Copying.sound_start h id) .refl (Nat.lt_succ_self _)
  obtain ⟨c, hvisit, hsound, -, hroot⟩ := hvisit
  refine ⟨c.objects, c.copyOf, ?_, hsound.isCopy hrange hroot, hsound.grows, fun i hi => ?_,
    fun j hj hnew => ?_⟩
  · rw [copy, hvisit]
    rfl
  · refine (hsound.known hroot hi).imp_right fun ⟨j, hj⟩ => ?_
    rw [hsound.copyOf_of_mem hj]
    exact (hsound.target hj).1
  · have htarget : j ∈ c.copies.map Prod.snd := by
      rw [hsound.targets, List.mem_reverse, List.mem_range'_1]
      exact ⟨hnew, hsound.size ▸ hj⟩
    obtain ⟨p, hp, rfl⟩ := List.mem_map.mp htarget
    exact ⟨p.1, (hsound.met p hp).1, hsound.copyOf_of_mem hp⟩

end BootConfig
