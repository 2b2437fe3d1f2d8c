import BootConfig.Proofs.Data.Copies
import BootConfig.Proofs.Data.Layers
import Mathlib.Data.Fintype.Card
import Mathlib.Data.Set.Finite.Basic

/-!
# Values that objects hold

An object holds a tree if it has its shape, whatever it shares. It holds a graph if objects stand
for those of the graph, one for one, so that the graph counts with what it shares and with its
cycles.

* `Objects.Holds`: the value that an object holds.
* `Objects.Holds.copy`: what stands for an object holds the same value.
* `Objects.Holds.at?`: the value at a path of keys is held by the object there.
* `Objects.Plain.exists_tree`: an object that does not contain itself holds a tree.
-/

namespace BootConfig

open Relation (TransGen)

namespace Value

variable {v w : Value} {key : Scalar} {path : List Scalar}

/-- A scalar, or a graph whose mappings bind each of their keys once, as documents and their parts
are. -/
def IsDocument (v : Value) : Prop :=
  (∃ s, v = .scalar s) ∨ ∃ g, v = .graph g ∧ ∀ i entries, g.cell i = .map entries →
    entries.Pairwise fun e e' => e.1.sameKey e'.1 = false

theorem isDocument_ofCell {g : Graph} (i : CellId) (hkeys : ∀ i entries, g.cell i = .map entries →
    entries.Pairwise fun e e' => e.1.sameKey e'.1 = false) : (ofCell g i).IsDocument := by
  unfold ofCell
  cases g.cell i with
  | scalar s => exact .inl ⟨s, rfl⟩
  | _ => exact .inr ⟨g.focus i, rfl, hkeys⟩

/-- The entries of a graph are those of its root. -/
theorem entries?_graph (g : Graph) : (Value.graph g).entries? =
    (Objects.entries? g.cells g.root).map fun es => es.map fun e => (e.1, Value.ofCell g e.2) := by
  have hcell : Objects.cell g.cells g.root = g.cell g.root := rfl
  simp only [Value.entries?, Value.view, Value.viewGraph, Objects.entries?, hcell]
  cases g.cell g.root <;> rfl

/-- What a document binds to a key is a document. -/
theorem IsDocument.child? (hv : v.IsDocument) (hw : v.child? key = some w) : w.IsDocument := by
  obtain ⟨es, hes, hget⟩ := child?_eq_some hw
  rcases hv with ⟨s, rfl⟩ | ⟨g, rfl, hkeys⟩
  · cases hes
  · rw [entries?_graph] at hes
    obtain ⟨entries, -, rfl⟩ := Option.map_eq_some_iff.mp hes
    obtain ⟨e, he, rfl⟩ := Option.map_eq_some_iff.mp hget
    obtain ⟨o, -, rfl⟩ := List.mem_map.mp (List.mem_of_find?_eq_some he)
    exact isDocument_ofCell o.2 hkeys

/-- What a document holds at a path is a document. -/
theorem IsDocument.below (hv : v.IsDocument) (hw : v.at? path = some w) : w.IsDocument := by
  induction path generalizing v with
  | nil =>
    cases hw
    exact hv
  | cons key path ih =>
    obtain ⟨u, hu, hbelow⟩ := Option.bind_eq_some_iff.mp hw
    exact ih (hv.child? hu) hbelow

end Value

namespace Objects

/-- An object holds a value. -/
inductive Holds (h : Objects) : CellId → Value → Prop
  | scalar {id : CellId} {s : Scalar} (hcell : h[id]? = some (.scalar s)) : Holds h id (.scalar s)
  | set {id : CellId} {members : List Scalar} (hcell : h[id]? = some (.set members)) :
    Holds h id (.set members)
  | list {id : CellId} {items : List CellId} {vs : List Value}
    (hcell : h[id]? = some (.list items)) (hlength : items.length = vs.length)
    (hitems : ∀ i v, (i, v) ∈ items.zip vs → Holds h i v) : Holds h id (.list vs)
  | pairs {id : CellId} {items : List (CellId × CellId)} {vs : List (Value × Value)}
    (hcell : h[id]? = some (.pairs items)) (hlength : items.length = vs.length)
    (hfirst : ∀ p v, (p, v) ∈ items.zip vs → Holds h p.1 v.1)
    (hsecond : ∀ p v, (p, v) ∈ items.zip vs → Holds h p.2 v.2) :
    Holds h id (.list (vs.map fun v => .pair v.1 v.2))
  | map {id : CellId} {entries : List (Scalar × CellId)} {es : Entries}
    (hcell : h[id]? = some (.map entries)) (hlength : entries.length = es.length)
    (hkeys : ∀ o e, (o, e) ∈ entries.zip es → o.1 = e.1)
    (hvalues : ∀ o e, (o, e) ∈ entries.zip es → Holds h o.2 e.2) : Holds h id (.map es)
  | graph {id : CellId} {g : Graph} {ρ : CellId → CellId} (hroot : ρ g.root = id)
    (hcopy : IsCopy ρ g.cells g.root h) : Holds h id (.graph g)

/-- An entry of a mapping holds an entry of a value: the key, and the value that is bound to it. -/
def HoldsEntry (h : Objects) (o : Scalar × CellId) (e : Scalar × Value) : Prop :=
  o.1 = e.1 ∧ h.Holds o.2 e.2

/-- Entries that are related key by key have the same keys. -/
theorem keys_eq_of_forall₂ {α β : Type} {R : Scalar × α → Scalar × β → Prop}
    {os : List (Scalar × α)} {es : List (Scalar × β)}
    (hentries : List.Forall₂ (fun o e => o.1 = e.1 ∧ R o e) os es) :
    os.map Prod.fst = es.map Prod.fst := by
  induction hentries with
  | nil => rfl
  | cons hentry _ ih => rw [List.map_cons, List.map_cons, hentry.1, ih]

theorem exists_mem_zip {α β : Type} {as : List α} {bs : List β} (hlength : as.length = bs.length)
    {a : α} (ha : a ∈ as) : ∃ b, (a, b) ∈ as.zip bs := by
  rw [← List.map_fst_zip (Nat.le_of_eq hlength)] at ha
  obtain ⟨p, hp, rfl⟩ := List.mem_map.mp ha
  exact ⟨p.2, hp⟩

theorem exists_of_mem_zip_map {α β γ : Type} {f : α → β} {as : List α} {cs : List γ} {b : β} {c : γ}
    (hmem : (b, c) ∈ (as.map f).zip cs) : ∃ a, (a, c) ∈ as.zip cs ∧ f a = b := by
  rw [List.zip_map_left] at hmem
  obtain ⟨p, hp, heq⟩ := List.mem_map.mp hmem
  cases heq
  exact ⟨p.1, hp, rfl⟩

variable {h h' : Objects} {id i : CellId} {v : Value} {es : Entries} {key : Scalar}
  {path : List Scalar}

theorem entries?_eq_some {entries : List (Scalar × CellId)} :
    h.entries? id = some entries ↔ h.cell id = .map entries := by
  unfold Objects.entries?
  cases h.cell id <;> simp

theorem contains_of_mem {entries : List (Scalar × CellId)} {e : Scalar × CellId}
    (hcell : h.cell id = .map entries) (he : e ∈ entries) : h.Contains id e.2 := by
  rw [Contains, hcell]
  exact List.mem_map_of_mem he

/-- The object at a path is reached. -/
theorem reaches_of_at? (hi : h.at? id path = some i) : h.Reaches id i := by
  induction path generalizing id with
  | nil =>
    cases hi
    exact .refl
  | cons key path ih =>
    obtain ⟨part, hpart, hi⟩ := Option.bind_eq_some_iff.mp hi
    obtain ⟨entries, hentries, hget⟩ := Option.bind_eq_some_iff.mp hpart
    obtain ⟨e, he, rfl⟩ := Option.map_eq_some_iff.mp hget
    exact .head (contains_of_mem (entries?_eq_some.mp hentries) (List.mem_of_find?_eq_some he)) (ih hi)

namespace Holds

/-- What an object reaches is there. -/
theorem lt_size (hholds : h.Holds id v) (hi : h.Reaches id i) : i < h.size := by
  -- the object itself is there, and so is what its parts reach
  have hhead : ∀ {id i c}, h[id]? = some c → h.Reaches id i →
      (∀ part ∈ c.parts, h.Reaches part i → i < h.size) → i < h.size := by
    intro id i c hcell hi hparts
    rcases hi.cases_head with rfl | ⟨part, hpart, hi⟩
    · exact lt_size_of_getElem? hcell
    · rw [Contains, cell_of_getElem? hcell] at hpart
      exact hparts part hpart hi
  induction hholds generalizing i with
  | scalar hcell => exact hhead hcell hi fun part hpart => absurd hpart List.not_mem_nil
  | set hcell => exact hhead hcell hi fun part hpart => absurd hpart List.not_mem_nil
  | list hcell hlength hitems ih =>
    refine hhead hcell hi fun part hpart hi => ?_
    obtain ⟨v, hv⟩ := exists_mem_zip hlength hpart
    exact ih part v hv hi
  | pairs hcell hlength hfirst hsecond ihfirst ihsecond =>
    refine hhead hcell hi fun part hpart hi => ?_
    obtain ⟨p, hp, hpart⟩ := List.mem_flatMap.mp hpart
    obtain ⟨v, hv⟩ := exists_mem_zip hlength hp
    rcases List.mem_cons.mp hpart with rfl | hpart
    · exact ihfirst p v hv hi
    · rw [List.mem_singleton.mp hpart] at hi
      exact ihsecond p v hv hi
  | map hcell hlength hkeys hvalues ih =>
    refine hhead hcell hi fun part hpart hi => ?_
    obtain ⟨o, ho, rfl⟩ := List.mem_map.mp hpart
    obtain ⟨e, he⟩ := exists_mem_zip hlength ho
    exact ih o e he hi
  | graph hroot hcopy =>
    obtain ⟨j, hj, rfl⟩ := hcopy.exists_of_reaches (hroot ▸ hi)
    exact lt_size_of_getElem? (hcopy.cell j hj)

/-- What stands for an object holds the same value. -/
theorem copy {ρ : CellId → CellId} (hholds : h.Holds id v) (hcopy : IsCopy ρ h id h') :
    h'.Holds (ρ id) v := by
  have hcell : ∀ {id c}, h[id]? = some c → IsCopy ρ h id h' → h'[ρ id]? = some (c.rename ρ) := by
    intro id c hc hcopy
    rw [hcopy.cell id .refl, cell_of_getElem? hc]
  have hpart : ∀ {id c part}, h[id]? = some c → part ∈ c.parts → h.Reaches id part := by
    intro id c part hc hpart
    refine .single ?_
    rwa [Contains, cell_of_getElem? hc]
  induction hholds with
  | scalar hc => exact .scalar (hcell hc hcopy)
  | set hc => exact .set (hcell hc hcopy)
  | list hc hlength hitems ih =>
    refine .list (hcell hc hcopy) (by rwa [List.length_map]) fun i v hmem => ?_
    obtain ⟨item, hitem, rfl⟩ := exists_of_mem_zip_map hmem
    exact ih item v hitem (hcopy.part (hpart hc (List.of_mem_zip hitem).1))
  | pairs hc hlength hfirst hsecond ihfirst ihsecond =>
    refine .pairs (hcell hc hcopy) (by rwa [List.length_map]) (fun p v hmem => ?_)
      fun p v hmem => ?_
    · obtain ⟨p, hp, rfl⟩ := exists_of_mem_zip_map hmem
      refine ihfirst p v hp (hcopy.part (hpart hc ?_))
      exact List.mem_flatMap.mpr ⟨p, (List.of_mem_zip hp).1, by simp⟩
    · obtain ⟨p, hp, rfl⟩ := exists_of_mem_zip_map hmem
      refine ihsecond p v hp (hcopy.part (hpart hc ?_))
      exact List.mem_flatMap.mpr ⟨p, (List.of_mem_zip hp).1, by simp⟩
  | map hc hlength hkeys hvalues ih =>
    refine .map (hcell hc hcopy) (by rwa [List.length_map]) (fun o e hmem => ?_)
      fun o e hmem => ?_
    · obtain ⟨o, ho, rfl⟩ := exists_of_mem_zip_map hmem
      exact hkeys o e ho
    · obtain ⟨o, ho, rfl⟩ := exists_of_mem_zip_map hmem
      exact ih o e ho (hcopy.part (hpart hc (List.mem_map_of_mem (List.of_mem_zip ho).1)))
  | graph hroot hcopy' =>
    subst hroot
    exact .graph rfl (hcopy'.trans hcopy)

/-- An object goes on to hold what it holds when others are added. -/
theorem grow (hholds : h.Holds id v) (hgrows : Grows h h') : h'.Holds id v :=
  hholds.copy (IsCopy.of_same fun i hi =>
    (hgrows.same i (hholds.lt_size hi)).trans (getElem?_of_lt (hholds.lt_size hi)))

/-! ### Mappings -/

theorem map_iff : h.Holds id (.map es) ↔
    ∃ entries, h[id]? = some (.map entries) ∧ List.Forall₂ h.HoldsEntry entries es := by
  simp only [List.forall₂_iff_zip]
  constructor
  · rintro (_ | _ | _ | _ | ⟨hcell, hlength, hkeys, hvalues⟩ | _)
    exact ⟨_, hcell, hlength, fun hmem => ⟨hkeys _ _ hmem, hvalues _ _ hmem⟩⟩
  · rintro ⟨entries, hcell, hlength, hentries⟩
    exact .map hcell hlength (fun o e hmem => (hentries hmem).1) fun o e hmem => (hentries hmem).2

/-- A part of a graph is held by what stands for it. -/
theorem ofCell {g : Graph} {ρ : CellId → CellId} (hcopy : IsCopy ρ g.cells g.root h)
    (hi : Objects.Reaches g.cells g.root i) : h.Holds (ρ i) (Value.ofCell g i) := by
  have hcell := hcopy.cell i hi
  have hgraph : h.Holds (ρ i) (.graph (g.focus i)) := .graph rfl (hcopy.part hi)
  unfold Value.ofCell
  cases hc : g.cell i with
  | scalar s =>
    have hsame : Objects.cell g.cells i = .scalar s := hc
    rw [hsame] at hcell
    exact .scalar hcell
  | _ => exact hgraph

/-- Whoever holds a value that is a mapping holds its entries. -/
theorem entries (hholds : h.Holds id v) (hes : v.entries? = some es) : h.Holds id (.map es) := by
  cases hholds with
  | map hcell hlength hkeys hvalues =>
    cases hes
    exact .map hcell hlength hkeys hvalues
  | @graph _ g ρ hroot hcopy =>
    subst hroot
    rw [Value.entries?_graph] at hes
    obtain ⟨entries, hentries, rfl⟩ := Option.map_eq_some_iff.mp hes
    have hroot := entries?_eq_some.mp hentries
    refine map_iff.mpr ⟨_, hroot ▸ hcopy.cell g.root .refl, ?_⟩
    rw [List.forall₂_map_left_iff, List.forall₂_map_right_iff, List.forall₂_same]
    exact fun e he => ⟨rfl, ofCell hcopy (.single (contains_of_mem hroot he))⟩
  | _ => cases hes

/-- An object is a mapping if it holds one. -/
theorem entries?_isSome (hholds : h.Holds id v) :
    (h.entries? id).isSome = v.entries?.isSome := by
  cases hholds with
  | @graph _ g ρ hroot hcopy =>
    subst hroot
    rw [Value.entries?_graph, Option.isSome_map, Objects.entries?, hcopy.cell_eq .refl,
      Objects.entries?]
    cases Objects.cell g.cells g.root <;> rfl
  | scalar hcell | set hcell | list hcell | pairs hcell | map hcell =>
    rw [Objects.entries?, cell_of_getElem? hcell]
    rfl

/-- What a mapping binds to a key is held by what the object binds to it. -/
theorem child? (hholds : h.Holds id v) (key : Scalar) :
    Option.Rel h.Holds (h.child? id key) (v.child? key) := by
  unfold Objects.child? Value.child?
  cases hes : v.entries? with
  | none =>
    have hnone := hholds.entries?_isSome
    rw [hes, Option.isSome_none, Option.isSome_eq_false_iff, Option.isNone_iff_eq_none] at hnone
    rw [hnone]
    exact .none
  | some es =>
    obtain ⟨entries, hcell, hentries⟩ := map_iff.mp (hholds.entries hes)
    rw [entries?_eq_some.mpr (cell_of_getElem? hcell), Option.bind_some, Option.bind_some,
      Entries.get?]
    clear hes hcell
    induction hentries with
    | nil => exact .none
    | @cons o e _ _ hentry _ ih =>
      rw [List.find?_cons, List.find?_cons, hentry.1]
      cases e.1.sameKey key with
      | true => exact .some hentry.2
      | false => exact ih

/-- The value at a path of keys is held by the object there. -/
theorem at? (hholds : h.Holds id v) (path : List Scalar) :
    Option.Rel h.Holds (h.at? id path) (v.at? path) := by
  induction path generalizing id v with
  | nil => exact .some hholds
  | cons key path ih =>
    have hrel := hholds.child? key
    rw [Objects.at?, Value.at?]
    generalize h.child? id key = part at hrel ⊢
    generalize v.child? key = w at hrel ⊢
    cases hrel with
    | none => exact .none
    | some hpart => exact ih hpart

/-- The object at a path is a mapping if the value there is. -/
theorem mappingAt?_isSome (hholds : h.Holds id v) (path : List Scalar) :
    ((h.at? id path).bind h.entries?).isSome = (v.mappingAt? path).isSome := by
  have hrel := hholds.at? path
  rw [Value.mappingAt?]
  generalize h.at? id path = o at hrel ⊢
  generalize v.at? path = w at hrel ⊢
  cases hrel with
  | none => rfl
  | some hpart => exact hpart.entries?_isSome

/-- Where all mappings that are reached bind each of their keys once, the value does so as well. -/
theorem keysDistinct (hholds : h.Holds id v) (hkeys : ∀ i entries, h.Reaches id i →
    h.cell i = .map entries → entries.Pairwise fun e e' => e.1.sameKey e'.1 = false) :
    v.KeysDistinct := by
  intro path es hes
  obtain ⟨w, hw, hwes⟩ := Option.bind_eq_some_iff.mp hes
  have hrel := hholds.at? path
  rw [hw] at hrel
  generalize hi : h.at? id path = o at hrel
  cases hrel with
  | @some i _ hpart =>
    obtain ⟨entries, hcell, hentries⟩ := map_iff.mp (hpart.entries hwes)
    have hsame : entries.map Prod.fst = es.map Prod.fst := keys_eq_of_forall₂ hentries
    have hdistinct := hkeys i entries (reaches_of_at? hi) (cell_of_getElem? hcell)
    rwa [← Scalar.pairwise_keys_iff, hsame, Scalar.pairwise_keys_iff] at hdistinct

/-! ### Trees -/

/-- A part of an object that holds a tree holds a smaller tree. -/
theorem part (hholds : h.Holds id v) (htree : v.IsTree) (hpart : h.Contains id i) :
    ∃ w, h.Holds i w ∧ w.IsTree ∧ sizeOf w < sizeOf v := by
  have hparts : ∀ {c}, h[id]? = some c → i ∈ c.parts := by
    intro c hcell
    rwa [Contains, cell_of_getElem? hcell] at hpart
  cases hholds with
  | scalar hcell => exact absurd (hparts hcell) List.not_mem_nil
  | set hcell => exact absurd (hparts hcell) List.not_mem_nil
  | list hcell hlength hitems =>
    obtain ⟨w, hw⟩ := exists_mem_zip hlength (hparts hcell)
    have hmem := (List.of_mem_zip hw).2
    have hlt := List.sizeOf_lt_of_mem hmem
    refine ⟨w, hitems i w hw, Value.isTree_list_iff.mp htree w hmem, ?_⟩
    rw [Value.list.sizeOf_spec]
    omega
  | @pairs _ items vs hcell hlength hfirst hsecond =>
    obtain ⟨p, hp, hi⟩ := List.mem_flatMap.mp (hparts hcell)
    obtain ⟨w, hw⟩ := exists_mem_zip hlength hp
    have hmem : Value.pair w.1 w.2 ∈ vs.map fun v => .pair v.1 v.2 :=
      List.mem_map_of_mem (List.of_mem_zip hw).2
    have hlt := List.sizeOf_lt_of_mem hmem
    obtain ⟨hone, htwo⟩ := Value.isTree_pair_iff.mp (Value.isTree_list_iff.mp htree _ hmem)
    rw [Value.pair.sizeOf_spec] at hlt
    rw [Value.list.sizeOf_spec]
    rcases List.mem_cons.mp hi with rfl | hi
    · exact ⟨w.1, hfirst p w hw, hone, by omega⟩
    · rw [List.mem_singleton.mp hi]
      exact ⟨w.2, hsecond p w hw, htwo, by omega⟩
  | map hcell hlength hkeys hvalues =>
    obtain ⟨o, ho, rfl⟩ := List.mem_map.mp (hparts hcell)
    obtain ⟨e, he⟩ := exists_mem_zip hlength ho
    have hmem := (List.of_mem_zip he).2
    have hlt := List.sizeOf_lt_of_mem hmem
    refine ⟨e.2, hvalues o e he, Value.isTree_map_iff.mp htree e hmem, ?_⟩
    obtain ⟨key, w⟩ := e
    rw [Prod.mk.sizeOf_spec] at hlt
    rw [Value.map.sizeOf_spec]
    show sizeOf w < _
    omega
  | graph => exact absurd htree Value.treeFrom_ne_graph

/-- An object that holds a tree does not contain itself, for what it contains holds smaller ones. -/
theorem acyclic (hholds : h.Holds id v) (htree : v.IsTree) : ¬ TransGen h.Contains id id := by
  have hbelow : ∀ {id i v}, TransGen h.Contains id i → h.Holds id v → v.IsTree →
      ∃ w, h.Holds i w ∧ w.IsTree ∧ sizeOf w < sizeOf v := by
    intro id i v hbelow hholds htree
    induction hbelow with
    | single hpart => exact hholds.part htree hpart
    | tail _ hpart ih =>
      obtain ⟨w, hw, hwtree, hlt⟩ := ih
      obtain ⟨u, hu, hutree, hlt'⟩ := hw.part hwtree hpart
      exact ⟨u, hu, hutree, Nat.lt_trans hlt' hlt⟩
  intro hcycle
  induction hsize : sizeOf v using Nat.strong_induction_on generalizing v with
  | _ n ih =>
    obtain ⟨w, hw, hwtree, hlt⟩ := hbelow hcycle hholds htree
    exact ih _ (hsize ▸ hlt) hw hwtree rfl

/-! ### Documents -/

theorem keysDistinct_of_isDocument (hholds : h.Holds id v) (hdocument : v.IsDocument) :
    v.KeysDistinct := by
  rcases hdocument with ⟨s, rfl⟩ | ⟨g, rfl, hkeys⟩
  · exact Value.keysDistinct_of_not_mapping rfl
  · refine hholds.keysDistinct fun j entries hj hentries => ?_
    cases hholds with | graph hroot hcopy =>
    subst hroot
    obtain ⟨i, hi, rfl⟩ := hcopy.exists_of_reaches hj
    rw [hcopy.cell_eq hi] at hentries
    cases hc : Objects.cell g.cells i with
    | map entries' =>
      rw [hc] at hentries
      cases hentries
      exact List.pairwise_map.mpr (hkeys i entries' hc)
    | _ =>
      rw [hc] at hentries
      cases hentries

/-- The objects of a graph hold it, whatever other objects follow. -/
theorem of_append {g : Graph} {others : Objects} (hroot : g.root < g.cells.size)
    (hparts : ∀ i, i < g.cells.size → ∀ part ∈ (g.cell i).parts, part < g.cells.size) :
    Objects.Holds (g.cells ++ others) g.root (.graph g) := by
  have hrange : ∀ i, Objects.Reaches g.cells g.root i → i < g.cells.size := by
    intro i hi
    induction hi with
    | refl => exact hroot
    | tail _ hpart ih => exact hparts _ ih _ hpart
  refine .graph rfl (IsCopy.of_same fun i hi => ?_)
  rw [Array.getElem?_append_left (hrange i hi), getElem?_of_lt (hrange i hi)]

/-- Two objects that hold the same part of a document are copies of one another. -/
theorem isCopy {r : CellId} {w : Value} (hholds : h.Holds id w) (hholds' : h'.Holds r w)
    (hdocument : w.IsDocument) : ∃ ρ, ρ id = r ∧ IsCopy ρ h id h' := by
  rcases hdocument with ⟨s, rfl⟩ | ⟨g, rfl, -⟩
  · cases hholds with | scalar hcell =>
    cases hholds' with | scalar hcell' =>
    have hscalar := cell_of_getElem? hcell
    have honly : ∀ i, h.Reaches id i → i = id := fun i hi => hi.of_isScalar (by rw [hscalar]; rfl)
    refine ⟨fun _ => r, rfl, fun i hi => ?_, fun i j hi hj _ => ?_⟩
    · rw [honly i hi, hscalar]
      exact hcell'
    · rw [honly i hi, honly j hj]
  · cases hholds with | graph hroot hcopy =>
    cases hholds' with | graph hroot' hcopy' =>
    subst hroot hroot'
    exact hcopy.between hcopy'

end Holds

/-! ## Objects that hold trees -/

/-- An object as it is made for settings: all that it reaches is there, nothing contains itself, and
a mapping binds each of its keys once. What it reaches may be shared. -/
structure Plain (h : Objects) (id : CellId) : Prop where
  inRange : ∀ i, h.Reaches id i → i < h.size
  acyclic : ∀ i, h.Reaches id i → ¬ TransGen h.Contains i i
  keys : ∀ i entries, h.Reaches id i → h.cell i = .map entries →
    entries.Pairwise fun e e' => e.1.sameKey e'.1 = false

/-- Objects whose numbers ascend from the whole to the parts are plain. -/
theorem Plain.of_ascending (hid : id < h.size)
    (hparts : ∀ i, i < h.size → id ≤ i → ∀ part ∈ (h.cell i).parts, i < part ∧ part < h.size)
    (hkeys : ∀ i, i < h.size → id ≤ i → ∀ entries ∈ h.entries? i,
      entries.Pairwise fun e e' => e.1.sameKey e'.1 = false) : h.Plain id := by
  have hreach : ∀ i, h.Reaches id i → id ≤ i ∧ i < h.size := by
    intro i hi
    induction hi with
    | refl => exact ⟨Nat.le_refl _, hid⟩
    | tail _ hpart ih =>
      obtain ⟨hlt, hsize⟩ := hparts _ ih.2 ih.1 _ hpart
      exact ⟨Nat.le_of_lt (Nat.lt_of_le_of_lt ih.1 hlt), hsize⟩
  refine ⟨fun i hi => (hreach i hi).2, fun i hi hcycle => ?_, fun i entries hi hentries =>
    hkeys i (hreach i hi).2 (hreach i hi).1 entries (entries?_eq_some.mpr hentries)⟩
  have hascends : ∀ j, TransGen h.Contains i j → i < j := by
    intro j hj
    induction hj with
    | single hpart => exact (hparts _ (hreach i hi).2 (hreach i hi).1 _ hpart).1
    | @tail j _ hj hpart ih =>
      obtain ⟨hle, hsize⟩ := hreach j (hi.trans hj.to_reflTransGen)
      exact Nat.lt_trans ih (hparts _ hsize hle _ hpart).1
  exact Nat.lt_irrefl _ (hascends i hcycle)

/-- Induction on what a plain object reaches, from the parts to the whole. There are finitely many
objects, so that containment is well founded where nothing contains itself. -/
theorem Plain.induction {P : CellId → Prop} (hplain : h.Plain id)
    (hstep : ∀ i, h.Reaches id i → (∀ part, h.Contains i part → P part) → P i) : P id := by
  let Below (a b : { i // h.Reaches id i }) : Prop := TransGen h.Contains b.1 a.1
  have hfinite : Finite { i // h.Reaches id i } :=
    Set.Finite.subset (Set.finite_lt_nat h.size) hplain.inRange
  have htrans : IsTrans _ Below := ⟨fun a b c hab hbc => TransGen.trans hbc hab⟩
  have hirrefl : Std.Irrefl Below := ⟨fun a => hplain.acyclic a.1 a.2⟩
  have hwf : WellFounded Below := Finite.wellFounded_of_trans_of_irrefl Below
  have hall : ∀ a : { i // h.Reaches id i }, P a.1 := fun a =>
    hwf.induction a fun a ih =>
      hstep a.1 a.2 fun part hpart => ih ⟨part, a.2.tail hpart⟩ (.single hpart)
  exact hall ⟨id, .refl⟩

/-- A plain object holds a tree. -/
theorem Plain.exists_tree (hplain : h.Plain id) : ∃ v : Value, v.IsTree ∧ h.Holds id v := by
  refine hplain.induction (P := fun i => ∃ v : Value, v.IsTree ∧ h.Holds i v) fun i hi ih => ?_
  have hcell := getElem?_of_lt (hplain.inRange i hi)
  unfold Contains at ih
  choose! value htree hholds using ih
  cases hc : h.cell i with
  | scalar s => exact ⟨.scalar s, rfl, .scalar (hc ▸ hcell)⟩
  | set members => exact ⟨.set members, rfl, .set (hc ▸ hcell)⟩
  | list items =>
    rw [hc] at hcell htree hholds
    refine ⟨.list (items.map value), ?_, .list hcell (List.length_map _).symm fun j v hmem => ?_⟩
    · exact Value.isTree_list_iff.mpr (List.forall_mem_map.mpr htree)
    · rw [← List.map_prod_left_eq_zip] at hmem
      obtain ⟨item, hitem, heq⟩ := List.mem_map.mp hmem
      cases heq
      exact hholds _ hitem
  | pairs items =>
    rw [hc] at hcell htree hholds
    have hparts : ∀ p ∈ items, p.1 ∈ (Cell.pairs items).parts ∧ p.2 ∈ (Cell.pairs items).parts :=
      fun p hp => ⟨List.mem_flatMap.mpr ⟨p, hp, by simp⟩, List.mem_flatMap.mpr ⟨p, hp, by simp⟩⟩
    have hzip : ∀ {p v}, (p, v) ∈ items.zip (items.map fun p => (value p.1, value p.2)) →
        p ∈ items ∧ v = (value p.1, value p.2) := by
      intro p v hmem
      rw [← List.map_prod_left_eq_zip] at hmem
      obtain ⟨item, hitem, heq⟩ := List.mem_map.mp hmem
      cases heq
      exact ⟨hitem, rfl⟩
    refine ⟨.list ((items.map fun p => (value p.1, value p.2)).map fun v => .pair v.1 v.2), ?_,
      .pairs hcell (List.length_map _).symm (fun p v hmem => ?_) fun p v hmem => ?_⟩
    · rw [Value.isTree_list_iff, List.forall_mem_map, List.forall_mem_map]
      exact fun p hp => Value.isTree_pair_iff.mpr
        ⟨htree p.1 (hparts p hp).1, htree p.2 (hparts p hp).2⟩
    · obtain ⟨hp, rfl⟩ := hzip hmem
      exact hholds p.1 (hparts p hp).1
    · obtain ⟨hp, rfl⟩ := hzip hmem
      exact hholds p.2 (hparts p hp).2
  | map entries =>
    rw [hc] at hcell htree hholds
    refine ⟨.map (entries.map fun e => (e.1, value e.2)), ?_,
      Holds.map_iff.mpr ⟨entries, hcell, ?_⟩⟩
    · rw [Value.isTree_map_iff, List.forall_mem_map]
      exact fun e he => htree e.2 (List.mem_map_of_mem he)
    · rw [List.forall₂_map_right_iff, List.forall₂_same]
      exact fun e he => ⟨rfl, hholds e.2 (List.mem_map_of_mem he)⟩

end Objects

end BootConfig
