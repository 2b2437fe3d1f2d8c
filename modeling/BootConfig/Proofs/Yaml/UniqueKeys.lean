import BootConfig.Proofs.Yaml.Construction
import BootConfig.Proofs.Yaml.Flattening

/-!
# Unique keys

Documents whose keys have to be unique, and the same documents read without this demand. The check
makes the objects of a mapping's keys before merge keys are replaced. This is seen in the value of a
document that is accepted, and only then, where a replacement changes what a key stands for.

* `Document.KeysStay`: no replacement changes what a key stands for.
* `Document.ofNodes_overriding_iff`: the value of an accepted document is the same without the check
  if and only if its keys stay; they do if no key is a mapping.
-/

namespace BootConfig.Yaml

open Merge (nodeAt entriesOf isMergeKey)

namespace Builder

variable {b b' ahead ahead' checked : Builder} {id i : NodeId} {pending : NodeId → Prop}
  {entries : List (NodeId × NodeId)} {bound bound' : List (Scalar × CellId)}

/-! ## Objects made ahead of time -/

/-- Two builders agree, but that some pending scalars have their objects only in the one ahead. -/
structure Ahead (pending : NodeId → Prop) (b ahead : Builder) : Prop where
  nodes : ahead.nodes = b.nodes
  waiting : ahead.waiting = b.waiting
  size : ahead.objects.size = b.objects.size
  object : ∀ i, ahead.object? i = b.object? i ∨
    pending i ∧ b.object? i = none ∧
      ∃ s, ahead.object? i = some (.scalar s) ∧ b.newCell i = .ok (.scalar s)

namespace Ahead

theorem mono {pending' : NodeId → Prop} (h : Ahead pending b ahead)
    (hpending : ∀ i, pending i → pending' i) : Ahead pending' b ahead where
  nodes := h.nodes
  waiting := h.waiting
  size := h.size
  object i := (h.object i).imp_right fun ⟨hi, hobject⟩ => ⟨hpending i hi, hobject⟩

/-- Builders are the same when nothing is pending. -/
theorem eq (h : Ahead pending b ahead) (hpending : ∀ i, ¬ pending i) : ahead = b := by
  obtain ⟨nodes, objects, waiting⟩ := b
  obtain ⟨nodes', objects', waiting'⟩ := ahead
  obtain ⟨rfl, rfl, hsize, hobject⟩ := h
  have hobjects : objects' = objects := by
    refine Array.ext hsize fun i hi hi' => ?_
    have hi := (hobject i).resolve_right fun hi => hpending i hi.1
    unfold object? at hi
    dsimp only at hi
    rwa [Array.getD_eq_getD_getElem?, Array.getD_eq_getD_getElem?, Array.getElem?_eq_getElem,
      Array.getElem?_eq_getElem] at hi
  rw [hobjects]

/-- The same cell in place of nothing in both builders. -/
theorem place (h : Ahead pending b ahead) (hi : ahead.object? i = b.object? i) (c : Cell) :
    Ahead (fun j => pending j ∧ j ≠ i) (b.place i c) (ahead.place i c) := by
  refine ⟨?_, ?_, ?_, fun j => ?_⟩
  · rw [nodes_place, nodes_place, h.nodes]
  · cases c <;> simp [Builder.place, await, setObject, h.waiting]
  · rw [size_place, size_place, h.size]
  · rw [object?_place, object?_place, h.size, newCell_congr (nodes_place b i c)]
    by_cases hj : j = i
    · left
      rw [hj, hi]
    · rw [if_neg fun hij => hj hij.1.symm, if_neg fun hij => hj hij.1.symm]
      exact (h.object j).imp_right fun hbehind => ⟨⟨hbehind.1, hj⟩, hbehind.2⟩

/-- A cell in place of nothing in the builder behind, which the other one has already. -/
theorem catchUp {s : Scalar} (h : Ahead pending b ahead) (hi : ahead.object? i = some (.scalar s)) :
    Ahead (fun j => pending j ∧ j ≠ i) (b.place i (.scalar s)) ahead := by
  have hsize : i < b.objects.size := h.size ▸ lt_size_of_object hi
  refine ⟨h.nodes, h.waiting, ?_, fun j => ?_⟩
  · rw [size_place, h.size]
  · rw [object?_place, newCell_congr (nodes_place b i _)]
    by_cases hj : j = i
    · left
      rw [hj, hi, if_pos ⟨rfl, hsize⟩]
    · rw [if_neg fun hij => hj hij.1.symm]
      exact (h.object j).imp_right fun ⟨hpending, hobject⟩ => ⟨⟨hpending, hj⟩, hobject⟩

/-- An object that the builder behind has is in both, and pending no longer. -/
theorem made {c : Cell} (h : Ahead pending b ahead) (hi : b.object? i = some c) :
    ahead.object? i = some c ∧ Ahead (fun j => pending j ∧ j ≠ i) b ahead := by
  have hne : ∀ j, b.object? j = none → j ≠ i := by
    rintro j hnone rfl
    rw [hi] at hnone
    cases hnone
  refine ⟨?_, h.nodes, h.waiting, h.size, fun j => ?_⟩
  · exact ((h.object i).resolve_right fun hpending => hne i hpending.2.1 rfl).trans hi
  · exact (h.object j).imp_right fun ⟨hpending, hnone, hobject⟩ =>
      ⟨⟨hpending, hne j hnone⟩, hnone, hobject⟩

/-- A node's object is made in both builders, whether or not it was made ahead of time. -/
theorem construct (h : Ahead pending b ahead) (hstep : ahead.construct i = .ok ahead') :
    ∃ b', b.construct i = .ok b' ∧ Ahead (fun j => pending j ∧ j ≠ i) b' ahead' := by
  cases hb : b.object? i with
  | some c =>
    obtain ⟨hahead, hrest⟩ := h.made hb
    refine ⟨b, construct_eq_ok.mpr (.inl ⟨by rw [hb]; rfl, rfl⟩), ?_⟩
    rcases construct_eq_ok.mp hstep with ⟨-, rfl⟩ | ⟨hnone, -⟩
    · exact hrest
    · rw [hahead] at hnone
      cases hnone
  | none =>
    rcases construct_eq_ok.mp hstep with ⟨hsome, rfl⟩ | ⟨hnone, c, hc, rfl⟩
    · -- the object was made ahead of time
      rcases h.object i with hi | ⟨-, -, s, hs, hcell⟩
      · rw [hi, hb] at hsome
        cases hsome
      · exact ⟨_, construct_eq_ok.mpr (.inr ⟨hb, _, hcell, rfl⟩), h.catchUp hs⟩
    · rw [newCell_congr h.nodes] at hc
      exact ⟨_, construct_eq_ok.mpr (.inr ⟨hb, c, hc, rfl⟩), h.place (hnone.trans hb.symm) c⟩

/-- A node's object that is made in the builder behind is made in the one ahead too. -/
theorem construct_ahead (h : Ahead pending b ahead) (hstep : b.construct i = .ok b') :
    ∃ ahead', ahead.construct i = .ok ahead' ∧
      Ahead (fun j => pending j ∧ j ≠ i) b' ahead' := by
  rcases construct_eq_ok.mp hstep with ⟨hsome, rfl⟩ | ⟨hnone, c, hc, rfl⟩
  · obtain ⟨c, hb⟩ := Option.isSome_iff_exists.mp hsome
    obtain ⟨hahead, hrest⟩ := h.made hb
    exact ⟨ahead, construct_eq_ok.mpr (.inl ⟨by rw [hahead]; rfl, rfl⟩), hrest⟩
  · rcases h.object i with hi | ⟨-, -, s, hs, hcell⟩
    · refine ⟨_, construct_eq_ok.mpr (.inr ⟨hi.trans hnone, c, ?_, rfl⟩), h.place hi c⟩
      rwa [newCell_congr h.nodes]
    · -- the object was made ahead of time
      rw [hc] at hcell
      cases hcell
      exact ⟨ahead, construct_eq_ok.mpr (.inl ⟨by rw [hs]; rfl, rfl⟩), h.catchUp hs⟩

theorem key?_eq (h : Ahead pending b ahead) (hi : ¬ pending i) : ahead.key? i = b.key? i := by
  unfold key?
  rw [(h.object i).resolve_right fun hpending => hi hpending.1]

/-- Entries are bound in both builders, and none of their keys is pending any longer. -/
theorem bindAll (h : Ahead pending b ahead)
    (hstep : bindAll id ahead bound entries = .ok (ahead', bound')) :
    ∃ b', bindAll id b bound entries = .ok (b', bound') ∧
      Ahead (fun j => pending j ∧ ∀ e ∈ entries, j ≠ e.1) b' ahead' := by
  induction entries generalizing b ahead bound pending with
  | nil =>
    cases hstep
    exact ⟨b, rfl, h.mono fun j hj => ⟨hj, by simp⟩⟩
  | cons e rest ih =>
    obtain ⟨keyed, valued, s, hkeyed, hs, hvalued, hrest⟩ := bindAll_cons.mp hstep
    obtain ⟨bkeyed, hbkeyed, hkey⟩ := h.construct hkeyed
    obtain ⟨bvalued, hbvalued, hvalue⟩ := hkey.construct hvalued
    obtain ⟨b', hb', hahead'⟩ := ih hvalue hrest
    -- the key has just been made in both builders: it is looked at only now
    rw [hkey.key?_eq fun hpending => hpending.2 rfl] at hs
    refine ⟨b', bindAll_cons.mpr ⟨bkeyed, bvalued, s, hbkeyed, hs, hbvalued, hb'⟩,
      hahead'.mono ?_⟩
    rintro j ⟨⟨⟨hj, hjkey⟩, -⟩, hjrest⟩
    refine ⟨hj, ?_⟩
    simp only [List.forall_mem_cons]
    exact ⟨hjkey, hjrest⟩

/-- Entries that are bound in the builder behind are bound in the one ahead too. -/
theorem bindAll_ahead (h : Ahead pending b ahead)
    (hstep : Builder.bindAll id b bound entries = .ok (b', bound')) :
    ∃ ahead', Builder.bindAll id ahead bound entries = .ok (ahead', bound') ∧
      Ahead (fun j => pending j ∧ ∀ e ∈ entries, j ≠ e.1) b' ahead' := by
  induction entries generalizing b ahead bound pending with
  | nil =>
    cases hstep
    exact ⟨ahead, rfl, h.mono fun j hj => ⟨hj, by simp⟩⟩
  | cons e rest ih =>
    obtain ⟨keyed, valued, s, hkeyed, hs, hvalued, hrest⟩ := bindAll_cons.mp hstep
    obtain ⟨akeyed, hakeyed, hkey⟩ := h.construct_ahead hkeyed
    obtain ⟨avalued, havalued, hvalue⟩ := hkey.construct_ahead hvalued
    obtain ⟨ahead', hahead', hend⟩ := ih hvalue hrest
    rw [← hkey.key?_eq fun hpending => hpending.2 rfl] at hs
    refine ⟨ahead', bindAll_cons.mpr ⟨akeyed, avalued, s, hakeyed, hs, havalued, hahead'⟩,
      hend.mono ?_⟩
    rintro j ⟨⟨⟨hj, hjkey⟩, -⟩, hjrest⟩
    refine ⟨hj, ?_⟩
    simp only [List.forall_mem_cons]
    exact ⟨hjkey, hjrest⟩

end Ahead

/-! ## The check of a mapping's keys -/

/-- The keys that a mapping has itself, without merge keys. -/
def OwnKey (nodes : Merge.Nodes) (entries : List (NodeId × NodeId)) (i : NodeId) : Prop :=
  ∃ e ∈ entries, isMergeKey nodes e.1 = false ∧ e.1 = i

/-- The check makes no objects but those of the mapping's own keys. -/
theorem object_checkUnique {seen : List Scalar} (h : checkUnique id b seen entries = .ok checked)
    (hi : ¬ OwnKey b.nodes entries i) : checked.object? i = b.object? i := by
  induction entries generalizing b seen with
  | nil =>
    cases h
    rfl
  | cons e rest ih =>
    have hrest : ¬ OwnKey b.nodes rest i := fun ⟨e', he', hkey⟩ =>
      hi ⟨e', List.mem_cons_of_mem _ he', hkey⟩
    rcases checkUnique_cons h with ⟨-, h⟩ | ⟨hown, mid, seen', hmid, h⟩
    · exact ih h hrest
    · rw [ih h ((Makes.construct hmid).nodes ▸ hrest)]
      rcases construct_eq_ok.mp hmid with ⟨-, rfl⟩ | ⟨-, c, -, rfl⟩
      · rfl
      · rw [object?_place, if_neg fun hid => hi ⟨e, List.mem_cons_self, hown, hid.1⟩]

/-- The check makes the object of each of the mapping's own keys. -/
theorem isSome_checkUnique {seen : List Scalar} (h : checkUnique id b seen entries = .ok checked)
    (hi : OwnKey b.nodes entries i) (hsize : i < b.objects.size) :
    (checked.object? i).isSome := by
  induction entries generalizing b seen with
  | nil =>
    obtain ⟨e, he, -⟩ := hi
    cases he
  | cons e rest ih =>
    obtain ⟨e', he', hown', rfl⟩ := hi
    rcases checkUnique_cons h with ⟨hmerge, hrest⟩ | ⟨-, mid, seen', hmid, hrest⟩
    · rcases List.mem_cons.mp he' with rfl | he'
      · rw [hmerge] at hown'
        cases hown'
      · exact ih hrest ⟨e', he', hown', rfl⟩ hsize
    · have hmakes := Makes.construct hmid
      rcases List.mem_cons.mp he' with rfl | he'
      · obtain ⟨c, hc⟩ := Option.isSome_iff_exists.mp (isSome_construct hmid hsize)
        rw [(makes_checkUnique hrest).object hc]
        rfl
      · exact ih hrest ⟨e', he', by rwa [hmakes.nodes], rfl⟩ (hmakes.size ▸ hsize)

/-- Nothing new waits after the check if all of the mapping's own keys are scalars. -/
theorem waiting_checkUnique {seen : List Scalar} (h : checkUnique id b seen entries = .ok checked)
    (hkeys : ∀ i, OwnKey b.nodes entries i → ∃ s, checked.object? i = some (.scalar s)) :
    checked.waiting = b.waiting := by
  induction entries generalizing b seen with
  | nil =>
    cases h
    rfl
  | cons e rest ih =>
    have hrest : ∀ i, OwnKey b.nodes rest i → OwnKey b.nodes (e :: rest) i := fun i ⟨e', he', hi⟩ =>
      ⟨e', List.mem_cons_of_mem _ he', hi⟩
    rcases checkUnique_cons h with ⟨-, h⟩ | ⟨hown, mid, seen', hmid, h⟩
    · exact ih h fun i hi => hkeys i (hrest i hi)
    · have hmakes := Makes.construct hmid
      rw [ih h fun i hi => hkeys i (hrest i (hmakes.nodes ▸ hi))]
      obtain ⟨s, hs⟩ := hkeys e.1 ⟨e, List.mem_cons_self, hown, rfl⟩
      rcases construct_eq_ok.mp hmid with ⟨-, rfl⟩ | ⟨-, c, -, rfl⟩
      · rfl
      · refine (waiting_place b e.1 c).resolve_right fun hwaiting => ?_
        -- a collection would have stayed the object of the key
        have hsize : e.1 < b.objects.size :=
          hmakes.size ▸ (makes_checkUnique h).size ▸ lt_size_of_object hs
        have hc : (b.place e.1 c).object? e.1 = some c := by
          rw [object?_place, if_pos ⟨rfl, hsize⟩]
        rw [(makes_checkUnique h).object hc] at hs
        cases hs
        exact hwaiting.2 s rfl

/-- The keys of the entries that are bound are scalars. -/
theorem keys_bindAll (h : bindAll id b bound entries = .ok (b', bound')) {e : NodeId × NodeId}
    (he : e ∈ entries) : ∃ s, b'.object? e.1 = some (.scalar s) := by
  induction entries generalizing b bound with
  | nil => cases he
  | cons e' rest ih =>
    obtain ⟨keyed, valued, s, _, hs, hvalued, hrest⟩ := bindAll_cons.mp h
    rcases List.mem_cons.mp he with rfl | he
    · exact ⟨s, (makes_bindAll hrest).object ((Makes.construct hvalued).object (key?_eq_some hs))⟩
    · exact ih hrest he

/-! ## One mapping -/

/-- The replacement of a mapping's merge keys does not change what its own keys stand for, unless
their objects are there already. -/
def KeysStay (b : Builder) (id : NodeId) : Prop :=
  ∀ nodes, Merge.flatten b.nodes id = .ok nodes → ∀ i, OwnKey b.nodes (entriesOf b.nodes id) i →
    b.object? i = none → newCell { b with nodes := nodes } i = b.newCell i

/-- If keys stay, the check has made nothing but the objects that the keys would get anyway. -/
theorem ahead_checkUnique {nodes : Merge.Nodes} (hstay : b.KeysStay id)
    (hcontent : (b.node id).content = .mapping entries)
    (hunique : checkUnique id b [] entries = .ok checked)
    (hflatten : Merge.flatten b.nodes id = .ok nodes)
    (hkeys : ∀ i, OwnKey b.nodes entries i → ∃ s, checked.object? i = some (.scalar s)) :
    Ahead (OwnKey b.nodes entries) { b with nodes := nodes } { checked with nodes := nodes } := by
  have hmakes := makes_checkUnique hunique
  have hwaiting : checked.waiting = b.waiting := waiting_checkUnique hunique hkeys
  refine ⟨rfl, hwaiting, hmakes.size, fun i => ?_⟩
  by_cases hi : OwnKey b.nodes entries i
  · cases hb : b.object? i with
    | some c => exact .inl ((hmakes.object hb).trans hb.symm)
    | none =>
      obtain ⟨s, hs⟩ := hkeys i hi
      have hcell := hstay nodes hflatten i (Merge.entriesOf_eq hcontent ▸ hi) hb
      exact .inr ⟨hi, hb, s, hs, hcell.trans (hmakes.newCell hb hs)⟩
  · have hsame : checked.object? i = b.object? i := object_checkUnique hunique hi
    exact .inl hsame

/-- How a mapping with unique keys is read: its entries are checked, then its merge keys are
replaced, then the entries it has now are bound. -/
structure Accepted (b : Builder) (id : NodeId) (entries : List (NodeId × NodeId))
    (checked : Builder) (nodes : Merge.Nodes) (filled : Builder)
    (bound : List (Scalar × CellId)) : Prop where
  content : (b.node id).content = .mapping entries
  unique : checkUnique id b [] entries = .ok checked
  flatten : Merge.flatten b.nodes id = .ok nodes
  bind : bindAll id { checked with nodes := nodes } [] (entriesOf nodes id) = .ok (filled, bound)

theorem exists_accepted (h : mapping .unique b id = .ok (b', bound)) :
    ∃ entries checked nodes, Accepted b id entries checked nodes b' bound := by
  obtain ⟨entries, checked, nodes, hentries, hchecked, hnodes, hfilled⟩ := mapping_eq_ok.mp h
  have hchecked : checkUnique id b [] entries = .ok checked := hchecked
  exact ⟨entries, checked, nodes, hentries, hchecked, (makes_checkUnique hchecked).nodes ▸ hnodes,
    hfilled⟩

namespace Accepted

variable {filled other : Builder} {nodes : Merge.Nodes}

/-- Entries with own keys are left when merge keys are replaced. -/
theorem mem_entriesOf (h : Accepted b id entries checked nodes filled bound)
    {e : NodeId × NodeId} (he : e ∈ entries) (hown : isMergeKey b.nodes e.1 = false) :
    e ∈ entriesOf nodes id :=
  ((Merge.evolves_flatten h.flatten).kept id).subset
    (Merge.mem_ownEntries.mpr ⟨Merge.entriesOf_eq h.content ▸ he, hown⟩)

/-- The own keys of the mapping were scalars when they were checked. -/
theorem ownKey (h : Accepted b id entries checked nodes filled bound)
    (hi : OwnKey b.nodes entries i) :
    ∃ s, checked.object? i = some (.scalar s) ∧ filled.object? i = some (.scalar s) := by
  obtain ⟨e, he, hown, rfl⟩ := hi
  have hbind := makes_bindAll h.bind
  obtain ⟨s, hs⟩ := keys_bindAll h.bind (h.mem_entriesOf he hown)
  have hsize : e.1 < b.objects.size :=
    (makes_checkUnique h.unique).size ▸ hbind.size ▸ lt_size_of_object hs
  obtain ⟨c, hc⟩ := Option.isSome_iff_exists.mp
    (isSome_checkUnique h.unique ⟨e, he, hown, rfl⟩ hsize)
  have hobject : filled.object? e.1 = some c := hbind.object hc
  rw [hs] at hobject
  cases hobject
  exact ⟨s, hc, hs⟩

/-- The entries are bound in the same way without the check if the keys stay. -/
theorem overriding (h : Accepted b id entries checked nodes filled bound)
    (hstay : b.KeysStay id) : mapping .overriding b id = .ok (filled, bound) := by
  obtain ⟨behind, hbehind, hahead⟩ := (ahead_checkUnique hstay h.content h.unique h.flatten
    fun i hi => (h.ownKey hi).imp fun _ hs => hs.1).bindAll h.bind
  have hsame : filled = behind := by
    refine hahead.eq fun i ⟨⟨e, he, hown, hi⟩, hall⟩ => ?_
    exact hall e (h.mem_entriesOf he hown) hi.symm
  rw [hsame]
  exact mapping_eq_ok.mpr ⟨entries, b, nodes, h.content, rfl, h.flatten, hbehind⟩

/-- Without the check some key is another scalar if the keys do not stay. -/
theorem differ (h : Accepted b id entries checked nodes filled bound)
    (hstay : ¬ b.KeysStay id) (hother : mapping .overriding b id = .ok (other, bound')) :
    ∃ i s s', i < b.objects.size ∧ b.object? i = none ∧
      filled.object? i = some (.scalar s) ∧ other.object? i = some (.scalar s') ∧ s ≠ s' := by
  obtain ⟨_, _, nodes', _, hb, hnodes', hother⟩ := mapping_eq_ok.mp hother
  cases hb
  rw [h.flatten] at hnodes'
  cases hnodes'
  simp only [KeysStay, Classical.not_forall, exists_prop] at hstay
  obtain ⟨nodes', hnodes', i, hi, hnone, hcell⟩ := hstay
  rw [h.flatten] at hnodes'
  cases hnodes'
  obtain ⟨s, hchecked, hs⟩ := h.ownKey (Merge.entriesOf_eq h.content ▸ hi)
  have hmakes := makes_checkUnique h.unique
  obtain ⟨e, he, hown, rfl⟩ := hi
  obtain ⟨s', hs'⟩ := keys_bindAll hother
    (h.mem_entriesOf (Merge.entriesOf_eq h.content ▸ he) hown)
  refine ⟨e.1, s, s', hmakes.size ▸ lt_size_of_object hchecked, hnone, hs, hs', ?_⟩
  rintro rfl
  refine hcell ?_
  rw [hmakes.newCell hnone hchecked]
  exact (makes_bindAll hother).newCell hnone hs'

end Accepted

/-- Two builders have different scalars as the objects of one node. -/
def Differ (b b' : Builder) : Prop :=
  ∃ i s s', b.object? i = some (.scalar s) ∧ b'.object? i = some (.scalar s') ∧ s ≠ s'

/-- A collection that is accepted is filled in the same way without the check if its keys stay. -/
theorem fill_overriding (hid : id < b.objects.size → ∃ c, b.object? id = some c)
    (h : fill .unique b id = .ok b') :
    b.KeysStay id ∧ fill .overriding b id = .ok b' ∨
      ¬ b.KeysStay id ∧ ∀ other, fill .overriding b id = .ok other → b'.Differ other := by
  rcases fill_cases b id with ⟨f, -, hfill⟩ | ⟨r, hfill, hr⟩
  · obtain ⟨filled, bound, hmapping, rfl⟩ := (hfill .unique b').mp h
    obtain ⟨entries, checked, nodes, haccepted⟩ := exists_accepted hmapping
    by_cases hstay : b.KeysStay id
    · exact .inl ⟨hstay,
        (hfill .overriding _).mpr ⟨filled, bound, haccepted.overriding hstay, rfl⟩⟩
    · refine .inr ⟨hstay, fun other hother => ?_⟩
      obtain ⟨filled', bound', hmapping', rfl⟩ := (hfill .overriding other).mp hother
      obtain ⟨i, s, s', hsize, hnone, hs, hs', hne⟩ := haccepted.differ hstay hmapping'
      -- the object of the collection itself was there before
      have hne' : id ≠ i := by
        rintro rfl
        obtain ⟨c, hc⟩ := hid hsize
        rw [hnone] at hc
        cases hc
      refine ⟨i, s, s', ?_, ?_, hne⟩
      · rw [object?_setObject, if_neg fun hi => hne' hi.1, hs]
      · rw [object?_setObject, if_neg fun hi => hne' hi.1, hs']
  · rw [hfill] at h
    refine .inl ⟨fun nodes _ i ⟨e, he, _⟩ => ?_, (hfill _).trans h⟩
    rw [(hr b' h).1] at he
    cases he

/-! ## Whole runs -/

/-- The keys of every mapping stay that an accepting run fills. -/
def KeysStayThrough : Nat → Builder → Prop
  | 0, _ => True
  | fuel + 1, b =>
    match b.waiting with
    | [] => True
    | id :: rest => ∀ filled, fill .unique { b with waiting := rest } id = .ok filled →
      KeysStay { b with waiting := rest } id ∧ KeysStayThrough fuel filled

/-- The cells of a document are the objects of its nodes; numbers without an object hold null. -/
theorem cell_objects (b : Builder) (root : CellId) (i : NodeId) :
    (⟨b.objects.map fun o => o.getD (.scalar .null), root⟩ : Graph).cell i =
      (b.object? i).getD (.scalar .null) := by
  unfold Graph.cell object?
  rw [Array.getD_eq_getD_getElem?, Array.getD_eq_getD_getElem?, Array.getElem?_map]
  cases b.objects[i]? <;> rfl

theorem cell_of_object {c : Cell} (h : b.object? i = some c) (root : CellId) :
    (⟨b.objects.map fun o => o.getD (.scalar .null), root⟩ : Graph).cell i = c := by
  rw [cell_objects, h]
  rfl

theorem Differ.fillAll {p q : KeyPolicy} {fuel fuel' : Nat} {other other' : Builder}
    (h : b.Differ other) (hb : b.OnlyCollectionsWait) (hother : other.OnlyCollectionsWait)
    (hb' : fillAll p fuel b = .ok b') (hother' : fillAll q fuel' other = .ok other') :
    b'.Differ other' := by
  obtain ⟨i, s, s', hs, hs', hne⟩ := h
  exact ⟨i, s, s', object_fillAll hb hb' hs, object_fillAll hother hother' hs', hne⟩

theorem fillAll_overriding {fuel : Nat} (hb : b.OnlyCollectionsWait)
    (h : fillAll .unique fuel b = .ok b') :
    KeysStayThrough fuel b ∧ fillAll .overriding fuel b = .ok b' ∨
      ¬ KeysStayThrough fuel b ∧
        ∀ other, fillAll .overriding fuel b = .ok other → b'.Differ other := by
  induction fuel generalizing b with
  | zero => exact .inl ⟨trivial, h⟩
  | succ fuel ih =>
    unfold fillAll at h ⊢
    unfold KeysStayThrough
    cases hwaiting : b.waiting with
    | nil =>
      rw [hwaiting] at h
      exact .inl ⟨trivial, h⟩
    | cons id rest =>
      rw [hwaiting] at h
      obtain ⟨filled, hfilled, h⟩ := bind_eq_ok.mp h
      have hid : id < b.objects.size →
          ∃ c, object? { b with waiting := rest } id = some c := fun hsize =>
        (hb id (hwaiting ▸ List.mem_cons_self) hsize).imp fun _ hc => hc.1
      have hfilledWait := onlyCollectionsWait_fill hwaiting hb hfilled
      rcases fill_overriding (b := { b with waiting := rest }) hid hfilled with
        ⟨hstay, hsame⟩ | ⟨hstay, hdiffer⟩
      · rcases ih hfilledWait h with ⟨hrest, hall⟩ | ⟨hrest, hall⟩
        · refine .inl ⟨fun filled' hfilled' => ?_, bind_eq_ok.mpr ⟨filled, hsame, hall⟩⟩
          rw [hfilled] at hfilled'
          cases hfilled'
          exact ⟨hstay, hrest⟩
        · refine .inr ⟨fun hthrough => hrest (hthrough filled hfilled).2, fun other hother => ?_⟩
          obtain ⟨filled', hfilled', hother⟩ := bind_eq_ok.mp hother
          rw [hsame] at hfilled'
          cases hfilled'
          exact hall other hother
      · -- objects stay, so that the first key that is another scalar settles the whole run
        refine .inr ⟨fun hthrough => hstay (hthrough filled hfilled).1, fun other hother => ?_⟩
        obtain ⟨filled', hfilled', hother⟩ := bind_eq_ok.mp hother
        exact (hdiffer filled' hfilled').fillAll hfilledWait
          (onlyCollectionsWait_fill hwaiting hb hfilled') h hother

/-! ## Keys that are no mappings -/

/-- No key of a mapping is a mapping, merge keys apart. -/
def NoMappingKeys (nodes : Merge.Nodes) : Prop :=
  Merge.AllEntries (fun e => isMergeKey nodes e.1 = false →
    ∀ entries, (nodeAt nodes e.1).content ≠ .mapping entries) nodes

/-- The own keys of an accepted mapping have scalars as their cells. -/
theorem newCell_ownKey (h : fill .unique b id = .ok b')
    (hi : OwnKey b.nodes (entriesOf b.nodes id) i) (hnone : b.object? i = none) :
    ∃ s, b.newCell i = .ok (.scalar s) := by
  rcases fill_cases b id with ⟨f, -, hfill⟩ | ⟨r, hfill, hr⟩
  · obtain ⟨filled, bound, hmapping, rfl⟩ := (hfill .unique b').mp h
    obtain ⟨entries, checked, nodes, haccepted⟩ := exists_accepted hmapping
    rw [Merge.entriesOf_eq haccepted.content] at hi
    obtain ⟨s, hs, -⟩ := haccepted.ownKey hi
    exact ⟨s, (makes_checkUnique haccepted.unique).newCell hnone hs⟩
  · rw [hfill] at h
    obtain ⟨e, he, -⟩ := hi
    rw [(hr b' h).1] at he
    cases he

/-- Keys that are no mappings stay what they are, whatever was replaced before. -/
theorem keysStay_of_noMappingKeys {nodes : Merge.Nodes} (hnodes : NoMappingKeys nodes)
    (hevolves : Merge.Evolves nodes b.nodes)
    (hentries : ∀ P, Merge.AllEntries P nodes → Merge.AllEntries P b.nodes)
    (h : fill .unique b id = .ok b') : b.KeysStay id := by
  intro new hnew i hi hnone
  obtain ⟨s, hs⟩ := newCell_ownKey h hi hnone
  obtain ⟨e, he, hown, rfl⟩ := hi
  have hcontent : ∀ entries, (b.node e.1).content ≠ .mapping entries := by
    have hflat := hentries _ hnodes id e he (hevolves.isMergeKey_eq e.1 ▸ hown)
    intro entries hmapping
    rcases hevolves.content e.1 with hsame | ⟨es, _, hes, _⟩
    · exact hflat entries (hsame ▸ hmapping)
    · exact hflat es hes
  have hnew := Merge.evolves_flatten hnew
  exact newCell_of_node (hnew.nodeAt_eq (hnew.tag_of_ne (tag_ne_value hs)) hcontent) hcontent

theorem keysStayThrough_of_noMappingKeys {nodes : Merge.Nodes} {fuel : Nat}
    (hnodes : NoMappingKeys nodes) (hevolves : Merge.Evolves nodes b.nodes)
    (hentries : ∀ P, Merge.AllEntries P nodes → Merge.AllEntries P b.nodes) :
    b.KeysStayThrough fuel := by
  induction fuel generalizing b with
  | zero => trivial
  | succ fuel ih =>
    unfold KeysStayThrough
    split
    · trivial
    · rename_i id rest _
      intro filled hfilled
      refine ⟨keysStay_of_noMappingKeys hnodes hevolves hentries hfilled, ?_⟩
      rcases nodes_fill hfilled with hsame | hflatten
      · exact ih (hsame ▸ hevolves) (hsame ▸ hentries)
      · exact ih (hevolves.trans (Merge.evolves_flatten hflatten)) fun P hP =>
          Merge.allEntries_flatten hflatten (hentries P hP)

end Builder

namespace Document

/-- No replacement of merge keys changes what a key of the mapping stands for, as a document with
unique keys is read. -/
def KeysStay (g : NodeGraph) : Prop :=
  ∀ b, (Builder.ofNodes g.nodes).construct g.root = .ok b → b.KeysStayThrough g.nodes.size

variable {g : NodeGraph} {graph : Graph}

/-- A document that is accepted with unique keys has the same value without this demand if and only
if its keys stay. They do if no key is a mapping. -/
theorem ofNodes_overriding_iff (h : ofNodes .unique g = .ok graph) :
    (ofNodes .overriding g = .ok graph ↔ KeysStay g) ∧
      (Builder.NoMappingKeys g.nodes → KeysStay g) := by
  unfold ofNodes at h ⊢
  obtain ⟨b, hb, h⟩ := bind_eq_ok.mp h
  obtain ⟨b', hb', h⟩ := bind_eq_ok.mp h
  cases h
  have hmakes := Builder.Makes.construct hb
  have hwait : b.OnlyCollectionsWait :=
    hmakes.onlyCollectionsWait fun i hi => by cases hi
  have hstay : KeysStay g ↔ b.KeysStayThrough g.nodes.size := by
    unfold KeysStay
    rw [hb]
    simp
  rw [hstay]
  refine ⟨?_, fun hflat => ?_⟩
  · rcases Builder.fillAll_overriding hwait hb' with ⟨hstay, hsame⟩ | ⟨hstay, hdiffer⟩
    · exact iff_of_true (bind_eq_ok.mpr ⟨b, hb, bind_eq_ok.mpr ⟨b', hsame, rfl⟩⟩) hstay
    · refine iff_of_false (fun hother => ?_) hstay
      obtain ⟨_, hb₂, hother⟩ := bind_eq_ok.mp hother
      rw [hb] at hb₂
      cases hb₂
      obtain ⟨other, hother, hgraph⟩ := bind_eq_ok.mp hother
      obtain ⟨i, s, s', hs, hs', hne⟩ := hdiffer other hother
      have hcell := Builder.cell_of_object hs g.root
      rw [← Except.ok.inj hgraph, Builder.cell_of_object hs'] at hcell
      exact hne (Cell.scalar.inj hcell).symm
  · have hnodes : b.nodes = g.nodes := hmakes.nodes
    refine Builder.keysStayThrough_of_noMappingKeys hflat ?_ ?_
    · rw [hnodes]
      exact .refl _
    · rw [hnodes]
      exact fun _ hP => hP

/-- A mapping that merges another one, with a mapping as a key and itself as the value. -/
theorem ofNodes_overriding_iff_cyclic :
    ∃ g graph, NodeGraph.ofParsed (Parsed.ofLexed (Lexed.ofChars
        "&m \x7b<<: \x7ba: 1\x7d, ? !!str \x7b=: k\x7d : *m\x7d".toList)) = .ok (some g) ∧
      ofNodes .unique g = .ok graph ∧ KeysStay g ∧
      graph.cell graph.root =
        .map [(.text (Text.ofString "a"), 4), (.text (Text.ofString "k"), graph.root)] := by
  have h : ((NodeGraph.ofParsed (Parsed.ofLexed (Lexed.ofChars
      "&m \x7b<<: \x7ba: 1\x7d, ? !!str \x7b=: k\x7d : *m\x7d".toList))).toOption.join.any fun g =>
      (ofNodes .unique g).toOption.any fun graph =>
        (ofNodes .overriding g).toOption == some graph && graph.cell graph.root ==
          .map [(.text (Text.ofString "a"), 4), (.text (Text.ofString "k"), graph.root)]) = true := by
    decide +kernel
  simp only [Option.any_eq_true, Bool.and_eq_true, beq_iff_eq] at h
  obtain ⟨g, hg, graph, hunique, hplain, hroot⟩ := h
  have hunique := eq_ok_of_toOption hunique
  exact ⟨g, graph, eq_ok_of_toOption (Option.join_eq_some_iff.mp hg), hunique,
    (ofNodes_overriding_iff hunique).1.mp (eq_ok_of_toOption hplain), hroot⟩

/-- The value of a mapping that is a key is that of the first equals sign in it. The check still
finds one where the mapping that is merged before has made a string of it: `foo` is a key of the
accepted document, and `baz` of the same document without the check. -/
theorem ofNodes_unique_retagged :
    ∃ g accepted plain, NodeGraph.ofParsed (Parsed.ofLexed (Lexed.ofChars
        "<<: \x7b&x =: 1\x7d\n? !!str \x7b*x : foo, =: baz\x7d\n: bar\n".toList)) = .ok (some g) ∧
      ofNodes .unique g = .ok accepted ∧ ofNodes .overriding g = .ok plain ∧
      accepted.cell accepted.root =
        .map [(.text (Text.ofString "="), 4), (.text (Text.ofString "foo"), 9)] ∧
      plain.cell plain.root =
        .map [(.text (Text.ofString "="), 4), (.text (Text.ofString "baz"), 9)] := by
  have h : ((NodeGraph.ofParsed (Parsed.ofLexed (Lexed.ofChars
      "<<: \x7b&x =: 1\x7d\n? !!str \x7b*x : foo, =: baz\x7d\n: bar\n".toList))).toOption.join.any
      fun g =>
        ((ofNodes .unique g).toOption.any fun graph => graph.cell graph.root ==
          .map [(.text (Text.ofString "="), 4), (.text (Text.ofString "foo"), 9)]) &&
        (ofNodes .overriding g).toOption.any fun graph => graph.cell graph.root ==
          .map [(.text (Text.ofString "="), 4), (.text (Text.ofString "baz"), 9)]) = true := by
    decide +kernel
  simp only [Option.any_eq_true, Bool.and_eq_true, beq_iff_eq] at h
  obtain ⟨g, hg, ⟨accepted, haccepted, hfoo⟩, plain, hplain, hbaz⟩ := h
  exact ⟨g, accepted, plain, eq_ok_of_toOption (Option.join_eq_some_iff.mp hg),
    eq_ok_of_toOption haccepted, eq_ok_of_toOption hplain, hfoo, hbaz⟩

end Document

end BootConfig.Yaml
