import BootConfig.Proofs.Yaml.UniqueKeys
import BootConfig.Proofs.Yaml.WorkList

/-!
# Mappings with equal keys

The check for unique keys looks at the keys that a mapping has itself, once, when the mapping is
filled. A mapping that is only merged into others is never filled, and its keys are never compared.

* `Builder.checkUnique_iff`: the check succeeds if and only if no two own keys are equal.
* `Document.Reached`: the nodes that get objects whatever is merged.
* `Document.ofNodes_unique_refuses`: a document is refused if a mapping that is reached has equal
  keys; the mappings that are objects of an accepted document have none.
-/

namespace BootConfig.Yaml

open Merge (nodeAt entriesOf ownEntries withoutMergeKeys isMergeKey)

namespace Builder

variable {b b' : Builder} {id i j : NodeId} {c : Cell} {s : Scalar} {origin : Merge.Nodes}
  {entries : List (NodeId × NodeId)} {policy : KeyPolicy}

/-! ## The scalar of a key -/

/-- The scalar that the object of a key is, or will be once it is made. -/
def keyOf? (b : Builder) (key : NodeId) : Option Scalar :=
  match b.object? key with
  | some (.scalar s) => some s
  | some _ => none
  | none =>
    match b.newCell key with
    | .ok (.scalar s) => some s
    | _ => none

theorem keyOf?_of_object (h : b.object? i = some (.scalar s)) : b.keyOf? i = some s := by
  unfold keyOf?
  rw [h]

theorem keyOf?_of_newCell (hnone : b.object? i = none) (h : b.newCell i = .ok (.scalar s)) :
    b.keyOf? i = some s := by
  unfold keyOf?
  rw [hnone, h]

theorem keyOf?_eq_some (h : b.keyOf? i = some s) :
    b.object? i = some (.scalar s) ∨ b.object? i = none ∧ b.newCell i = .ok (.scalar s) := by
  unfold keyOf? at h
  split at h
  · rename_i hobject
    cases h
    exact .inl hobject
  · cases h
  · rename_i hnone
    split at h
    · rename_i hcell
      cases h
      exact .inr ⟨hnone, hcell⟩
    · cases h

/-- What a key stands for is known before its object is made. -/
theorem Makes.keyOf? (h : Makes b b') (i : NodeId) : b'.keyOf? i = b.keyOf? i := by
  unfold Builder.keyOf?
  cases hb : b.object? i with
  | some c =>
    rw [h.object hb]
    cases c <;> rfl
  | none =>
    cases hb' : b'.object? i with
    | none => rw [newCell_congr h.nodes]
    | some c =>
      rw [h.newCell hb hb']
      cases c <;> rfl

theorem Orderly.construct_key (h : b.Orderly) (hs : b.keyOf? i = some s) :
    ∃ mid, b.construct i = .ok mid ∧ mid.key? i = some s := by
  rcases keyOf?_eq_some hs with hobject | ⟨hnone, hcell⟩
  · refine ⟨b, construct_eq_ok.mpr (.inl ⟨by rw [hobject]; rfl, rfl⟩), ?_⟩
    unfold key?
    rw [hobject]
  · refine ⟨_, construct_eq_ok.mpr (.inr ⟨hnone, _, hcell, rfl⟩), ?_⟩
    unfold key?
    rw [object?_place, if_pos ⟨rfl, h.lt_of_newCell hcell⟩]

/-! ## The check -/

/-- Two keys of which the second one is not equal to the first one. -/
def Apart : Option Scalar → Option Scalar → Prop
  | some s, some t => t.sameKey s = false
  | _, _ => True

instance : DecidableRel Apart
  | some s, some t => inferInstanceAs (Decidable (t.sameKey s = false))
  | some _, none => .isTrue trivial
  | none, _ => .isTrue trivial

/-- The keys that a mapping has itself are different from each other. -/
def KeysApart (b : Builder) (es : List (NodeId × NodeId)) : Prop :=
  es.Pairwise fun e e' => Apart (b.keyOf? e.1) (b.keyOf? e'.1)

/-- One step of a check: a key that is new among those before it. -/
theorem checkUnique_own {mid : Builder} {seen : List Scalar} {key value : NodeId}
    {rest : List (NodeId × NodeId)} (hown : isMergeKey b.nodes key = false)
    (hmid : b.construct key = .ok mid) (hs : mid.key? key = some s) :
    (∃ checked, checkUnique id b seen ((key, value) :: rest) = .ok checked) ↔
      (∀ t ∈ seen, s.sameKey t = false) ∧
        ∃ checked, checkUnique id mid (s :: seen) rest = .ok checked := by
  have hseen : (∀ t ∈ seen, s.sameKey t = false) ↔ seen.any s.sameKey = false := by simp
  rw [checkUnique, if_neg (by rw [hown]; decide), hmid, hseen]
  dsimp only [Bind.bind, Except.bind]
  rw [hs]
  dsimp only
  cases hany : seen.any s.sameKey with
  | true =>
    rw [if_pos rfl]
    cases s.quoted? <;> simp [throw, throwThe, MonadExceptOf.throw]
  | false => simp

/-- The check succeeds if and only if the mapping's own keys are different from each other and from
those seen before, provided that they are scalars. -/
theorem checkUnique_iff {seen : List Scalar} (horderly : b.Orderly)
    (hkeys : ∀ e ∈ withoutMergeKeys b.nodes entries, ∃ s, b.keyOf? e.1 = some s) :
    (∃ checked, checkUnique id b seen entries = .ok checked) ↔
      b.KeysApart (withoutMergeKeys b.nodes entries) ∧
        ∀ e ∈ withoutMergeKeys b.nodes entries, ∀ t ∈ seen, Apart (some t) (b.keyOf? e.1) := by
  induction entries generalizing b seen with
  | nil => simp [checkUnique, KeysApart, withoutMergeKeys]
  | cons e rest ih =>
    obtain ⟨key, value⟩ := e
    cases hown : isMergeKey b.nodes key with
    | true =>
      have hskip : withoutMergeKeys b.nodes ((key, value) :: rest) =
          withoutMergeKeys b.nodes rest := List.filter_cons_of_neg (by simp [hown])
      rw [hskip] at hkeys ⊢
      rw [checkUnique, if_pos hown, ih horderly hkeys]
    | false =>
      have hcons : withoutMergeKeys b.nodes ((key, value) :: rest) =
          (key, value) :: withoutMergeKeys b.nodes rest := List.filter_cons_of_pos (by simp [hown])
      rw [hcons, List.forall_mem_cons] at hkeys ⊢
      obtain ⟨⟨s, hs⟩, hrest⟩ := hkeys
      obtain ⟨mid, hmid, hmidKey⟩ := horderly.construct_key hs
      have hmakes := Makes.construct hmid
      have hkeyOf : mid.keyOf? = b.keyOf? := funext hmakes.keyOf?
      have ih : (∃ checked, checkUnique id mid (s :: seen) rest = .ok checked) ↔ _ :=
        ih (horderly.makes hmakes) (by rwa [hmakes.nodes, hkeyOf])
      unfold KeysApart at ih ⊢
      rw [hmakes.nodes, hkeyOf] at ih
      rw [checkUnique_own hown hmid hmidKey, ih, List.pairwise_cons, hs]
      simp only [List.forall_mem_cons, forall_and]
      -- the key that is new is compared with those seen before and with those that follow
      exact ⟨fun ⟨hseen, hpair, hnew, hrest⟩ => ⟨⟨hnew, hpair⟩, hseen, hrest⟩,
        fun ⟨⟨hnew, hpair⟩, hseen, hrest⟩ => ⟨hseen, hpair, hnew, hrest⟩⟩

/-- A mapping that is filled has scalars as its own keys, which are different from each other. -/
theorem ownKeys_fill (horderly : b.Orderly)
    (hid : ∃ c, b.object? id = some c ∧ ∀ s, c ≠ .scalar s) (h : fill .unique b id = .ok b') :
    (∀ e ∈ ownEntries b.nodes id, ∃ s, b.keyOf? e.1 = some s ∧
      b'.object? e.1 = some (.scalar s)) ∧ b.KeysApart (ownEntries b.nodes id) := by
  rcases fill_cases b id with ⟨f, -, hfill⟩ | ⟨r, hfill, hr⟩
  · obtain ⟨filled, bound, hmapping, rfl⟩ := (hfill .unique b').mp h
    obtain ⟨entries, checked, nodes, haccepted⟩ := exists_accepted hmapping
    have hentries : entriesOf b.nodes id = entries := Merge.entriesOf_eq haccepted.content
    have hchecked := makes_checkUnique haccepted.unique
    have hkeys : ∀ e ∈ ownEntries b.nodes id, ∃ s, b.keyOf? e.1 = some s ∧
        filled.object? e.1 = some (.scalar s) := by
      intro e he
      obtain ⟨hmem, hown⟩ := Merge.mem_ownEntries.mp he
      obtain ⟨s, hs, hfilled⟩ := haccepted.ownKey ⟨e, hentries ▸ hmem, hown, rfl⟩
      exact ⟨s, hchecked.keyOf? e.1 ▸ keyOf?_of_object hs, hfilled⟩
    refine ⟨fun e he => ?_, ?_⟩
    · obtain ⟨s, hs, hfilled⟩ := hkeys e he
      refine ⟨s, hs, ?_⟩
      rw [object?_setObject, if_neg fun hkey => ?_]
      · exact hfilled
      · -- the mapping itself is an object that is no scalar
        obtain ⟨c, hc, hscalar⟩ := hid
        have hobject : filled.object? id = some c :=
          (makes_bindAll haccepted.bind).object (hchecked.object hc)
        rw [hkey.1, hfilled] at hobject
        cases hobject
        exact hscalar s rfl
    · have hunique := haccepted.unique
      unfold ownEntries
      rw [hentries]
      unfold ownEntries at hkeys
      rw [hentries] at hkeys
      exact ((checkUnique_iff horderly fun e he => (hkeys e he).imp fun _ hs => hs.1).mp
        ⟨checked, hunique⟩).1
  · have hnone : ownEntries b.nodes id = [] := by
      unfold ownEntries
      rw [(hr b' (hfill .unique ▸ h)).1]
      rfl
    rw [hnone]
    exact ⟨by simp, List.Pairwise.nil⟩

/-! ## Objects of nodes that other nodes do not matter to -/

/-- The tags of nodes that are collections. -/
def collectionTags : List String := [Tag.map, Tag.seq, Tag.set, Tag.orderedMap, Tag.pairs]

/-- What the object of a node is does not depend on other nodes. -/
structure Steady (nodes : Merge.Nodes) (i : NodeId) : Prop where
  tag : (nodeAt nodes i).tag ≠ Tag.value
  kind : (nodeAt nodes i).tag ∈ collectionTags ∨ (nodeAt nodes i).kind ≠ .mapping

instance (nodes : Merge.Nodes) (i : NodeId) : Decidable (Steady nodes i) :=
  decidable_of_iff (_ ∧ _) ⟨fun h => ⟨h.1, h.2⟩, fun h => ⟨h.tag, h.kind⟩⟩

theorem content_ne_mapping {n : Node} (h : n.kind ≠ .mapping) (es : List (NodeId × NodeId)) :
    n.content ≠ .mapping es := by
  rintro hes
  unfold Node.kind at h
  rw [hes] at h
  exact h rfl

/-- The object of a collection with some tag before it is filled. -/
def emptyCell (tag : String) : Cell :=
  if tag == Tag.map then .map []
  else if tag == Tag.seq then .list []
  else if tag == Tag.set then .set []
  else .pairs []

theorem emptyCell_ne_scalar (tag : String) (s : Scalar) : emptyCell tag ≠ .scalar s := by
  unfold emptyCell
  split
  · simp
  · split
    · simp
    · split <;> simp

theorem newCell_of_collectionTag (htag : (b.node i).tag ∈ collectionTags) :
    b.newCell i = .ok (emptyCell (b.node i).tag) := by
  simp only [collectionTags, List.mem_cons, List.not_mem_nil, or_false] at htag
  unfold newCell
  dsimp only
  rcases htag with htag | htag | htag | htag | htag
  all_goals
    rw [htag]
    rfl

theorem Steady.newCell (h : Steady origin i) (hevolves : Merge.Evolves origin b.nodes) :
    b.newCell i = (ofNodes origin).newCell i := by
  have htag : (b.node i).tag = ((ofNodes origin).node i).tag := hevolves.tag_of_ne h.tag
  rcases h.kind with hcollection | hkind
  · rw [newCell_of_collectionTag (b := ofNodes origin) hcollection,
      newCell_of_collectionTag (htag ▸ hcollection), htag]
  · have hcontent := content_ne_mapping hkind
    exact newCell_of_node (b := ofNodes origin) (hevolves.nodeAt_eq htag hcontent) hcontent

/-- The objects of a run on some nodes: those of steady nodes are scalars or collections as the
nodes say. -/
structure Tracks (origin : Merge.Nodes) (b : Builder) : Prop where
  evolves : Merge.Evolves origin b.nodes
  cells : ∀ i c, b.object? i = some c → Steady origin i →
    ∃ c', (ofNodes origin).newCell i = .ok c' ∧ ∀ s, c = .scalar s ↔ c' = .scalar s

theorem tracks_ofNodes (nodes : Merge.Nodes) : Tracks nodes (ofNodes nodes) where
  evolves := .refl nodes
  cells i c hi := by
    rw [object?_ofNodes] at hi
    cases hi

namespace Tracks

theorem makes (h : Tracks origin b) (hmakes : Makes b b') : Tracks origin b' := by
  refine hmakes.keep (P := Tracks origin) h fun b id c hb _ hc => ⟨?_, fun i c' hi hsteady => ?_⟩
  · rw [nodes_place]
    exact hb.evolves
  · rw [object?_place] at hi
    split at hi
    · rename_i hid
      cases hi
      rw [← hid.1] at hsteady ⊢
      exact ⟨c, (hsteady.newCell hb.evolves).symm.trans hc, fun _ => Iff.rfl⟩
    · exact hb.cells i c' hi hsteady

theorem fill {rest : List NodeId} (h : Tracks origin b) (horderly : b.Orderly)
    (hwaiting : b.waiting = id :: rest)
    (hstep : fill policy { b with waiting := rest } id = .ok b') : Tracks origin b' := by
  obtain ⟨checked, nodes, filled, c, hchecked, hnodes, hfilled, hc, rfl⟩ := fill_eq_ok hstep
  have hpop : Tracks origin { b with waiting := rest } := ⟨h.evolves, h.cells⟩
  have hchecked := hpop.makes hchecked
  have hflat : Tracks origin { checked with nodes := nodes } := by
    refine ⟨?_, hchecked.cells⟩
    rcases hnodes with rfl | hnodes
    · exact hchecked.evolves
    · exact hchecked.evolves.trans (Merge.evolves_flatten hnodes)
  have hfilled := hflat.makes hfilled
  refine ⟨hfilled.evolves, fun i c' hi hsteady => ?_⟩
  rw [object?_setObject] at hi
  split at hi
  · rename_i hid
    cases hi
    rcases hid.1 with rfl
    -- the collection that is filled had an object that is none of the scalars
    obtain ⟨old, hold, hscalar⟩ := horderly.object (hwaiting ▸ List.mem_cons_self)
    obtain ⟨c', hc', hsame⟩ := h.cells _ old hold hsteady
    exact ⟨c', hc', fun s => iff_of_false (hc.collection s) fun hs => hscalar s ((hsame s).mpr hs)⟩
  · exact hfilled.cells i c' hi hsteady

/-- A node that is tagged as a collection has no scalar as its object. -/
theorem collection (h : Tracks origin b) (hi : b.object? i = some c)
    (htag : (nodeAt origin i).tag ∈ collectionTags) (s : Scalar) : c ≠ .scalar s := by
  have hnew := newCell_of_collectionTag (b := ofNodes origin) htag
  have hvalue : (nodeAt origin i).tag ≠ Tag.value := by
    rintro hvalue
    rw [hvalue] at htag
    revert htag
    decide
  obtain ⟨c', hc', hsame⟩ := h.cells i c hi ⟨hvalue, .inl htag⟩
  rw [hnew] at hc'
  cases hc'
  exact fun hs => emptyCell_ne_scalar _ s ((hsame s).mp hs)

end Tracks

/-! ## Parts of collections -/

/-- The nodes that get objects when a collection is filled, whatever is merged into it: the items of
a sequence, the keys and values of the entries that a mapping has itself, and those of the entries
that are the items of a list of pairs. -/
inductive Part (nodes : Merge.Nodes) (i j : NodeId) : Prop
  | item {items : List NodeId} (htag : (nodeAt nodes i).tag = Tag.seq)
    (hitems : (nodeAt nodes i).content = .sequence items) (hj : j ∈ items)
  | entry {e : NodeId × NodeId} (he : e ∈ ownEntries nodes i) (hj : j = e.1 ∨ j = e.2)
  | pair {items : List NodeId} {item : NodeId} {e : NodeId × NodeId}
    (htag : (nodeAt nodes i).tag ≠ Tag.seq) (hitems : (nodeAt nodes i).content = .sequence items)
    (hitem : item ∈ items) (he : e ∈ ownEntries nodes item) (hj : j = e.1 ∨ j = e.2)

/-- Parts stay parts when merge keys are replaced. -/
theorem Part.evolves {new : Merge.Nodes} (h : Part origin i j)
    (hevolves : Merge.Evolves origin new) : Part new i j := by
  have hcontent : ∀ {items}, (nodeAt origin i).content = .sequence items →
      (nodeAt new i).content = .sequence items := fun hitems => by
    rw [hevolves.content_eq (by rw [hitems]; simp), hitems]
  have hown : ∀ i, ownEntries origin i ⊆ ownEntries new i := fun i =>
    (hevolves.ownEntries_sublist i).subset
  cases h with
  | item hseq hitems hj =>
    exact .item ((hevolves.tag_of_ne (by rw [hseq]; decide)).trans hseq) (hcontent hitems) hj
  | entry he hj => exact .entry (hown i he) hj
  | pair hne hitems hitem he hj =>
    refine .pair ?_ (hcontent hitems) hitem (hown _ he) hj
    rcases hevolves.tag i with hsame | ⟨-, hstr⟩
    · rwa [hsame]
    · rw [hstr]
      decide

theorem isSome_constructAll {ids : List NodeId} (horderly : b.Orderly)
    (h : b.constructAll ids = .ok b') (hi : i ∈ ids) : (b'.object? i).isSome := by
  unfold constructAll at h
  induction ids generalizing b with
  | nil => cases hi
  | cons id ids ih =>
    rw [List.foldlM_cons] at h
    obtain ⟨mid, hmid, hrest⟩ := bind_eq_ok.mp h
    rcases List.mem_cons.mp hi with rfl | hi
    · exact (makes_constructAll hrest).isSome (horderly.isSome_construct hmid)
    · exact ih (horderly.makes (.construct hmid)) hrest hi

theorem isSome_bindAll {bound bound' : List (Scalar × CellId)} (horderly : b.Orderly)
    (h : bindAll id b bound entries = .ok (b', bound')) {e : NodeId × NodeId} (he : e ∈ entries) :
    (b'.object? e.1).isSome ∧ (b'.object? e.2).isSome := by
  induction entries generalizing b bound with
  | nil => cases he
  | cons e' rest ih =>
    obtain ⟨keyed, valued, s, hkeyed, -, hvalued, hrest⟩ := bindAll_cons.mp h
    have horderlyKeyed := horderly.makes (.construct hkeyed)
    rcases List.mem_cons.mp he with rfl | he
    · have hmakes := makes_bindAll hrest
      exact ⟨hmakes.isSome ((Makes.construct hvalued).isSome (horderly.isSome_construct hkeyed)),
        hmakes.isSome (horderlyKeyed.isSome_construct hvalued)⟩
    · exact ih (horderlyKeyed.makes (.construct hvalued)) hrest he

theorem isSome_pairItems {context : Context} {items : List NodeId}
    {r r' : Builder × List (CellId × CellId)} (horderly : r.1.Orderly)
    (h : items.foldlM (pairItem context id) r = .ok r') {item : NodeId} (hitem : item ∈ items)
    {e : NodeId × NodeId} (he : e ∈ entriesOf r.1.nodes item) :
    (r'.1.object? e.1).isSome ∧ (r'.1.object? e.2).isSome := by
  induction items generalizing r with
  | nil => cases hitem
  | cons item' items ih =>
    rw [List.foldlM_cons] at h
    obtain ⟨mid, hmid, hrest⟩ := bind_eq_ok.mp h
    have hmakes := makes_pairItem hmid
    rcases List.mem_cons.mp hitem with rfl | hitem
    · have hend := makes_pairItems hrest
      unfold pairItem at hmid
      split at hmid
      · rename_i key value hcontent
        obtain ⟨made, hmade, hmid⟩ := bind_eq_ok.mp hmid
        cases hmid
        rw [Merge.entriesOf_eq hcontent, List.mem_singleton] at he
        cases he
        exact ⟨hend.isSome (isSome_constructAll horderly hmade (by simp)),
          hend.isSome (isSome_constructAll horderly hmade (by simp))⟩
      · cases hmid
      · cases hmid
    · exact ih (horderly.makes hmakes) hrest hitem (hmakes.nodes ▸ he)

/-- A mapping binds the entries it has itself, and maybe others. -/
theorem isSome_mapping {filled : Builder} {bound : List (Scalar × CellId)} (horderly : b.Orderly)
    (h : mapping policy b id = .ok (filled, bound)) (hpart : Part b.nodes id j) :
    (filled.object? j).isSome := by
  obtain ⟨entries, checked, nodes, hcontent, hchecked, hnodes, hbind⟩ := mapping_eq_ok.mp h
  have hcontent : (nodeAt b.nodes id).content = .mapping entries := hcontent
  have hmakes := makes_precheck hchecked
  have hkept := (hmakes.nodes ▸ Merge.evolves_flatten hnodes).kept id
  cases hpart with
  | entry he hj =>
    obtain ⟨hkey, hvalue⟩ := isSome_bindAll ((horderly.makes hmakes).flatten (.inr hnodes)) hbind
      (hkept.subset he)
    rcases hj with rfl | rfl
    · exact hkey
    · exact hvalue
  | item _ hitems => cases hcontent.symm.trans hitems
  | pair _ hitems => cases hcontent.symm.trans hitems

theorem isSome_sequence {filled : Builder} {items : List CellId} (horderly : b.Orderly)
    (htag : (b.node id).tag = Tag.seq) (h : b.sequence id = .ok (filled, items))
    (hpart : Part b.nodes id j) : (filled.object? j).isSome := by
  unfold sequence at h
  split at h
  · rename_i items hcontent
    have hcontent : (nodeAt b.nodes id).content = .sequence items := hcontent
    obtain ⟨made, hmade, h⟩ := bind_eq_ok.mp h
    cases h
    cases hpart with
    | item _ hitems hj =>
      cases hcontent.symm.trans hitems
      exact isSome_constructAll horderly hmade hj
    | entry he => cases hcontent.symm.trans (Merge.content_of_mem (Merge.mem_ownEntries.mp he).1)
    | pair hne => exact absurd htag hne
  · cases h

theorem isSome_pairList {filled : Builder} {context : Context} {pairs : List (CellId × CellId)}
    (horderly : b.Orderly) (htag : (b.node id).tag ≠ Tag.seq)
    (h : b.pairList context id = .ok (filled, pairs)) (hpart : Part b.nodes id j) :
    (filled.object? j).isSome := by
  cases hpart with
  | item hseq => exact absurd hseq htag
  | entry he =>
    rw [Merge.mem_ownEntries, (makes_pairList h).1] at he
    cases he.1
  | pair _ hitems hitem he hj =>
    rw [pairList_eq hitems] at h
    obtain ⟨hkey, hvalue⟩ := isSome_pairItems (r := (b, [])) horderly h hitem
      (Merge.mem_ownEntries.mp he).1
    rcases hj with rfl | rfl
    · exact hkey
    · exact hvalue

/-- The parts of a collection have objects once it is filled. -/
theorem isSome_part (horderly : b.Orderly) (h : fill policy b id = .ok b')
    (hpart : Part b.nodes id j) : (b'.object? j).isSome := by
  have hset : ∀ {filled : Builder} {c : Cell}, (filled.object? j).isSome →
      ((filled.setObject id c).object? j).isSome := by
    intro filled c hj
    rw [object?_setObject]
    split
    · rfl
    · exact hj
  unfold fill at h
  dsimp only at h
  split at h
  · rename_i hseq
    obtain ⟨⟨filled, items⟩, hfilled, h⟩ := bind_eq_ok.mp h
    cases h
    exact hset (isSome_sequence horderly (eq_of_beq hseq) hfilled hpart)
  · rename_i hseq
    split at h
    · obtain ⟨⟨filled, bound⟩, hfilled, h⟩ := bind_eq_ok.mp h
      cases h
      exact hset (isSome_mapping horderly hfilled hpart)
    · split at h
      · obtain ⟨⟨filled, bound⟩, hfilled, h⟩ := bind_eq_ok.mp h
        cases h
        exact hset (isSome_mapping horderly hfilled hpart)
      · obtain ⟨⟨filled, pairs⟩, hfilled, h⟩ := bind_eq_ok.mp h
        cases h
        exact hset (isSome_pairList horderly (fun htag => hseq (beq_iff_eq.mpr htag)) hfilled hpart)

/-! ## Collections that are done -/

/-- What is known of a collection that is filled: its parts have objects, and the keys that it has
itself are different scalars. -/
structure Done (origin : Merge.Nodes) (b : Builder) (i : NodeId) : Prop where
  parts : ∀ j, Part origin i j → (b.object? j).isSome
  apart : (ownEntries origin i).Pairwise fun e e' => ∃ s s', b.object? e.1 = some (.scalar s) ∧
    b.object? e'.1 = some (.scalar s') ∧ s'.sameKey s = false

/-- A collection is done once it is filled. -/
theorem done_fill (horderly : b.Orderly) (hid : ∃ c, b.object? id = some c ∧ ∀ s, c ≠ .scalar s)
    (hevolves : Merge.Evolves origin b.nodes) (h : fill .unique b id = .ok b') :
    Done origin b' id := by
  obtain ⟨hkeys, hapart⟩ := ownKeys_fill horderly hid h
  refine ⟨fun j hj => isSome_part horderly h (hj.evolves hevolves),
    (hapart.imp_of_mem fun {e e'} he he' hne => ?_).sublist (hevolves.ownEntries_sublist id)⟩
  obtain ⟨s, hs, hobject⟩ := hkeys e he
  obtain ⟨s', hs', hobject'⟩ := hkeys e' he'
  rw [hs, hs'] at hne
  exact ⟨s, s', hobject, hobject', hne⟩

/-- What is done stays done. -/
theorem Done.fill {rest : List NodeId} (h : Done origin b i) (hb : b.OnlyCollectionsWait)
    (hwaiting : b.waiting = id :: rest)
    (hstep : fill policy { b with waiting := rest } id = .ok b') : Done origin b' i := by
  refine ⟨fun j hj => isSome_fill hstep (h.parts j hj), h.apart.imp ?_⟩
  rintro e e' ⟨s, s', hs, hs', hne⟩
  exact ⟨s, s', object_fill hwaiting hb hstep hs, object_fill hwaiting hb hstep hs', hne⟩

/-- The objects of a document with unique keys between two fillings: every collection waits or is
done. -/
structure Met (g : NodeGraph) (b : Builder) : Prop where
  tracks : Tracks g.nodes b
  root : (b.object? g.root).isSome
  met : ∀ i c, b.object? i = some c → (∀ s, c ≠ .scalar s) → i ∈ b.waiting ∨ Done g.nodes b i

theorem met_construct {g : NodeGraph} (h : (ofNodes g.nodes).construct g.root = .ok b) :
    Met g b := by
  have hmakes := Makes.construct h
  refine ⟨(tracks_ofNodes g.nodes).makes hmakes,
    (orderly_ofNodes g.nodes).isSome_construct h, fun i c hi hscalar => ?_⟩
  rcases hmakes.waiting.2 i c hi hscalar with hold | hwaiting
  · rw [object?_ofNodes] at hold
    cases hold
  · exact .inl hwaiting

theorem Met.fill {g : NodeGraph} {rest : List NodeId} (h : Met g b) (horderly : b.Orderly)
    (hwaiting : b.waiting = id :: rest)
    (hstep : fill .unique { b with waiting := rest } id = .ok b') : Met g b' := by
  obtain ⟨hsubset, hnew⟩ := waiting_fill hstep
  refine ⟨h.tracks.fill horderly hwaiting hstep, isSome_fill hstep h.root, fun i c hi hscalar => ?_⟩
  have hid : Done g.nodes b' id :=
    done_fill (horderly.pop hwaiting) (horderly.object (hwaiting ▸ List.mem_cons_self))
      h.tracks.evolves hstep
  rcases hnew i c hi hscalar with rfl | hold | hwaits
  · exact .inr hid
  · rcases h.met i c hold hscalar with hwaits | hdone
    · rw [hwaiting, List.mem_cons] at hwaits
      rcases hwaits with rfl | hrest
      · exact .inr hid
      · exact .inl (hsubset hrest)
    · exact .inr (hdone.fill horderly.collections hwaiting hstep)
  · exact .inl hwaits

end Builder

namespace Document

open Builder (Apart Part Steady collectionTags)

variable {g : NodeGraph} {graph : Graph}

/-- The nodes that get objects whatever is merged: the root, and the parts of the collections that
do. A mapping that is only the value of a merge key is none of them. -/
inductive Reached (g : NodeGraph) : NodeId → Prop
  | root : Reached g g.root
  | part {i j : NodeId} (hi : Reached g i) (htag : (nodeAt g.nodes i).tag ∈ collectionTags)
    (hpart : Part g.nodes i j) : Reached g j

/-- The scalar that a key is as it is composed. What a mapping in place of a scalar stands for may
change when merge keys are replaced, so that it counts as none. -/
def keyScalar? (nodes : Merge.Nodes) (key : NodeId) : Option Scalar :=
  if (nodeAt nodes key).kind = .mapping then none else (Builder.ofNodes nodes).keyOf? key

/-- No two keys that a mapping has itself are equal, as they are composed. -/
def UniqueKeys (nodes : Merge.Nodes) (i : NodeId) : Prop :=
  (ownEntries nodes i).Pairwise fun e e' => Apart (keyScalar? nodes e.1) (keyScalar? nodes e'.1)

instance (nodes : Merge.Nodes) (i : NodeId) : Decidable (UniqueKeys nodes i) :=
  inferInstanceAs (Decidable (List.Pairwise _ _))

theorem keyScalar?_eq_some {nodes : Merge.Nodes} {key : NodeId} {s : Scalar}
    (h : keyScalar? nodes key = some s) :
    Steady nodes key ∧ (Builder.ofNodes nodes).newCell key = .ok (.scalar s) := by
  have hkey : (nodeAt nodes key).kind ≠ .mapping ∧
      (Builder.ofNodes nodes).keyOf? key = some s := by
    unfold keyScalar? at h
    split at h
    · cases h
    · rename_i hkind
      exact ⟨hkind, h⟩
  rcases Builder.keyOf?_eq_some hkey.2 with hobject | ⟨-, hcell⟩
  · rw [Builder.object?_ofNodes] at hobject
    cases hobject
  · exact ⟨⟨Builder.tag_ne_value hcell, .inr hkey.1⟩, hcell⟩

/-- The objects of an accepted document: collections are done, and what is reached has an object. -/
theorem ofNodes_unique_objects (h : ofNodes .unique g = .ok graph) :
    ∃ b, Builder.Tracks g.nodes b ∧ (∀ i, Reached g i → (b.object? i).isSome) ∧
      (∀ i c, b.object? i = some c → (∀ s, c ≠ .scalar s) → Builder.Done g.nodes b i) ∧
      graph = ⟨b.objects.map fun o => o.getD (.scalar .null), g.root⟩ := by
  obtain ⟨b, -, hwaiting, hmet, hgraph⟩ := ofNodes_run (P := Builder.Met g)
    Builder.met_construct (fun horderly hmet hwaiting hstep =>
      hmet.fill horderly hwaiting hstep) h
  have hdone : ∀ i c, b.object? i = some c → (∀ s, c ≠ .scalar s) → Builder.Done g.nodes b i := by
    intro i c hi hscalar
    refine (hmet.met i c hi hscalar).resolve_left ?_
    rw [hwaiting]
    exact List.not_mem_nil
  refine ⟨b, hmet.tracks, fun i hi => ?_, hdone, hgraph⟩
  induction hi with
  | root => exact hmet.root
  | part _ htag hpart ih =>
    obtain ⟨c, hc⟩ := Option.isSome_iff_exists.mp ih
    exact (hdone _ c hc (hmet.tracks.collection hc htag)).parts _ hpart

/-- A document is refused if a mapping that is reached has two equal keys of its own. Whatever is
reached, no mapping that is an object of an accepted document has two keys of its own that are equal
in its value. -/
theorem ofNodes_unique_refuses (g : NodeGraph) :
    (∀ i, Reached g i → (nodeAt g.nodes i).tag ∈ collectionTags → ¬ UniqueKeys g.nodes i →
      ∃ e, ofNodes .unique g = .error e) ∧
    ∀ graph, ofNodes .unique g = .ok graph → ∀ i, (∀ s, graph.cell i ≠ .scalar s) →
      (ownEntries g.nodes i).Pairwise fun e e' => ∃ s s', graph.cell e.1 = .scalar s ∧
        graph.cell e'.1 = .scalar s' ∧ s'.sameKey s = false := by
  refine ⟨fun i hi htag hequal => ?_, fun graph h i hi => ?_⟩
  · cases h : ofNodes .unique g with
    | error e => exact ⟨e, rfl⟩
    | ok graph =>
      obtain ⟨b, htracks, hreached, hdone, -⟩ := ofNodes_unique_objects h
      obtain ⟨c, hc⟩ := Option.isSome_iff_exists.mp (hreached i hi)
      refine absurd ?_ hequal
      refine (hdone i c hc (htracks.collection hc htag)).apart.imp ?_
      rintro e e' ⟨s, s', hs, hs', hne⟩
      -- the object of a key that is no mapping is the scalar that it is as composed
      have hkey : ∀ {key : NodeId} {s t : Scalar}, b.object? key = some (.scalar s) →
          keyScalar? g.nodes key = some t → t = s := by
        intro key s t hs ht
        obtain ⟨hsteady, hcell⟩ := keyScalar?_eq_some ht
        obtain ⟨c', hc', hsame⟩ := htracks.cells key _ hs hsteady
        rw [hcell] at hc'
        cases hc'
        exact Cell.scalar.inj ((hsame s).mp rfl)
      cases ht : keyScalar? g.nodes e.1 with
      | none => trivial
      | some t =>
        cases ht' : keyScalar? g.nodes e'.1 with
        | none => trivial
        | some t' =>
          rw [hkey hs ht, hkey hs' ht']
          exact hne
  · obtain ⟨b, -, -, hdone, rfl⟩ := ofNodes_unique_objects h
    rw [Builder.cell_objects] at hi
    cases hc : b.object? i with
    | none =>
      rw [hc] at hi
      exact absurd rfl (hi .null)
    | some c =>
      rw [hc] at hi
      refine (hdone i c hc hi).apart.imp ?_
      rintro e e' ⟨s, s', hs, hs', hne⟩
      exact ⟨s, s', Builder.cell_of_object hs _, Builder.cell_of_object hs' _, hne⟩

/-- `1` and `true` are one key, so that the first document is refused; in the second one no mapping
has them both, though one merges a mapping with the other. -/
theorem ofNodes_unique_refuses_truth :
    (∃ g, NodeGraph.ofParsed (Parsed.ofLexed (Lexed.ofChars
        "k: \x7b1: a, true: b\x7d\n".toList)) = .ok (some g) ∧
      Reached g 2 ∧ ¬ UniqueKeys g.nodes 2 ∧ ∃ e, ofNodes .unique g = .error e) ∧
    ∃ g graph, NodeGraph.ofParsed (Parsed.ofLexed (Lexed.ofChars
        "k: \x7b1: a, <<: \x7btrue: b\x7d\x7d\n".toList)) = .ok (some g) ∧
      ofNodes .unique g = .ok graph ∧ graph.cell 2 = .map [(.bool true, 4)] ∧
      (ownEntries g.nodes 2).Pairwise fun e e' => ∃ s s', graph.cell e.1 = .scalar s ∧
        graph.cell e'.1 = .scalar s' ∧ s'.sameKey s = false := by
  have hrefused : ((NodeGraph.ofParsed (Parsed.ofLexed (Lexed.ofChars
      "k: \x7b1: a, true: b\x7d\n".toList))).toOption.join.any fun g =>
        decide ((nodeAt g.nodes g.root).tag ∈ collectionTags) &&
        decide ((1, 2) ∈ ownEntries g.nodes g.root) &&
        decide ((nodeAt g.nodes 2).tag ∈ collectionTags) && !decide (UniqueKeys g.nodes 2)) =
      true := by
    decide +kernel
  have haccepted : ((NodeGraph.ofParsed (Parsed.ofLexed (Lexed.ofChars
      "k: \x7b1: a, <<: \x7btrue: b\x7d\x7d\n".toList))).toOption.join.any fun g =>
        (ofNodes .unique g).toOption.any fun graph => graph.cell 2 == .map [(.bool true, 4)]) =
      true := by
    decide +kernel
  simp only [Option.any_eq_true, Bool.and_eq_true, beq_iff_eq, decide_eq_true_eq,
    Bool.not_eq_true', decide_eq_false_iff_not] at hrefused haccepted
  obtain ⟨g, hg, ⟨⟨hroot, hentry⟩, htag⟩, hequal⟩ := hrefused
  obtain ⟨g', hg', graph, hgraph, hcell⟩ := haccepted
  have hreached : Reached g 2 := .part .root hroot (.entry hentry (.inr rfl))
  have hgraph := eq_ok_of_toOption hgraph
  exact ⟨⟨g, eq_ok_of_toOption (Option.join_eq_some_iff.mp hg), hreached, hequal,
      (ofNodes_unique_refuses g).1 2 hreached htag hequal⟩,
    g', graph, eq_ok_of_toOption (Option.join_eq_some_iff.mp hg'), hgraph, hcell,
    (ofNodes_unique_refuses g').2 graph hgraph 2 (by rw [hcell]; simp)⟩

/-- A mapping that is only the value of a merge key is never filled: it has the key `x` twice, and
the document is accepted. -/
theorem ofNodes_unique_merged :
    ∃ g graph, NodeGraph.ofParsed (Parsed.ofLexed (Lexed.ofChars
        "a: \x7b<<: \x7bx: 1, x: 2\x7d\x7d\n".toList)) = .ok (some g) ∧
      ¬ UniqueKeys g.nodes 4 ∧ ofNodes .unique g = .ok graph ∧
      graph.cell graph.root = .map [(.text (Text.ofString "a"), 2)] ∧
      graph.cell 2 = .map [(.text (Text.ofString "x"), 8)] := by
  have h : ((NodeGraph.ofParsed (Parsed.ofLexed (Lexed.ofChars
      "a: \x7b<<: \x7bx: 1, x: 2\x7d\x7d\n".toList))).toOption.join.any fun g =>
        !decide (UniqueKeys g.nodes 4) && (ofNodes .unique g).toOption.any fun graph =>
          graph.cell graph.root == .map [(.text (Text.ofString "a"), 2)] &&
          graph.cell 2 == .map [(.text (Text.ofString "x"), 8)]) = true := by
    decide +kernel
  simp only [Option.any_eq_true, Bool.and_eq_true, beq_iff_eq, Bool.not_eq_true',
    decide_eq_false_iff_not] at h
  obtain ⟨g, hg, hequal, graph, hgraph, hroot, hcell⟩ := h
  exact ⟨g, graph, eq_ok_of_toOption (Option.join_eq_some_iff.mp hg), hequal,
    eq_ok_of_toOption hgraph, hroot, hcell⟩

end Document

end BootConfig.Yaml
