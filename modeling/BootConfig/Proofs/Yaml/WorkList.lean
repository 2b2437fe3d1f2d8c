import BootConfig.Proofs.Yaml.Construction
import BootConfig.Proofs.Yaml.Flattening

/-!
# Collections that wait

A collection waits from the time when it is met to the time when it is filled, and it waits only
once. There are enough steps for all of them, so that a document that has a value has none left.

* `Builder.Orderly`: the objects between two fillings.
* `Builder.owed`: how many fillings may still come.
* `Document.ofNodes_run`: what every filling keeps holds when nothing waits any longer.
-/

namespace BootConfig.Yaml

namespace Builder

variable {b b' : Builder} {id i : NodeId} {c : Cell} {policy : KeyPolicy} {rest : List NodeId}

/-! ## The objects between two fillings -/

/-- Numbers without a node have no cell. -/
theorem lt_size_of_newCell (h : b.newCell id = .ok c) : id < b.nodes.size := by
  refine Nat.lt_of_not_le fun hle => ?_
  have hnode : b.node id = default := by
    unfold node Merge.nodeAt
    rw [Array.getD_eq_getD_getElem?, Array.getElem?_eq_none hle]
    rfl
  unfold newCell at h
  rw [hnode] at h
  cases h

/-- Every node has a place for its object, and collections wait once. -/
structure Orderly (b : Builder) : Prop where
  size : b.objects.size = b.nodes.size
  nodup : b.waiting.Nodup
  lt : ∀ i ∈ b.waiting, i < b.objects.size
  collections : b.OnlyCollectionsWait

theorem orderly_ofNodes (nodes : Merge.Nodes) : (ofNodes nodes).Orderly where
  size := Array.size_replicate
  nodup := List.nodup_nil
  lt i hi := by cases hi
  collections i hi := by cases hi

namespace Orderly

/-- A collection that waits has an object, which is no scalar. -/
theorem object (h : b.Orderly) (hi : i ∈ b.waiting) :
    ∃ c, b.object? i = some c ∧ ∀ s, c ≠ .scalar s :=
  h.collections i hi (h.lt i hi)

theorem not_mem_waiting (h : b.Orderly) (hnone : b.object? i = none) : i ∉ b.waiting := by
  intro hi
  obtain ⟨c, hc, -⟩ := h.object hi
  rw [hnone] at hc
  cases hc

theorem lt_of_newCell (h : b.Orderly) (hc : b.newCell id = .ok c) : id < b.objects.size :=
  h.size ▸ lt_size_of_newCell hc

theorem place (h : b.Orderly) (hnone : b.object? id = none) (hc : b.newCell id = .ok c) :
    (b.place id c).Orderly := by
  have hmakes : Makes b (b.place id c) :=
    .construct (construct_eq_ok.mpr (.inr ⟨hnone, c, hc, rfl⟩))
  refine ⟨?_, ?_, fun i hi => ?_, hmakes.onlyCollectionsWait h.collections⟩
  · rw [size_place, nodes_place, h.size]
  · rcases waiting_place b id c with hwaiting | ⟨hwaiting, -⟩
    · rw [hwaiting]
      exact h.nodup
    · rw [hwaiting]
      refine List.nodup_append.mpr ⟨h.nodup, List.pairwise_singleton _ id, ?_⟩
      rintro i hi _ hid rfl
      rw [List.mem_singleton] at hid
      exact h.not_mem_waiting hnone (hid ▸ hi)
  · rw [size_place]
    rcases waiting_place b id c with hwaiting | ⟨hwaiting, -⟩
    · exact h.lt i (hwaiting ▸ hi)
    · rw [hwaiting, List.mem_append, List.mem_singleton] at hi
      rcases hi with hi | rfl
      · exact h.lt i hi
      · exact h.lt_of_newCell hc

theorem makes (h : b.Orderly) (hmakes : Makes b b') : b'.Orderly :=
  hmakes.keep (P := Orderly) h fun _ _ _ hb hnone hc => hb.place hnone hc

/-- The first collection that waits is taken out. -/
theorem pop (h : b.Orderly) (hwaiting : b.waiting = id :: rest) :
    Orderly { b with waiting := rest } where
  size := h.size
  nodup := (List.nodup_cons.mp (hwaiting ▸ h.nodup)).2
  lt i hi := h.lt i (hwaiting ▸ List.mem_cons_of_mem id hi)
  collections i hi := h.collections i (hwaiting ▸ List.mem_cons_of_mem id hi)

theorem flatten {nodes : Merge.Nodes} (h : b.Orderly)
    (hnodes : nodes = b.nodes ∨ Merge.flatten b.nodes id = .ok nodes) :
    Orderly { b with nodes := nodes } := by
  refine ⟨?_, h.nodup, h.lt, h.collections⟩
  rcases hnodes with rfl | hnodes
  · exact h.size
  · exact h.size.trans (Merge.evolves_flatten hnodes).size.symm

/-- A node whose object is made has it then. -/
theorem isSome_construct (h : b.Orderly) (hstep : b.construct id = .ok b') :
    (b'.object? id).isSome := by
  rcases construct_eq_ok.mp hstep with ⟨hsome, rfl⟩ | ⟨-, c, hc, rfl⟩
  · exact hsome
  · rw [object?_place, if_pos ⟨rfl, h.lt_of_newCell hc⟩]
    rfl

theorem fill (h : b.Orderly) (hwaiting : b.waiting = id :: rest)
    (hstep : fill policy { b with waiting := rest } id = .ok b') : b'.Orderly := by
  have hcollections := onlyCollectionsWait_fill hwaiting h.collections hstep
  obtain ⟨checked, nodes, filled, c, hchecked, hnodes, hfilled, -, rfl⟩ := fill_eq_ok hstep
  have hrun := (((h.pop hwaiting).makes hchecked).flatten hnodes).makes hfilled
  refine ⟨?_, hrun.nodup, fun i hi => ?_, hcollections⟩
  · exact Array.size_setIfInBounds.trans hrun.size
  · exact Array.size_setIfInBounds.symm ▸ hrun.lt i hi

end Orderly

/-! ## What is filled -/

/-- A collection that is new waits, and what has waited goes on. -/
theorem Makes.waiting (h : Makes b b') : b.waiting ⊆ b'.waiting ∧
    ∀ i c, b'.object? i = some c → (∀ s, c ≠ .scalar s) →
      b.object? i = some c ∨ i ∈ b'.waiting := by
  refine h.keep (P := fun b' => b.waiting ⊆ b'.waiting ∧ ∀ i c, b'.object? i = some c →
    (∀ s, c ≠ .scalar s) → b.object? i = some c ∨ i ∈ b'.waiting)
    ⟨List.Subset.refl _, fun i c hi _ => .inl hi⟩ ?_
  rintro b' id c ⟨hsubset, hmet⟩ - -
  have hwaiting : b'.waiting ⊆ (b'.place id c).waiting := by
    rcases waiting_place b' id c with hsame | ⟨hmore, -⟩
    · rw [hsame]
      exact List.Subset.refl _
    · rw [hmore]
      exact List.subset_append_left ..
  refine ⟨List.Subset.trans hsubset hwaiting, fun i c' hi hscalar => ?_⟩
  rw [object?_place] at hi
  split at hi
  · rename_i hid
    cases hi
    right
    rcases hid.1 with rfl
    cases c with
    | scalar s => exact absurd rfl (hscalar s)
    | _ => exact List.mem_append_right _ (List.mem_singleton.mpr rfl)
  · exact (hmet i c' hi hscalar).imp_right (hwaiting ·)

/-- After a filling, what has waited still waits, and every collection that is not the one that is
filled was there before or waits. -/
theorem waiting_fill (h : fill policy b id = .ok b') : b.waiting ⊆ b'.waiting ∧
    ∀ i c, b'.object? i = some c → (∀ s, c ≠ .scalar s) →
      i = id ∨ b.object? i = some c ∨ i ∈ b'.waiting := by
  obtain ⟨checked, nodes, filled, c, hchecked, -, hfilled, -, rfl⟩ := fill_eq_ok h
  have hfirst := hchecked.waiting
  have hsecond := hfilled.waiting
  refine ⟨List.Subset.trans hfirst.1 hsecond.1, fun i c' hi hscalar => ?_⟩
  rw [object?_setObject] at hi
  split at hi
  · rename_i hid
    exact .inl hid.1.symm
  · rcases hsecond.2 i c' hi hscalar with hi | hi
    · exact .inr ((hfirst.2 i c' hi hscalar).imp_right (hsecond.1 ·))
    · exact .inr (.inr hi)

theorem Makes.isSome (h : Makes b b') (hi : (b.object? i).isSome) : (b'.object? i).isSome := by
  obtain ⟨c, hc⟩ := Option.isSome_iff_exists.mp hi
  rw [h.object hc]
  rfl

theorem Makes.object?_eq_none (h : Makes b b') (hnone : b'.object? i = none) :
    b.object? i = none := by
  rw [← Option.not_isSome_iff_eq_none] at hnone ⊢
  exact fun hi => hnone (h.isSome hi)

/-- What waits had no object before, or has waited already. -/
theorem Makes.mem_waiting (h : Makes b b') (hi : i ∈ b'.waiting) :
    i ∈ b.waiting ∨ b.object? i = none := by
  have hstart : Makes b b := .refl
  refine (h.keep (P := fun b' => Makes b b' ∧ ∀ i ∈ b'.waiting, i ∈ b.waiting ∨
    b.object? i = none) ⟨hstart, fun _ hi => .inl hi⟩ ?_).2 i hi
  rintro b' id c ⟨hmakes, hwaiting⟩ hnone hc
  refine ⟨hmakes.tail ⟨id, construct_eq_ok.mpr (.inr ⟨hnone, c, hc, rfl⟩)⟩, fun i hi => ?_⟩
  rcases waiting_place b' id c with hsame | ⟨hmore, -⟩
  · exact hwaiting i (hsame ▸ hi)
  · rw [hmore, List.mem_append, List.mem_singleton] at hi
    rcases hi with hi | rfl
    · exact hwaiting i hi
    · exact .inr (hmakes.object?_eq_none hnone)

/-- Objects stay, though collections are filled. -/
theorem isSome_fill (h : fill policy b id = .ok b') (hi : (b.object? i).isSome) :
    (b'.object? i).isSome := by
  obtain ⟨checked, nodes, filled, c, hchecked, -, hfilled, -, rfl⟩ := fill_eq_ok h
  obtain ⟨c', hc'⟩ := Option.isSome_iff_exists.mp hi
  rw [object?_setObject, hfilled.object (hchecked.object hc')]
  split <;> rfl

theorem object?_eq_none_of_fill (h : fill policy b id = .ok b') (hnone : b'.object? i = none) :
    b.object? i = none := by
  rw [← Option.not_isSome_iff_eq_none] at hnone ⊢
  exact fun hi => hnone (isSome_fill h hi)

theorem mem_waiting_fill (h : fill policy b id = .ok b') (hi : i ∈ b'.waiting) :
    i ∈ b.waiting ∨ b.object? i = none := by
  obtain ⟨checked, nodes, filled, c, hchecked, -, hfilled, -, rfl⟩ := fill_eq_ok h
  rcases hfilled.mem_waiting hi with hi | hnone
  · exact hchecked.mem_waiting hi
  · exact .inr (hchecked.object?_eq_none hnone)

/-! ## Fillings that may still come -/

/-- How many nodes have no object yet. -/
def unmade (b : Builder) : Nat := b.objects.toList.countP Option.isNone

/-- How many fillings may still come. -/
def owed (b : Builder) : Nat := b.unmade + b.waiting.length

theorem owed_ofNodes (nodes : Merge.Nodes) : (ofNodes nodes).owed = nodes.size := by
  simp [ofNodes, owed, unmade, List.countP_replicate]

theorem unmade_setObject (hid : id < b.objects.size) (c : Cell) :
    (b.setObject id c).unmade + (if b.object? id = none then 1 else 0) = b.unmade := by
  have hlength : id < b.objects.toList.length := by rwa [Array.length_toList]
  have hobject : b.object? id = b.objects.toList[id] := by
    unfold object?
    rw [Array.getD_eq_getD_getElem?, Array.getElem?_eq_getElem hid]
    rfl
  have hpos : b.objects.toList[id] = none → 0 < b.objects.toList.countP Option.isNone := fun h =>
    List.countP_pos_iff.mpr ⟨_, List.getElem_mem hlength, by rw [h]; rfl⟩
  unfold unmade setObject
  rw [hobject, Array.toList_setIfInBounds, List.countP_set hlength]
  cases h : b.objects.toList[id] with
  | none =>
    have := hpos h
    simp only [Option.isNone_none, Option.isNone_some, if_true, if_false, Bool.false_eq_true]
    omega
  | some c' => simp

/-- A node that gets its object is one less without; it waits if it is a collection. -/
theorem owed_place (hnone : b.object? id = none) (hid : id < b.objects.size) (c : Cell) :
    (b.place id c).owed ≤ b.owed := by
  have hunmade := unmade_setObject hid c
  rw [if_pos hnone] at hunmade
  unfold owed
  cases c with
  | scalar s =>
    show (b.setObject id (.scalar s)).unmade + b.waiting.length ≤ _
    omega
  | _ =>
    show (b.setObject id _).unmade + (b.waiting ++ [id]).length ≤ _
    rw [List.length_append, List.length_singleton]
    omega

theorem Makes.owed (h : Makes b b') (hb : b.Orderly) : b'.owed ≤ b.owed := by
  refine (h.keep (P := fun b' => b'.Orderly ∧ b'.owed ≤ b.owed) ⟨hb, Nat.le_refl _⟩ ?_).2
  rintro b' id c ⟨hb', hle⟩ hnone hc
  exact ⟨hb'.place hnone hc, Nat.le_trans (owed_place hnone (hb'.lt_of_newCell hc) c) hle⟩

/-- Each filling pays for one of those that may come. -/
theorem Orderly.owed_fill (h : b.Orderly) (hwaiting : b.waiting = id :: rest)
    (hstep : Builder.fill policy { b with waiting := rest } id = .ok b') : b'.owed < b.owed := by
  obtain ⟨checked, nodes, filled, c, hchecked, hnodes, hfilled, -, rfl⟩ := fill_eq_ok hstep
  have hpop := h.pop hwaiting
  have horderly := (hpop.makes hchecked).flatten hnodes
  have hid : id < filled.objects.size := by
    have hid := h.lt id (hwaiting ▸ List.mem_cons_self)
    rw [hfilled.size]
    exact hchecked.size ▸ hid
  have hset : (filled.setObject id c).owed ≤ filled.owed := by
    have hunmade := unmade_setObject hid c
    show (filled.setObject id c).unmade + filled.waiting.length ≤ _
    unfold Builder.owed
    omega
  calc (filled.setObject id c).owed ≤ filled.owed := hset
    _ ≤ checked.owed := hfilled.owed horderly
    _ ≤ Builder.owed { b with waiting := rest } := hchecked.owed hpop
    _ < b.owed := by
      unfold Builder.owed
      rw [hwaiting]
      exact Nat.lt_succ_self _

/-! ## Whole runs -/

/-- What every filling keeps holds at the end of a run, when nothing waits any longer. -/
theorem fillAll_run {P : Builder → Prop}
    (hstep : ∀ {b id rest b'}, b.Orderly → P b → b.waiting = id :: rest →
      fill policy { b with waiting := rest } id = .ok b' → P b')
    {fuel : Nat} (horderly : b.Orderly) (hfuel : b.owed ≤ fuel) (hb : P b)
    (h : fillAll policy fuel b = .ok b') : b'.Orderly ∧ b'.waiting = [] ∧ P b' := by
  induction fuel generalizing b with
  | zero =>
    cases h
    refine ⟨horderly, List.length_eq_zero_iff.mp ?_, hb⟩
    unfold owed at hfuel
    omega
  | succ fuel ih =>
    unfold fillAll at h
    split at h
    · rename_i hwaiting
      cases h
      exact ⟨horderly, hwaiting, hb⟩
    · rename_i id rest hwaiting
      obtain ⟨mid, hmid, h⟩ := bind_eq_ok.mp h
      exact ih (horderly.fill hwaiting hmid)
        (Nat.le_of_lt_succ (Nat.lt_of_lt_of_le (horderly.owed_fill hwaiting hmid) hfuel))
        (hstep horderly hb hwaiting hmid) h

end Builder

namespace Document

variable {g : NodeGraph} {graph : Graph} {policy : KeyPolicy}

/-- What holds once the root is made and is kept by every filling holds of the objects of the whole
document, when nothing waits any longer. -/
theorem ofNodes_run {P : Builder → Prop}
    (hroot : ∀ {b}, (Builder.ofNodes g.nodes).construct g.root = .ok b → P b)
    (hstep : ∀ {b id rest b'}, b.Orderly → P b → b.waiting = id :: rest →
      Builder.fill policy { b with waiting := rest } id = .ok b' → P b')
    (h : ofNodes policy g = .ok graph) :
    ∃ b, b.Orderly ∧ b.waiting = [] ∧ P b ∧
      graph = ⟨b.objects.map fun o => o.getD (.scalar .null), g.root⟩ := by
  obtain ⟨start, hstart, h⟩ := bind_eq_ok.mp h
  obtain ⟨b, hb, h⟩ := bind_eq_ok.mp h
  cases h
  have hmakes := Builder.Makes.construct hstart
  have horderly := Builder.orderly_ofNodes g.nodes
  have hfuel : start.owed ≤ g.nodes.size :=
    Builder.owed_ofNodes g.nodes ▸ hmakes.owed horderly
  obtain ⟨hend, hwaiting, hP⟩ :=
    Builder.fillAll_run hstep (horderly.makes hmakes) hfuel (hroot hstart) hb
  exact ⟨b, hend, hwaiting, hP, rfl⟩

end Document

end BootConfig.Yaml
