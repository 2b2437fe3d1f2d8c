import BootConfig.Proofs.Yaml.DistinctKeys

/-!
# Documents that are accepted

A document that has a value has the same value with unique keys if and only if every mapping passes
the check when it is its turn. A mapping that was merged into another one before may have entries by
then that were not written in it; one without merge keys always has the entries it was written with.

* `Builder.fill_unique_iff`: when a mapping passes the check.
* `Document.EntriesStay`: mappings have the entries they were written with when they are filled.
* `Document.ofNodes_unique_iff`: when a document has the same value with unique keys.
-/

namespace BootConfig.Yaml

open Merge (nodeAt entriesOf ownEntries withoutMergeKeys isMergeKey NoMergeKeys MergesFlat)

namespace Builder

variable {b b' : Builder} {id i : NodeId} {c : Cell} {s : Scalar} {origin nodes : Merge.Nodes}
  {policy : KeyPolicy} {rest : List NodeId}

/-! ## One mapping -/

theorem Orderly.lt_of_keyOf? (h : b.Orderly) (hs : b.keyOf? i = some s) : i < b.objects.size := by
  rcases keyOf?_eq_some hs with hobject | ⟨-, hcell⟩
  · exact lt_size_of_object hobject
  · exact h.lt_of_newCell hcell

/-- If keys stay, what a key stands for is the same after merge keys are replaced. -/
theorem KeysStay.keyOf? (h : b.KeysStay id) (hnodes : Merge.flatten b.nodes id = .ok nodes)
    (hi : OwnKey b.nodes (entriesOf b.nodes id) i) :
    Builder.keyOf? { b with nodes := nodes } i = b.keyOf? i := by
  have hsame : object? { b with nodes := nodes } i = b.object? i := rfl
  unfold Builder.keyOf?
  rw [hsame]
  cases hobject : b.object? i with
  | some c => cases c <;> rfl
  | none => rw [h nodes hnodes i hi hobject]

/-- The entries of a mapping are bound in the same way with the check if its own keys stay and are
different from each other. -/
theorem mapping_unique {filled : Builder} {bound : List (Scalar × CellId)} (horderly : b.Orderly)
    (hstay : b.KeysStay id) (hapart : b.KeysApart (ownEntries b.nodes id))
    (h : mapping .overriding b id = .ok (filled, bound)) :
    mapping .unique b id = .ok (filled, bound) := by
  obtain ⟨entries, _, nodes, hcontent, hb, hflatten, hbind⟩ := mapping_eq_ok.mp h
  cases hb
  have hentries : entriesOf b.nodes id = entries := Merge.entriesOf_eq hcontent
  have hkept : (ownEntries b.nodes id).Sublist (entriesOf nodes id) :=
    (Merge.evolves_flatten hflatten).kept id
  have hkeys : ∀ e ∈ ownEntries b.nodes id, ∃ s, b.keyOf? e.1 = some s := by
    intro e he
    obtain ⟨s, hs⟩ := keys_bindAll hbind (hkept.subset he)
    obtain ⟨hmem, hown⟩ := Merge.mem_ownEntries.mp he
    refine ⟨s, ?_⟩
    rw [← hstay.keyOf? hflatten ⟨e, hmem, hown, rfl⟩, ← (makes_bindAll hbind).keyOf?]
    exact keyOf?_of_object hs
  have hchecked : ∃ checked, checkUnique id b [] entries = .ok checked := by
    unfold ownEntries at hapart hkeys
    rw [hentries] at hapart hkeys
    exact (checkUnique_iff horderly hkeys).mpr ⟨hapart, by simp⟩
  obtain ⟨checked, hchecked⟩ := hchecked
  have hmakes := makes_checkUnique hchecked
  have hscalars : ∀ i, OwnKey b.nodes entries i → ∃ s, checked.object? i = some (.scalar s) := by
    rintro i ⟨e, he, hown, rfl⟩
    obtain ⟨s, hs⟩ := hkeys e (Merge.mem_ownEntries.mpr ⟨hentries ▸ he, hown⟩)
    have hsome := isSome_checkUnique hchecked ⟨e, he, hown, rfl⟩ (horderly.lt_of_keyOf? hs)
    rw [← hmakes.keyOf?] at hs
    rcases keyOf?_eq_some hs with hobject | ⟨hnone, -⟩
    · exact ⟨s, hobject⟩
    · rw [hnone] at hsome
      cases hsome
  -- the check has only made objects ahead of time, and none is ahead when the entries are bound
  obtain ⟨ahead, hahead, hend⟩ :=
    (ahead_checkUnique hstay hcontent hchecked hflatten hscalars).bindAll_ahead hbind
  have hsame : ahead = filled := by
    refine hend.eq fun i ⟨⟨e, he, hown, hi⟩, hall⟩ => ?_
    exact hall e (hkept.subset (Merge.mem_ownEntries.mpr ⟨hentries ▸ he, hown⟩)) hi.symm
  rw [← hsame]
  exact mapping_eq_ok.mpr
    ⟨entries, checked, nodes, hcontent, hchecked, hmakes.nodes ▸ hflatten, hahead⟩

/-- The own keys of a mapping are different from each other, and no replacement of its merge keys
changes what they stand for. -/
def KeysDistinct (b : Builder) (id : NodeId) : Prop :=
  b.KeysStay id ∧ b.KeysApart (ownEntries b.nodes id)

/-- A collection is filled in the same way with the check if and only if its own keys are
distinct. -/
theorem fill_unique_iff (horderly : b.Orderly)
    (hid : ∃ c, b.object? id = some c ∧ ∀ s, c ≠ .scalar s) (h : fill .overriding b id = .ok b') :
    fill .unique b id = .ok b' ↔ b.KeysDistinct id := by
  refine ⟨fun hunique => ?_, fun ⟨hstay, hapart⟩ => ?_⟩
  · rcases fill_overriding (fun _ => hid.imp fun _ hc => hc.1) hunique with
      ⟨hstay, -⟩ | ⟨-, hdiffer⟩
    · exact ⟨hstay, (ownKeys_fill horderly hid hunique).2⟩
    · obtain ⟨i, s, s', hs, hs', hne⟩ := hdiffer b' h
      rw [hs] at hs'
      cases hs'
      exact absurd rfl hne
  · rcases fill_cases b id with ⟨f, -, hfill⟩ | ⟨r, hfill, -⟩
    · obtain ⟨filled, bound, hmapping, hb'⟩ := (hfill .overriding b').mp h
      exact (hfill .unique b').mpr
        ⟨filled, bound, mapping_unique horderly hstay hapart hmapping, hb'⟩
    · rw [hfill] at h ⊢
      exact h

/-! ## Whole runs -/

/-- The own keys of every mapping are distinct when it is filled. -/
def KeysDistinctThrough : Nat → Builder → Prop
  | 0, _ => True
  | fuel + 1, b =>
    match b.waiting with
    | [] => True
    | id :: rest => ∀ filled, fill .overriding { b with waiting := rest } id = .ok filled →
      KeysDistinct { b with waiting := rest } id ∧ KeysDistinctThrough fuel filled

theorem fillAll_unique_iff {fuel : Nat} (horderly : b.Orderly)
    (h : fillAll .overriding fuel b = .ok b') :
    fillAll .unique fuel b = .ok b' ↔ KeysDistinctThrough fuel b := by
  induction fuel generalizing b with
  | zero => exact iff_of_true h trivial
  | succ fuel ih =>
    unfold fillAll at h ⊢
    unfold KeysDistinctThrough
    cases hwaiting : b.waiting with
    | nil =>
      rw [hwaiting] at h
      exact iff_of_true h trivial
    | cons id rest =>
      rw [hwaiting] at h
      obtain ⟨filled, hfilled, h⟩ := bind_eq_ok.mp h
      have hid := horderly.object (hwaiting ▸ List.mem_cons_self)
      have hone := fill_unique_iff (horderly.pop hwaiting) hid hfilled
      have hrest := ih (horderly.fill hwaiting hfilled) h
      refine ⟨fun hunique => ?_, fun hdistinct => ?_⟩
      · obtain ⟨filled', hfilled', hunique⟩ := bind_eq_ok.mp hunique
        have hsame : filled' = filled := by
          rcases fill_overriding (b := { b with waiting := rest })
            (fun _ => hid.imp fun _ hc => hc.1) hfilled' with ⟨-, hsame⟩ | ⟨-, hdiffer⟩
          · exact Except.ok.inj (hsame.symm.trans hfilled)
          · -- objects stay, so that a key that is another scalar is one in the end
            obtain ⟨i, s, s', hs, hs', hne⟩ := (hdiffer filled hfilled).fillAll
              (onlyCollectionsWait_fill hwaiting horderly.collections hfilled')
              (onlyCollectionsWait_fill hwaiting horderly.collections hfilled) hunique h
            rw [hs] at hs'
            cases hs'
            exact absurd rfl hne
        rw [hsame] at hfilled' hunique
        intro other hother
        rw [hfilled] at hother
        cases hother
        exact ⟨hone.mp hfilled', hrest.mp hunique⟩
      · obtain ⟨hkeys, hthrough⟩ := hdistinct filled hfilled
        exact bind_eq_ok.mpr ⟨filled, hone.mpr hkeys, hrest.mpr hthrough⟩

/-! ## Entries that stay -/

/-- Every mapping has the entries it was written with when it is filled. -/
def EntriesStayThrough (origin : Merge.Nodes) : Nat → Builder → Prop
  | 0, _ => True
  | fuel + 1, b =>
    match b.waiting with
    | [] => True
    | id :: rest => ∀ filled, fill .overriding { b with waiting := rest } id = .ok filled →
      entriesOf b.nodes id = entriesOf origin id ∧ EntriesStayThrough origin fuel filled

/-- The mappings that are not filled, and those without merge keys, have the entries they were
written with. -/
structure Unmerged (origin : Merge.Nodes) (b : Builder) : Prop where
  evolves : Merge.Evolves origin b.nodes
  entries : ∀ i, b.object? i = none ∨ i ∈ b.waiting ∨ NoMergeKeys origin i →
    entriesOf b.nodes i = entriesOf origin i

theorem Unmerged.fill (h : Unmerged origin b) (hflat : MergesFlat origin id)
    (horderly : b.Orderly) (hwaiting : b.waiting = id :: rest)
    (hstep : fill policy { b with waiting := rest } id = .ok b') : Unmerged origin b' := by
  have hid : entriesOf b.nodes id = entriesOf origin id :=
    h.entries id (.inr (.inl (hwaiting ▸ List.mem_cons_self)))
  obtain ⟨c, hobject, -⟩ := horderly.object (hwaiting ▸ List.mem_cons_self)
  have hnone : ∀ i, b'.object? i = none → b.object? i = none := fun i hi => by
    have hbefore := object?_eq_none_of_fill hstep hi
    exact hbefore
  have hmerges : MergesFlat b.nodes id := by
    refine hflat.mono h.evolves fun i hi => ?_
    rcases hi with rfl | hplain
    · rw [hid]
      exact List.Subset.refl _
    · rw [h.entries i (.inr (.inr hplain))]
      exact List.Subset.refl _
  have hevolves : Merge.Evolves b.nodes b'.nodes := by
    rcases nodes_fill hstep with hsame | hflatten
    · rw [hsame]
      exact .refl _
    · exact Merge.evolves_flatten hflatten
  refine ⟨h.evolves.trans hevolves, fun i hi => ?_⟩
  by_cases hne : i = id
  · -- the collection that is filled now waits no longer
    rcases hne with rfl
    have hplain : NoMergeKeys origin i := by
      rcases hi with hmade | hwaits | hplain
      · cases hobject.symm.trans (hnone i hmade)
      · rcases mem_waiting_fill hstep hwaits with hrest | hnew
        · have hnodup := horderly.nodup
          rw [hwaiting, List.nodup_cons] at hnodup
          exact absurd hrest hnodup.1
        · cases hobject.symm.trans hnew
      · exact hplain
    rw [← hid]
    rcases nodes_fill hstep with hsame | hflatten
    · rw [hsame]
    · exact Merge.entriesOf_of_noMergeKeys
        (hplain.mono h.evolves (hid ▸ List.Subset.refl _)) hflatten i
  · have hsame : entriesOf b'.nodes i = entriesOf b.nodes i := by
      rcases nodes_fill hstep with hsame | hflatten
      · rw [hsame]
      · exact Merge.entriesOf_flatten hmerges hflatten hne
    rw [hsame]
    refine h.entries i ?_
    rcases hi with hmade | hwaits | hplain
    · exact .inl (hnone i hmade)
    · rcases mem_waiting_fill hstep hwaits with hrest | hnew
      · exact .inr (.inl (hwaiting ▸ List.mem_cons_of_mem _ hrest))
      · exact .inl hnew
    · exact .inr (.inr hplain)

/-- Entries stay if no mapping that is merged has merge keys. -/
theorem Unmerged.entriesStayThrough {fuel : Nat} (h : Unmerged origin b)
    (hflat : ∀ i, MergesFlat origin i) (horderly : b.Orderly) :
    EntriesStayThrough origin fuel b := by
  induction fuel generalizing b with
  | zero => trivial
  | succ fuel ih =>
    unfold EntriesStayThrough
    split
    · trivial
    · rename_i id rest hwaiting
      intro filled hfilled
      exact ⟨h.entries id (.inr (.inl (hwaiting ▸ List.mem_cons_self))),
        ih (h.fill (hflat id) horderly hwaiting hfilled) (horderly.fill hwaiting hfilled)⟩

end Builder

namespace Document

open Builder (Apart Steady Tracks)

variable {g : NodeGraph} {graph : Graph} {b : Builder} {origin : Merge.Nodes} {id key : NodeId}

/-- A key that no other node matters to stands for what it does as it is composed. -/
theorem keyScalar?_of_keyOf? (htracks : Tracks origin b) (hsteady : Steady origin key) {s : Scalar}
    (hs : b.keyOf? key = some s) : keyScalar? origin key = some s := by
  have hcell : (Builder.ofNodes origin).newCell key = .ok (.scalar s) := by
    rcases Builder.keyOf?_eq_some hs with hobject | ⟨-, hcell⟩
    · obtain ⟨c, hc, hsame⟩ := htracks.cells key _ hobject hsteady
      rw [hc, (hsame s).mp rfl]
    · rw [← hcell, hsteady.newCell htracks.evolves]
  have hkind : (nodeAt origin key).kind ≠ .mapping := by
    refine hsteady.kind.resolve_left fun htag => ?_
    rw [Builder.newCell_of_collectionTag (b := Builder.ofNodes origin) htag] at hcell
    exact Builder.emptyCell_ne_scalar _ s (Except.ok.inj hcell)
  unfold keyScalar?
  rw [if_neg hkind]
  exact Builder.keyOf?_of_newCell (Builder.object?_ofNodes origin key) hcell

/-- The own keys of a mapping are distinct when it is filled if it has the entries it was written
with, and no two keys among them are equal. -/
theorem keysDistinct_of_uniqueKeys (htracks : Tracks origin b)
    (hentries : entriesOf b.nodes id = entriesOf origin id)
    (hsteady : ∀ e ∈ ownEntries origin id, Steady origin e.1) (hunique : UniqueKeys origin id) :
    b.KeysDistinct id := by
  have hown : ownEntries b.nodes id = ownEntries origin id := by
    unfold ownEntries withoutMergeKeys
    rw [hentries]
    exact List.filter_congr fun e _ => by rw [htracks.evolves.isMergeKey_eq]
  refine ⟨fun nodes hnodes i ⟨e, he, hkey, hi⟩ _ => ?_, ?_⟩
  · subst hi
    have hsteady := hsteady e (hown ▸ Merge.mem_ownEntries.mpr ⟨he, hkey⟩)
    have hevolves := htracks.evolves.trans (Merge.evolves_flatten hnodes)
    exact (hsteady.newCell (b := { b with nodes := nodes }) hevolves).trans
      (hsteady.newCell htracks.evolves).symm
  · unfold Builder.KeysApart
    rw [hown]
    refine hunique.imp_of_mem fun {e e'} he he' hne => ?_
    cases hs : b.keyOf? e.1 with
    | none => trivial
    | some s =>
      cases hs' : b.keyOf? e'.1 with
      | none => trivial
      | some s' =>
        rwa [keyScalar?_of_keyOf? htracks (hsteady e he) hs,
          keyScalar?_of_keyOf? htracks (hsteady e' he') hs'] at hne

theorem keysDistinctThrough_of_uniqueKeys {fuel : Nat} (htracks : Tracks origin b)
    (horderly : b.Orderly) (hsteady : ∀ i, ∀ e ∈ ownEntries origin i, Steady origin e.1)
    (hunique : ∀ i, UniqueKeys origin i) (hstay : b.EntriesStayThrough origin fuel) :
    b.KeysDistinctThrough fuel := by
  induction fuel generalizing b with
  | zero => trivial
  | succ fuel ih =>
    unfold Builder.KeysDistinctThrough
    unfold Builder.EntriesStayThrough at hstay
    split
    · trivial
    · rename_i id rest hwaiting
      rw [hwaiting] at hstay
      intro filled hfilled
      obtain ⟨hentries, hrest⟩ := hstay filled hfilled
      exact ⟨keysDistinct_of_uniqueKeys ⟨htracks.evolves, htracks.cells⟩ hentries (hsteady id)
        (hunique id), ih (htracks.fill horderly hwaiting hfilled)
          (horderly.fill hwaiting hfilled) hrest⟩

/-- The own keys of every mapping are distinct when it is filled, as a document is read without a
check. -/
def KeysDistinct (g : NodeGraph) : Prop :=
  ∀ b, (Builder.ofNodes g.nodes).construct g.root = .ok b → b.KeysDistinctThrough g.nodes.size

/-- Every mapping has the entries it was written with when it is filled. This can only fail for a
mapping with merge keys that is merged into another one that is filled first. -/
def EntriesStay (g : NodeGraph) : Prop :=
  ∀ b, (Builder.ofNodes g.nodes).construct g.root = .ok b →
    b.EntriesStayThrough g.nodes g.nodes.size

theorem entriesStay_of_mergesFlat (h : ∀ i, MergesFlat g.nodes i) : EntriesStay g := by
  intro b hb
  have hmakes := Builder.Makes.construct hb
  have hnodes : b.nodes = g.nodes := hmakes.nodes
  refine Builder.Unmerged.entriesStayThrough ⟨?_, fun i _ => ?_⟩ h
    ((Builder.orderly_ofNodes g.nodes).makes hmakes)
  · rw [hnodes]
    exact .refl _
  · rw [hnodes]

/-- A document that has a value has the same value with unique keys if and only if its keys are
distinct. They are if no two keys are equal in any mapping as it is written, what they stand for
does not depend on other nodes, and mappings are filled with the entries they were written with;
which they are if no mapping that is merged has merge keys. -/
theorem ofNodes_unique_iff (h : ofNodes .overriding g = .ok graph) :
    (ofNodes .unique g = .ok graph ↔ KeysDistinct g) ∧
      ((∀ i, UniqueKeys g.nodes i) → (∀ i, ∀ e ∈ ownEntries g.nodes i, Steady g.nodes e.1) →
        EntriesStay g → ofNodes .unique g = .ok graph) ∧
      ((∀ i, MergesFlat g.nodes i) → EntriesStay g) := by
  obtain ⟨b, hb, h⟩ := bind_eq_ok.mp h
  obtain ⟨b', hb', h⟩ := bind_eq_ok.mp h
  cases h
  have hmakes := Builder.Makes.construct hb
  have horderly := (Builder.orderly_ofNodes g.nodes).makes hmakes
  have hdistinct : KeysDistinct g ↔ b.KeysDistinctThrough g.nodes.size := by
    unfold KeysDistinct
    rw [hb]
    simp
  have hrun := Builder.fillAll_unique_iff horderly hb'
  have hiff : ofNodes .unique g = .ok ⟨b'.objects.map fun o => o.getD (.scalar .null), g.root⟩ ↔
      KeysDistinct g := by
    rw [hdistinct, ← hrun]
    refine ⟨fun hunique => ?_, fun hunique => ?_⟩
    · obtain ⟨_, hb₂, hunique⟩ := bind_eq_ok.mp hunique
      rw [hb] at hb₂
      cases hb₂
      obtain ⟨other, hother, hgraph⟩ := bind_eq_ok.mp hunique
      rcases Builder.fillAll_overriding horderly.collections hother with
        ⟨-, hsame⟩ | ⟨-, hdiffer⟩
      · rw [hb'] at hsame
        cases hsame
        exact hother
      · -- some key is another scalar, in the value too
        obtain ⟨i, s, s', hs, hs', hne⟩ := hdiffer b' hb'
        have hcell := Builder.cell_of_object hs g.root
        rw [Except.ok.inj hgraph, Builder.cell_of_object hs'] at hcell
        exact absurd (Cell.scalar.inj hcell).symm hne
    · exact bind_eq_ok.mpr ⟨b, hb, bind_eq_ok.mpr ⟨b', hunique, rfl⟩⟩
  refine ⟨hiff, fun hkeys hsteady hstay => ?_, entriesStay_of_mergesFlat⟩
  have htracks := (Builder.tracks_ofNodes g.nodes).makes hmakes
  exact hiff.mpr (hdistinct.mpr
    (keysDistinctThrough_of_uniqueKeys htracks horderly hsteady hkeys (hstay b hb)))

theorem uniqueKeys_of_lt_size {nodes : Merge.Nodes} (h : ∀ i < nodes.size, UniqueKeys nodes i)
    (i : NodeId) : UniqueKeys nodes i := by
  refine Merge.forall_of_lt_size (fun i hi => ?_) h i
  unfold UniqueKeys ownEntries
  rw [hi]
  exact List.Pairwise.nil

/-- A key that is merged is overridden where it is merged. -/
theorem ofNodes_unique_iff_overridden :
    ∃ g graph, NodeGraph.ofParsed (Parsed.ofLexed (Lexed.ofChars
        "base: &b \x7bp: 1\x7d\nd: \x7b<<: *b, p: 2\x7d\n".toList)) = .ok (some g) ∧
      ofNodes .overriding g = .ok graph ∧ ofNodes .unique g = .ok graph ∧ KeysDistinct g ∧
      graph.cell 6 = .map [(.text (Text.ofString "p"), 9)] := by
  have h : ((NodeGraph.ofParsed (Parsed.ofLexed (Lexed.ofChars
      "base: &b \x7bp: 1\x7d\nd: \x7b<<: *b, p: 2\x7d\n".toList))).toOption.join.any fun g =>
        decide (∀ i < g.nodes.size, UniqueKeys g.nodes i) &&
        decide (∀ i < g.nodes.size, ∀ e ∈ ownEntries g.nodes i, Steady g.nodes e.1) &&
        decide (∀ i < g.nodes.size, MergesFlat g.nodes i) &&
        (ofNodes .overriding g).toOption.any fun graph =>
          graph.cell 6 == .map [(.text (Text.ofString "p"), 9)]) = true := by
    decide +kernel
  simp only [Option.any_eq_true, Bool.and_eq_true, beq_iff_eq, decide_eq_true_eq] at h
  obtain ⟨g, hg, ⟨⟨hkeys, hsteady⟩, hflat⟩, graph, hgraph, hcell⟩ := h
  have hgraph := eq_ok_of_toOption hgraph
  obtain ⟨hiff, hunique, hstay⟩ := ofNodes_unique_iff hgraph
  have haccepted := hunique (uniqueKeys_of_lt_size hkeys)
    (Merge.forall_of_lt_size (fun i hi e he => by simp [ownEntries, withoutMergeKeys, hi] at he)
      hsteady)
    (hstay (Merge.forall_of_lt_size (fun i hi e he => by simp [hi] at he) hflat))
  exact ⟨g, graph, eq_ok_of_toOption (Option.join_eq_some_iff.mp hg), hgraph, haccepted,
    hiff.mp haccepted, hcell⟩

/-- Why a document is refused. -/
def refusal? {α : Type} : Except Failure α → Option Error
  | .error (.refused e) => some e
  | _ => none

theorem eq_error_of_refusal? {α : Type} {r : Except Failure α} {e : Error}
    (h : refusal? r = some e) : r = .error (.refused e) := by
  unfold refusal? at h
  split at h
  · cases h
    rfl
  · cases h

/-- A mapping that is merged before it is filled: `p` is overridden in it, and found twice then. -/
theorem ofNodes_unique_reused :
    ∃ g graph, NodeGraph.ofParsed (Parsed.ofLexed (Lexed.ofChars
        "c: \x7b<<: &x \x7b<<: \x7bp: 1\x7d, p: 2\x7d\x7d\na: \x7bb: *x\x7d\n".toList)) =
          .ok (some g) ∧
      (∀ i, UniqueKeys g.nodes i) ∧ ofNodes .overriding g = .ok graph ∧
      graph.cell 4 = .map [(.text (Text.ofString "p"), 10)] ∧
      ofNodes .unique g = .error (.refused (.constructive
        (.during .mapping ⟨0, 8⟩ (.duplicateKey "'p'") ⟨0, 24⟩))) := by
  have h : ((NodeGraph.ofParsed (Parsed.ofLexed (Lexed.ofChars
      "c: \x7b<<: &x \x7b<<: \x7bp: 1\x7d, p: 2\x7d\x7d\na: \x7bb: *x\x7d\n".toList))
      ).toOption.join.any fun g => decide (∀ i < g.nodes.size, UniqueKeys g.nodes i) &&
        ((ofNodes .overriding g).toOption.any fun graph =>
          graph.cell 4 == .map [(.text (Text.ofString "p"), 10)]) &&
        refusal? (ofNodes .unique g) == some (.constructive
          (.during .mapping ⟨0, 8⟩ (.duplicateKey "'p'") ⟨0, 24⟩))) = true := by
    decide +kernel
  simp only [Option.any_eq_true, Bool.and_eq_true, beq_iff_eq, decide_eq_true_eq] at h
  obtain ⟨g, hg, ⟨hkeys, graph, hgraph, hcell⟩, hrefused⟩ := h
  refine ⟨g, graph, eq_ok_of_toOption (Option.join_eq_some_iff.mp hg), uniqueKeys_of_lt_size hkeys,
    eq_ok_of_toOption hgraph, hcell, eq_error_of_refusal? hrefused⟩

end Document

end BootConfig.Yaml
