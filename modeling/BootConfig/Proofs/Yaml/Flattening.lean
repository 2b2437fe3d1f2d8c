import BootConfig.Yaml.MergeKeys
import BootConfig.Proofs.Failing

/-!
# Flattened mappings

What the replacement of merge keys does to the nodes of a document. It may touch every mapping that
is merged, directly or not, but leaves much of each node.

* `Merge.Evolves`: what is left of the nodes.
* `Merge.evolves_flatten`: flattening a mapping is a change of this kind.
* `Merge.allEntries_flatten`: every entry of a flattened mapping is an entry of some mapping before.
* `Merge.entriesOf_flatten`: other mappings keep their entries if what is merged has no merge keys.
-/

namespace BootConfig.Yaml.Merge

variable {nodes nodes' new : Nodes}

/-! ## Single nodes -/

theorem nodeAt_modify (nodes : Nodes) (key id : NodeId) (f : Node → Node) :
    nodeAt (nodes.modify key f) id =
      if key = id ∧ id < nodes.size then f (nodeAt nodes id) else nodeAt nodes id := by
  unfold nodeAt
  rw [Array.getD_eq_getD_getElem?, Array.getD_eq_getD_getElem?, Array.getElem?_modify]
  by_cases hkey : key = id
  · by_cases hid : id < nodes.size
    · simp [hkey, hid]
    · simp [hkey, hid]
  · simp [hkey]

theorem lt_size_of_mapping {id : NodeId} {es : List (NodeId × NodeId)}
    (h : (nodeAt nodes id).content = .mapping es) : id < nodes.size := by
  refine Nat.lt_of_not_le fun hle => ?_
  have hnone : nodeAt nodes id = default := by
    unfold nodeAt
    rw [Array.getD_eq_getD_getElem?, Array.getElem?_eq_none hle]
    rfl
  rw [hnone] at h
  cases h

theorem entriesOf_eq {id : NodeId} {es : List (NodeId × NodeId)}
    (h : (nodeAt nodes id).content = .mapping es) : entriesOf nodes id = es := by
  unfold entriesOf
  rw [h]

theorem entriesOf_congr {id : NodeId} (h : (nodeAt new id).content = (nodeAt nodes id).content) :
    entriesOf new id = entriesOf nodes id := by
  unfold entriesOf
  rw [h]

/-- Only mappings have entries. -/
theorem content_of_mem {id : NodeId} {e : NodeId × NodeId} (h : e ∈ entriesOf nodes id) :
    (nodeAt nodes id).content = .mapping (entriesOf nodes id) := by
  unfold entriesOf at h ⊢
  split at h
  · rename_i es hes
    rw [hes]
  · cases h

def withoutMergeKeys (nodes : Nodes) (es : List (NodeId × NodeId)) : List (NodeId × NodeId) :=
  es.filter fun e => !isMergeKey nodes e.1

/-- The entries that a mapping has itself. -/
def ownEntries (nodes : Nodes) (id : NodeId) : List (NodeId × NodeId) :=
  withoutMergeKeys nodes (entriesOf nodes id)

theorem withoutMergeKeys_sublist (nodes : Nodes) (es : List (NodeId × NodeId)) :
    (withoutMergeKeys nodes es).Sublist es :=
  List.filter_sublist

theorem mem_ownEntries {id : NodeId} {e : NodeId × NodeId} :
    e ∈ ownEntries nodes id ↔ e ∈ entriesOf nodes id ∧ isMergeKey nodes e.1 = false := by
  unfold ownEntries withoutMergeKeys
  rw [List.mem_filter, Bool.not_eq_true']

theorem content_retagKey (nodes : Nodes) (key id : NodeId) :
    (nodeAt (retagKey nodes key) id).content = (nodeAt nodes id).content := by
  unfold retagKey
  split
  · rw [nodeAt_modify]
    split <;> rfl
  · rfl

/-- What holds of every node, and of what has no entries, holds of every number. -/
theorem forall_of_lt_size {P : NodeId → Prop} (hnone : ∀ i, entriesOf nodes i = [] → P i)
    (h : ∀ i < nodes.size, P i) (i : NodeId) : P i := by
  by_cases hi : i < nodes.size
  · exact h i hi
  · refine hnone i (List.eq_nil_iff_forall_not_mem.mpr fun e he => hi ?_)
    exact lt_size_of_mapping (content_of_mem he)

/-- The nodes after the keys of some entries have become strings where they are equals signs. -/
def retagAll (nodes : Nodes) (es : List (NodeId × NodeId)) : Nodes :=
  es.foldl (fun nodes e => retagKey nodes e.1) nodes

theorem retagAll_cons (nodes : Nodes) (e : NodeId × NodeId) (es : List (NodeId × NodeId)) :
    retagAll nodes (e :: es) = retagAll (retagKey nodes e.1) es := rfl

theorem content_retagAll (nodes : Nodes) (es : List (NodeId × NodeId)) (id : NodeId) :
    (nodeAt (retagAll nodes es) id).content = (nodeAt nodes id).content := by
  induction es generalizing nodes with
  | nil => rfl
  | cons e es ih => rw [retagAll_cons, ih, content_retagKey]

theorem entriesOf_retagAll (nodes : Nodes) (es : List (NodeId × NodeId)) (id : NodeId) :
    entriesOf (retagAll nodes es) id = entriesOf nodes id :=
  entriesOf_congr (content_retagAll nodes es id)

theorem content_setEntries (nodes : Nodes) (id i : NodeId) (es : List (NodeId × NodeId)) :
    (nodeAt (setEntries nodes id es) i).content =
      if id = i ∧ i < nodes.size then .mapping es else (nodeAt nodes i).content := by
  unfold setEntries
  rw [nodeAt_modify]
  split <;> rfl

theorem entriesOf_setEntries (nodes : Nodes) (id i : NodeId) (es : List (NodeId × NodeId)) :
    entriesOf (setEntries nodes id es) i =
      if id = i ∧ i < nodes.size then es else entriesOf nodes i := by
  have hcontent := content_setEntries nodes id i es
  split
  · rename_i hi
    rw [if_pos hi] at hcontent
    exact entriesOf_eq hcontent
  · rename_i hi
    rw [if_neg hi] at hcontent
    exact entriesOf_congr hcontent

/-! ## Changes of nodes -/

/-- What is left of the nodes when merge keys are replaced. Every node keeps its place and its kind.
A lone equals sign may become a string, and mappings may get other entries, but they keep those that
have no merge key. -/
structure Evolves (old new : Nodes) : Prop where
  size : new.size = old.size
  start : ∀ id, (nodeAt new id).start = (nodeAt old id).start
  tag : ∀ id, (nodeAt new id).tag = (nodeAt old id).tag ∨
    (nodeAt old id).tag = Tag.value ∧ (nodeAt new id).tag = Tag.str
  content : ∀ id, (nodeAt new id).content = (nodeAt old id).content ∨
    ∃ es es', (nodeAt old id).content = .mapping es ∧ (nodeAt new id).content = .mapping es'
  kept : ∀ id, (ownEntries old id).Sublist (entriesOf new id)

namespace Evolves

theorem refl (nodes : Nodes) : Evolves nodes nodes where
  size := rfl
  start _ := rfl
  tag _ := .inl rfl
  content _ := .inl rfl
  kept id := withoutMergeKeys_sublist nodes (entriesOf nodes id)

theorem tag_of_ne (h : Evolves nodes new) {id : NodeId} (hid : (nodeAt nodes id).tag ≠ Tag.value) :
    (nodeAt new id).tag = (nodeAt nodes id).tag :=
  (h.tag id).resolve_right fun hvalue => hid hvalue.1

/-- No key becomes a merge key, and none ceases to be one. -/
theorem isMergeKey_eq (h : Evolves nodes new) (key : NodeId) :
    isMergeKey new key = isMergeKey nodes key := by
  unfold isMergeKey
  rcases h.tag key with htag | ⟨hvalue, hstr⟩
  · rw [htag]
  · rw [hvalue, hstr]
    decide

/-- What is no mapping keeps its content. -/
theorem content_eq (h : Evolves nodes new) {id : NodeId}
    (hid : ∀ es, (nodeAt nodes id).content ≠ .mapping es) :
    (nodeAt new id).content = (nodeAt nodes id).content :=
  (h.content id).resolve_right fun ⟨es, _, hes, _⟩ => hid es hes

/-- A node that is no mapping is the same node, unless it was an equals sign. -/
theorem nodeAt_eq (h : Evolves nodes new) {id : NodeId}
    (htag : (nodeAt new id).tag = (nodeAt nodes id).tag)
    (hid : ∀ es, (nodeAt nodes id).content ≠ .mapping es) : nodeAt new id = nodeAt nodes id := by
  have hstart := h.start id
  have hcontent := h.content_eq hid
  revert htag hstart hcontent
  cases nodeAt new id
  cases nodeAt nodes id
  rintro rfl rfl rfl
  rfl

theorem content_mapping (h : Evolves nodes new) {id : NodeId} {es : List (NodeId × NodeId)}
    (hes : (nodeAt nodes id).content = .mapping es) :
    (nodeAt new id).content = .mapping (entriesOf new id) := by
  rcases h.content id with hsame | ⟨_, es', _, hes'⟩
  · rw [entriesOf_eq (hsame.trans hes), hsame, hes]
  · rw [entriesOf_eq hes', hes']

/-- The entries that a mapping has itself stay, in their order. -/
theorem ownEntries_sublist (h : Evolves nodes new) (id : NodeId) :
    (ownEntries nodes id).Sublist (ownEntries new id) := by
  have hown : withoutMergeKeys new (ownEntries nodes id) = ownEntries nodes id := by
    refine List.filter_eq_self.mpr fun e he => ?_
    rw [h.isMergeKey_eq, (mem_ownEntries.mp he).2]
    rfl
  rw [← hown]
  exact (h.kept id).filter _

theorem trans {mid : Nodes} (h : Evolves nodes mid) (h' : Evolves mid new) :
    Evolves nodes new where
  size := h'.size.trans h.size
  start id := (h'.start id).trans (h.start id)
  tag id := by
    rcases h.tag id with htag | ⟨hvalue, hstr⟩
    · rw [← htag]
      exact h'.tag id
    · refine .inr ⟨hvalue, ?_⟩
      rw [h'.tag_of_ne (by rw [hstr]; decide), hstr]
  content id := by
    rcases h.content id with hsame | ⟨es, es', hes, hes'⟩
    · rw [← hsame]
      exact h'.content id
    · exact .inr ⟨es, _, hes, h'.content_mapping hes'⟩
  kept id := (h.ownEntries_sublist id).trans (h'.kept id)

theorem retagKey (nodes : Nodes) (key : NodeId) : Evolves nodes (retagKey nodes key) := by
  have hcontent := content_retagKey nodes key
  refine ⟨?_, fun id => ?_, fun id => ?_, fun id => .inl (hcontent id), fun id => ?_⟩
  · unfold Merge.retagKey
    split
    · exact Array.size_modify
    · rfl
  · unfold Merge.retagKey
    split
    · rw [nodeAt_modify]
      split <;> rfl
    · rfl
  · unfold Merge.retagKey
    split
    · rename_i hvalue
      rw [nodeAt_modify]
      split
      · rename_i hid
        exact .inr ⟨hid.1 ▸ eq_of_beq hvalue, rfl⟩
      · exact .inl rfl
    · exact .inl rfl
  · rw [entriesOf_congr (hcontent id)]
    exact withoutMergeKeys_sublist ..

theorem retagAll (nodes : Nodes) (es : List (NodeId × NodeId)) :
    Evolves nodes (retagAll nodes es) := by
  induction es generalizing nodes with
  | nil => exact refl nodes
  | cons e es ih => exact (retagKey nodes e.1).trans (ih _)

theorem setEntries {id : NodeId} {old es : List (NodeId × NodeId)}
    (h : (nodeAt nodes id).content = .mapping old)
    (hkept : (withoutMergeKeys nodes old).Sublist es) :
    Evolves nodes (setEntries nodes id es) := by
  have hnode := fun i => nodeAt_modify nodes id i fun n => { n with content := .mapping es }
  refine ⟨Array.size_modify, fun i => ?_, fun i => .inl ?_, fun i => ?_, fun i => ?_⟩
  · unfold Merge.setEntries
    rw [hnode]
    split <;> rfl
  · unfold Merge.setEntries
    rw [hnode]
    split <;> rfl
  · rw [content_setEntries]
    split
    · rename_i hi
      exact .inr ⟨old, es, hi.1 ▸ h, rfl⟩
    · exact .inl rfl
  · rw [entriesOf_setEntries]
    split
    · rename_i hi
      unfold ownEntries
      rwa [← hi.1, entriesOf_eq h]
    · exact withoutMergeKeys_sublist ..

end Evolves

/-! ## Entries -/

/-- What holds of every entry of every mapping. -/
def AllEntries (P : NodeId × NodeId → Prop) (nodes : Nodes) : Prop :=
  ∀ id, ∀ e ∈ entriesOf nodes id, P e

variable {P : NodeId × NodeId → Prop}

theorem allEntries_retagAll (h : AllEntries P nodes) (es : List (NodeId × NodeId)) :
    AllEntries P (retagAll nodes es) := by
  intro id e he
  rw [entriesOf_retagAll] at he
  exact h id e he

theorem allEntries_setEntries {id : NodeId} {es : List (NodeId × NodeId)}
    (h : AllEntries P nodes) (hes : ∀ e ∈ es, P e) : AllEntries P (setEntries nodes id es) := by
  intro i e he
  rw [entriesOf_setEntries] at he
  split at he
  · exact hes e he
  · exact h i e he

/-! ## One step -/

/-- Flattens the mappings of a list that is merged into a mapping. -/
def flattenItems (fuel : Nat) (id : NodeId) (nodes : Nodes)
    (parts : List (List (NodeId × NodeId))) (items : List NodeId) :
    Except Failure (Nodes × List (List (NodeId × NodeId))) :=
  items.foldlM (fun (nodes, parts) item => do
    match (nodeAt nodes item).content with
    | .mapping _ =>
      let nodes ← flattenFrom fuel nodes item 0 []
      return (nodes, entriesOf nodes item :: parts)
    | other => throw (problem nodes id (.mergeOfNonMapping other.kind) item)) (nodes, parts)

/-- The entries before the first merge key from a position on. -/
def plainFrom (nodes : Nodes) (id : NodeId) (position : Nat) : List (NodeId × NodeId) :=
  ((entriesOf nodes id).drop position).takeWhile fun e => !isMergeKey nodes e.1

/-- The first entry that is not plain has a merge key. -/
theorem split_at_mergeKey {id key source : NodeId} {position : Nat}
    {rest : List (NodeId × NodeId)}
    (h : (entriesOf nodes id).drop (position + (plainFrom nodes id position).length) =
      (key, source) :: rest) :
    isMergeKey nodes key = true ∧ ∃ front,
      front.length = position + (plainFrom nodes id position).length ∧
      front = (entriesOf nodes id).take (position + (plainFrom nodes id position).length) ∧
      entriesOf nodes id = front ++ (key, source) :: rest := by
  refine ⟨?_, _, ?_, rfl, ?_⟩
  · have hdropWhile : ((entriesOf nodes id).drop position).dropWhile
        (fun e => !isMergeKey nodes e.1) = (key, source) :: rest := by
      have hdrop : (((entriesOf nodes id).drop position).drop
          (plainFrom nodes id position).length) = (key, source) :: rest := by
        rw [List.drop_drop, h]
      have hsplit : plainFrom nodes id position ++ ((entriesOf nodes id).drop position).dropWhile
          (fun e => !isMergeKey nodes e.1) = (entriesOf nodes id).drop position :=
        List.takeWhile_append_dropWhile
      rwa [← hsplit, List.drop_left' rfl] at hdrop
    have hhead := List.head?_dropWhile_not (fun e : NodeId × NodeId => !isMergeKey nodes e.1)
      ((entriesOf nodes id).drop position)
    rw [hdropWhile] at hhead
    simpa using hhead
  · have hlt : position + (plainFrom nodes id position).length < (entriesOf nodes id).length := by
      refine Nat.lt_of_not_le fun hle => ?_
      rw [List.drop_eq_nil_of_le hle] at h
      cases h
    rw [List.length_take, Nat.min_eq_left (Nat.le_of_lt hlt)]
  · rw [← h, List.take_append_drop]

/-- A node that is a sequence while a merge key is taken out was one before. -/
theorem content_sequence {id source : NodeId} {plain es : List (NodeId × NodeId)}
    {items : List NodeId}
    (h : (nodeAt (setEntries (retagAll nodes plain) id es) source).content = .sequence items) :
    (nodeAt nodes source).content = .sequence items := by
  rw [content_setEntries] at h
  split at h
  · cases h
  · rwa [content_retagAll] at h

/-- The nodes once all merge keys of a mapping have been seen. -/
def putMerged (nodes : Nodes) (id : NodeId) (merged : List (NodeId × NodeId)) : Nodes :=
  if merged.isEmpty then nodes else setEntries nodes id (merged ++ entriesOf nodes id)

/-- One step of a flattening: it comes to an end, or it takes out one merge key and gathers the
entries that the key stands for. -/
theorem flattenFrom_eq_ok {fuel : Nat} {id : NodeId} {position : Nat}
    {merged : List (NodeId × NodeId)} (h : flattenFrom fuel nodes id position merged = .ok new) :
    ∃ plain, new = putMerged (retagAll nodes plain) id merged ∨
      ∃ fuel' front key source rest mid gathered, fuel = fuel' + 1 ∧
        entriesOf nodes id = front ++ (key, source) :: rest ∧ isMergeKey nodes key = true ∧
        flattenFrom fuel' mid id front.length (merged ++ gathered) = .ok new ∧
        ((flattenFrom fuel' (setEntries (retagAll nodes plain) id (front ++ rest)) source 0 [] =
            .ok mid ∧ gathered = entriesOf mid source) ∨
          ∃ items parts, (nodeAt nodes source).content = .sequence items ∧ flattenItems fuel' id
              (setEntries (retagAll nodes plain) id (front ++ rest)) [] items = .ok (mid, parts) ∧
            gathered = parts.flatten) := by
  unfold flattenFrom at h
  dsimp only at h
  refine ⟨plainFrom nodes id position, ?_⟩
  split at h
  · cases h
    exact .inl rfl
  · cases h
    exact .inl rfl
  · rename_i key source rest fuel' hdrop
    obtain ⟨hkey, front, hlength, hfront, hsplit⟩ := split_at_mergeKey hdrop
    refine .inr ⟨fuel', front, key, source, rest, ?_⟩
    rw [hlength, hfront]
    split at h
    · -- the value of the merge key is a mapping
      obtain ⟨mid, hmid, hnew⟩ := bind_eq_ok.mp h
      exact ⟨mid, _, rfl, hfront ▸ hsplit, hkey, hnew, .inl ⟨hmid, rfl⟩⟩
    · rename_i items hitems
      obtain ⟨⟨mid, parts⟩, hmid, hnew⟩ := bind_eq_ok.mp h
      exact ⟨mid, _, rfl, hfront ▸ hsplit, hkey, hnew, .inr ⟨items, parts,
        content_sequence hitems, hmid, rfl⟩⟩
    · cases h

/-! ## Flattening -/

/-- What a flattening that comes to its end has done, if `merged` are the entries that it was given
to put in front. -/
structure Flattens (nodes new : Nodes) (merged : List (NodeId × NodeId)) : Prop where
  evolves : Evolves nodes new
  entries : ∀ P, AllEntries P nodes → (∀ e ∈ merged, P e) → AllEntries P new

theorem flattens_putMerged {id : NodeId} (plain merged : List (NodeId × NodeId))
    (hid : (∃ es, (nodeAt nodes id).content = .mapping es) ∨ merged = []) :
    Flattens nodes (putMerged (retagAll nodes plain) id merged) merged := by
  have hretag : Evolves nodes (retagAll nodes plain) := .retagAll nodes plain
  unfold putMerged
  split
  · exact ⟨hretag, fun P hP _ => allEntries_retagAll hP plain⟩
  · rename_i hmerged
    obtain ⟨old, hold⟩ := hid.resolve_right fun hnil => hmerged (by rw [hnil]; rfl)
    refine ⟨hretag.trans (.setEntries (hretag.content_mapping hold)
      ((withoutMergeKeys_sublist ..).trans (List.sublist_append_right ..))), fun P hP hmerged => ?_⟩
    have hentries : AllEntries P (retagAll nodes plain) := allEntries_retagAll hP plain
    refine allEntries_setEntries hentries fun e he => ?_
    rcases List.mem_append.mp he with he | he
    · exact hmerged e he
    · exact hentries id e he

/-- When a merge key is taken out, nothing but its entry is lost. -/
theorem flattens_cleared {id key source : NodeId} {front rest : List (NodeId × NodeId)}
    (plain : List (NodeId × NodeId))
    (hentries : entriesOf nodes id = front ++ (key, source) :: rest)
    (hkey : isMergeKey nodes key = true) :
    Flattens nodes (setEntries (retagAll nodes plain) id (front ++ rest)) [] := by
  have hretag : Evolves nodes (retagAll nodes plain) := .retagAll nodes plain
  have hcontent : (nodeAt nodes id).content = .mapping (entriesOf nodes id) :=
    content_of_mem (e := (key, source)) (by simp [hentries])
  refine ⟨hretag.trans (.setEntries (hretag.content_mapping hcontent) ?_),
    fun P hP _ => allEntries_setEntries (allEntries_retagAll hP plain) fun e he => hP id e ?_⟩
  · unfold withoutMergeKeys
    rw [entriesOf_retagAll, hentries, List.filter_append, List.filter_cons_of_neg
      (by rw [hretag.isMergeKey_eq, hkey]; decide)]
    exact List.filter_sublist.append List.filter_sublist
  · rw [hentries, List.mem_append, List.mem_cons]
    exact (List.mem_append.mp he).imp_right .inr

theorem flattens_items {fuel : Nat} {id : NodeId}
    (hflatten : ∀ {nodes id new}, flattenFrom fuel nodes id 0 [] = .ok new → Flattens nodes new [])
    {items : List NodeId} {parts parts' : List (List (NodeId × NodeId))}
    (h : flattenItems fuel id nodes parts items = .ok (new, parts')) :
    Evolves nodes new ∧ ∀ P, AllEntries P nodes → (∀ part ∈ parts, ∀ e ∈ part, P e) →
      AllEntries P new ∧ ∀ part ∈ parts', ∀ e ∈ part, P e := by
  unfold flattenItems at h
  induction items generalizing nodes parts with
  | nil =>
    cases h
    exact ⟨.refl _, fun P hP hparts => ⟨hP, hparts⟩⟩
  | cons item items ih =>
    rw [List.foldlM_cons] at h
    obtain ⟨⟨mid, parts₁⟩, hone, hrest⟩ := bind_eq_ok.mp h
    dsimp only at hone
    split at hone
    · obtain ⟨mid', hmid, hpure⟩ := bind_eq_ok.mp hone
      cases hpure
      have hmid := hflatten hmid
      obtain ⟨hevolves, hall⟩ := ih hrest
      refine ⟨hmid.evolves.trans hevolves, fun P hP hparts => ?_⟩
      have hentries := hmid.entries P hP (by simp)
      refine hall P hentries ?_
      simp only [List.forall_mem_cons]
      exact ⟨hentries item, hparts⟩
    · cases hone

theorem flattens_flattenFrom {fuel : Nat} {id : NodeId} {position : Nat}
    {merged : List (NodeId × NodeId)}
    (h : flattenFrom fuel nodes id position merged = .ok new)
    (hid : (∃ es, (nodeAt nodes id).content = .mapping es) ∨ merged = []) :
    Flattens nodes new merged := by
  induction fuel generalizing nodes new id position merged with
  | zero =>
    obtain ⟨plain, rfl | ⟨_, _, _, _, _, _, _, hfuel, _⟩⟩ := flattenFrom_eq_ok h
    · exact flattens_putMerged plain merged hid
    · cases hfuel
  | succ fuel ih =>
    obtain ⟨plain, rfl | ⟨_, front, key, source, rest, mid, gathered, hfuel, hentries, hkey, hnew,
      hmid⟩⟩ := flattenFrom_eq_ok h
    · exact flattens_putMerged plain merged hid
    · cases hfuel
      have hcontent : (nodeAt nodes id).content = .mapping (entriesOf nodes id) :=
        content_of_mem (e := (key, source)) (by simp [hentries])
      have hcleared := flattens_cleared plain hentries hkey
      have hgathered : Evolves (setEntries (retagAll nodes plain) id (front ++ rest)) mid ∧
          ∀ P, AllEntries P (setEntries (retagAll nodes plain) id (front ++ rest)) →
            AllEntries P mid ∧ ∀ e ∈ gathered, P e := by
        rcases hmid with ⟨hmid, rfl⟩ | ⟨items, parts, -, hmid, rfl⟩
        · have hflat := ih hmid (.inr rfl)
          refine ⟨hflat.evolves, fun P hP => ?_⟩
          have hall := hflat.entries P hP (by simp)
          exact ⟨hall, hall source⟩
        · obtain ⟨hevolves, hall⟩ := flattens_items (fun h => ih h (.inr rfl)) hmid
          refine ⟨hevolves, fun P hP => ?_⟩
          obtain ⟨hP, hparts⟩ := hall P hP (by simp)
          refine ⟨hP, fun e he => ?_⟩
          obtain ⟨part, hpart, he⟩ := List.mem_flatten.mp he
          exact hparts part hpart e he
      obtain ⟨hevolves, hall⟩ := hgathered
      have hbefore := hcleared.evolves.trans hevolves
      have hrest := ih hnew (.inl ⟨_, hbefore.content_mapping hcontent⟩)
      refine ⟨hbefore.trans hrest.evolves, fun P hP hmerged => ?_⟩
      obtain ⟨hmidEntries, hgathered⟩ := hall P (hcleared.entries P hP (by simp))
      refine hrest.entries P hmidEntries fun e he => ?_
      rcases List.mem_append.mp he with he | he
      · exact hmerged e he
      · exact hgathered e he

/-- Flattening a mapping leaves of each node what `Evolves` says. -/
theorem evolves_flatten {id : NodeId} (h : flatten nodes id = .ok new) : Evolves nodes new :=
  (flattens_flattenFrom h (.inr rfl)).evolves

/-- What holds of every entry of every mapping holds of all entries after flattening. -/
theorem allEntries_flatten {id : NodeId} (h : flatten nodes id = .ok new)
    (hP : AllEntries P nodes) : AllEntries P new :=
  (flattens_flattenFrom h (.inr rfl)).entries P hP (by simp)

/-! ## Merges of mappings without merge keys -/

/-- All entries of a mapping are its own. -/
def NoMergeKeys (nodes : Nodes) (id : NodeId) : Prop :=
  ∀ e ∈ entriesOf nodes id, isMergeKey nodes e.1 = false

instance (nodes : Nodes) (id : NodeId) : Decidable (NoMergeKeys nodes id) :=
  inferInstanceAs (Decidable (∀ e ∈ _, _))

/-- The nodes that are merged by a merge key with some value: the value, or its items. -/
def mergedNodes (nodes : Nodes) (source : NodeId) : List NodeId :=
  source :: match (nodeAt nodes source).content with
    | .sequence items => items
    | _ => []

/-- The mappings that are merged into a mapping have no merge keys themselves. -/
def MergesFlat (nodes : Nodes) (id : NodeId) : Prop :=
  ∀ e ∈ entriesOf nodes id, isMergeKey nodes e.1 = true →
    ∀ i ∈ mergedNodes nodes e.2, NoMergeKeys nodes i

instance (nodes : Nodes) (id : NodeId) : Decidable (MergesFlat nodes id) :=
  inferInstanceAs (Decidable (∀ e ∈ _, _))

section Flat

variable {fuel : Nat} {id i : NodeId}

theorem Evolves.mergedNodes_eq (h : Evolves nodes new) (source : NodeId) :
    mergedNodes new source = mergedNodes nodes source := by
  unfold mergedNodes
  rcases h.content source with hsame | ⟨_, _, hes, hes'⟩
  · rw [hsame]
  · rw [hes, hes']

theorem mem_mergedNodes {source item : NodeId} {items : List NodeId}
    (h : (nodeAt nodes source).content = .sequence items) (hitem : item ∈ items) :
    item ∈ mergedNodes nodes source := by
  unfold mergedNodes
  rw [h]
  exact List.mem_cons_of_mem _ hitem

theorem NoMergeKeys.mono (h : NoMergeKeys nodes id) (hevolves : Evolves nodes new)
    (hsubset : entriesOf new id ⊆ entriesOf nodes id) : NoMergeKeys new id := fun e he => by
  rw [hevolves.isMergeKey_eq]
  exact h e (hsubset he)

/-- Merges stay flat as long as nothing is added to any mapping that they look at. -/
theorem MergesFlat.mono (h : MergesFlat nodes id) (hevolves : Evolves nodes new)
    (hsubset : ∀ i, i = id ∨ NoMergeKeys nodes i → entriesOf new i ⊆ entriesOf nodes i) :
    MergesFlat new id := by
  intro e he hkey i hi
  rw [hevolves.isMergeKey_eq] at hkey
  rw [hevolves.mergedNodes_eq] at hi
  have hplain := h e (hsubset id (.inl rfl) he) hkey i hi
  exact hplain.mono hevolves (hsubset i (.inr hplain))

/-- Where there are no merge keys, no entries change. -/
theorem entriesOf_of_noMergeKeys {position : Nat} (h : NoMergeKeys nodes id)
    (hnew : flattenFrom fuel nodes id position [] = .ok new) (i : NodeId) :
    entriesOf new i = entriesOf nodes i := by
  obtain ⟨plain, rfl | ⟨_, front, key, source, rest, _, _, _, hentries, hkey, _⟩⟩ :=
    flattenFrom_eq_ok hnew
  · exact entriesOf_retagAll nodes plain i
  · rw [h (key, source) (by simp [hentries])] at hkey
    cases hkey

theorem entriesOf_items {items : List NodeId} {parts parts' : List (List (NodeId × NodeId))}
    (h : ∀ item ∈ items, NoMergeKeys nodes item)
    (hnew : flattenItems fuel id nodes parts items = .ok (new, parts')) (i : NodeId) :
    entriesOf new i = entriesOf nodes i := by
  unfold flattenItems at hnew
  induction items generalizing nodes parts with
  | nil =>
    cases hnew
    rfl
  | cons item items ih =>
    rw [List.foldlM_cons] at hnew
    obtain ⟨⟨mid, parts₁⟩, hone, hrest⟩ := bind_eq_ok.mp hnew
    dsimp only at hone
    split at hone
    · obtain ⟨mid', hmid, hpure⟩ := bind_eq_ok.mp hone
      cases hpure
      have hsame := entriesOf_of_noMergeKeys (h item List.mem_cons_self) hmid
      have hevolves := (flattens_flattenFrom hmid (.inr rfl)).evolves
      rw [ih (fun item' hitem' => (h item' (List.mem_cons_of_mem _ hitem')).mono hevolves
        (hsame item' ▸ List.Subset.refl _)) hrest, hsame i]
    · cases hone

/-- When a merge key is taken out, no mapping gets an entry, and no other mapping loses one. -/
theorem entriesOf_cleared {key source : NodeId} {front rest : List (NodeId × NodeId)}
    (plain : List (NodeId × NodeId))
    (hentries : entriesOf nodes id = front ++ (key, source) :: rest) :
    (∀ j ≠ id, entriesOf (setEntries (retagAll nodes plain) id (front ++ rest)) j =
      entriesOf nodes j) ∧
    ∀ j, entriesOf (setEntries (retagAll nodes plain) id (front ++ rest)) j ⊆
      entriesOf nodes j := by
  have hother : ∀ j ≠ id, entriesOf (setEntries (retagAll nodes plain) id (front ++ rest)) j =
      entriesOf nodes j := fun j hj => by
    rw [entriesOf_setEntries, if_neg fun hid => hj hid.1.symm, entriesOf_retagAll]
  refine ⟨hother, fun j => ?_⟩
  by_cases hj : j = id
  · rw [entriesOf_setEntries, entriesOf_retagAll]
    split
    · rw [hj, hentries]
      exact ((List.Sublist.refl front).append (List.sublist_cons_self ..)).subset
    · exact List.Subset.refl _
  · exact hother j hj ▸ List.Subset.refl _

theorem entriesOf_putMerged (plain merged : List (NodeId × NodeId)) (hi : i ≠ id) :
    entriesOf (putMerged (retagAll nodes plain) id merged) i = entriesOf nodes i := by
  unfold putMerged
  split
  · exact entriesOf_retagAll nodes plain i
  · rw [entriesOf_setEntries, if_neg fun hid => hi hid.1.symm, entriesOf_retagAll]

/-- A flattening changes the entries of no other mapping if what is merged has no merge keys. -/
theorem entriesOf_flattenFrom {position : Nat} {merged : List (NodeId × NodeId)}
    (h : MergesFlat nodes id) (hnew : flattenFrom fuel nodes id position merged = .ok new)
    (hi : i ≠ id) : entriesOf new i = entriesOf nodes i := by
  induction fuel generalizing nodes position merged with
  | zero =>
    obtain ⟨plain, rfl | ⟨_, _, _, _, _, _, _, hfuel, _⟩⟩ := flattenFrom_eq_ok hnew
    · exact entriesOf_putMerged plain merged hi
    · cases hfuel
  | succ fuel ih =>
    obtain ⟨plain, rfl | ⟨_, front, key, source, rest, mid, gathered, hfuel, hentries, hkey, hnew,
      hmid⟩⟩ := flattenFrom_eq_ok hnew
    · exact entriesOf_putMerged plain merged hi
    · cases hfuel
      have hcleared := (flattens_cleared plain hentries hkey).evolves
      obtain ⟨hother, hsubset⟩ := entriesOf_cleared plain hentries
      have hmerged := h (key, source) (by simp [hentries]) hkey
      -- what is merged has no merge keys, so that only the merge key is lost on the way
      have hgathered : Evolves nodes mid ∧ ∀ j, entriesOf mid j =
          entriesOf (setEntries (retagAll nodes plain) id (front ++ rest)) j := by
        rcases hmid with ⟨hmid, rfl⟩ | ⟨items, parts, hcontent, hmid, rfl⟩
        · have hsource := (hmerged source List.mem_cons_self).mono hcleared (hsubset _)
          exact ⟨hcleared.trans (flattens_flattenFrom hmid (.inr rfl)).evolves,
            entriesOf_of_noMergeKeys hsource hmid⟩
        · have hitems := flattens_items (fun h => flattens_flattenFrom h (.inr rfl)) hmid
          exact ⟨hcleared.trans hitems.1, entriesOf_items (fun item hitem =>
            (hmerged item (mem_mergedNodes hcontent hitem)).mono hcleared (hsubset _)) hmid⟩
      obtain ⟨hevolves, hsame⟩ := hgathered
      rw [ih (h.mono hevolves fun j _ => hsame j ▸ hsubset j) hnew, hsame i, hother i hi]

theorem entriesOf_flatten (h : MergesFlat nodes id) (hnew : flatten nodes id = .ok new)
    (hi : i ≠ id) : entriesOf new i = entriesOf nodes i :=
  entriesOf_flattenFrom h hnew hi

end Flat

end BootConfig.Yaml.Merge
