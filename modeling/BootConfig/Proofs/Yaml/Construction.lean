import Mathlib.Logic.Relation
import BootConfig.Yaml.Document
import BootConfig.Proofs.Failing

/-!
# Objects of nodes

How the objects of a document come to be. Objects are made one node at a time, and the cell that is
made depends on the nodes only; a collection is filled once it is its turn.

* `Builder.construct_eq`: making the object of a node, as the cell of the node and its place.
* `Builder.Makes`: objects are made, one node after the other.
* `Builder.fill_eq_ok`: what filling a collection does.
* `Builder.object_fillAll`: an object that is a scalar stays what it is.
-/

namespace BootConfig.Yaml.Builder

open Relation (ReflTransGen)

variable {b b' : Builder} {id i : NodeId} {c : Cell}

/-! ## The cell of a node -/

/-- The cell of a scalar. -/
def scalarCell (b : Builder) (id : NodeId) (read : Text → Except Failure Scalar) :
    Except Failure Cell := do
  let text ← b.scalarText (b.nodes.size + 1) id
  return .scalar (← read text)

/-- The cell that is made of a node; that of a collection is empty at first. -/
def newCell (b : Builder) (id : NodeId) : Except Failure Cell :=
  let n := b.node id
  if n.tag == Tag.str then b.scalarCell id fun text => .ok (.text text)
  else if n.tag == Tag.map then .ok (.map [])
  else if n.tag == Tag.seq then .ok (.list [])
  else if n.tag == Tag.null then b.scalarCell id fun _ => .ok .null
  else if n.tag == Tag.bool then b.scalarCell id ScalarValue.bool
  else if n.tag == Tag.int then b.scalarCell id ScalarValue.int
  else if n.tag == Tag.float then b.scalarCell id (ScalarValue.double (id + 1))
  else if n.tag == Tag.binary then b.scalarCell id fun text => ScalarValue.binary text n.start
  else if n.tag == Tag.timestamp then
    b.scalarCell id fun text =>
      match n.content with
      | .scalar _ => ScalarValue.timestamp text
      | _ => .error (.fault .timestampOfMapping)
  else if n.tag == Tag.set then .ok (.set [])
  else if n.tag == Tag.orderedMap || n.tag == Tag.pairs then .ok (.pairs [])
  else .error (b.plainProblem id (.unknownTag n.tag))

/-- The tags of nodes that are scalars. -/
def scalarTags : List String :=
  [Tag.str, Tag.null, Tag.bool, Tag.int, Tag.float, Tag.binary, Tag.timestamp]

/-- The ways in which the cell of a node may come out. -/
inductive CellShape (b : Builder) (id : NodeId) : Except Failure Cell → Prop
  | scalar (htag : (b.node id).tag ∈ scalarTags) (read : Text → Except Failure Scalar) :
    CellShape b id (b.scalarCell id read)
  | collection (c : Cell) (hscalar : ∀ s, c ≠ .scalar s)
    (hset : ∀ members, c = .set members → (b.node id).tag = Tag.set) : CellShape b id (.ok c)
  | unknown : CellShape b id (.error (b.plainProblem id (.unknownTag (b.node id).tag)))

theorem newCell_shape (b : Builder) (id : NodeId) : CellShape b id (b.newCell id) := by
  have scalar : ∀ {tag : String}, tag ∈ scalarTags → ((b.node id).tag == tag) = true →
      ∀ read, CellShape b id (b.scalarCell id read) := fun htag h read =>
    .scalar (eq_of_beq h ▸ htag) read
  unfold newCell
  dsimp only
  refine iteInduction (fun h => scalar (by decide) h _) fun _ => ?_
  refine iteInduction (fun h => .collection _ (by simp) (by simp)) fun _ => ?_
  refine iteInduction (fun h => .collection _ (by simp) (by simp)) fun _ => ?_
  refine iteInduction (fun h => scalar (by decide) h _) fun _ => ?_
  refine iteInduction (fun h => scalar (by decide) h _) fun _ => ?_
  refine iteInduction (fun h => scalar (by decide) h _) fun _ => ?_
  refine iteInduction (fun h => scalar (by decide) h _) fun _ => ?_
  refine iteInduction (fun h => scalar (by decide) h _) fun _ => ?_
  refine iteInduction (fun h => scalar (by decide) h _) fun _ => ?_
  refine iteInduction (fun h => .collection _ (by simp) fun _ _ => eq_of_beq h) fun _ => ?_
  exact iteInduction (fun h => .collection _ (by simp) (by simp)) fun _ => .unknown

/-- Puts the cell of a node in its place; a collection has to wait. -/
def place (b : Builder) (id : NodeId) : Cell → Builder
  | .scalar s => b.setObject id (.scalar s)
  | c => b.await id c

theorem scalar_eq (b : Builder) (id : NodeId) (read : Text → Except Failure Scalar) :
    b.scalar id read = (b.scalarCell id read).map (b.place id) := by
  unfold scalar scalarCell
  cases b.scalarText (b.nodes.size + 1) id with
  | error e => rfl
  | ok text =>
    show (read text >>= fun s => .ok (b.setObject id (.scalar s))) =
      (read text >>= fun s => .ok (.scalar s)).map (b.place id)
    cases read text with
    | error e => rfl
    | ok s => rfl

theorem ite_map {α β : Type} {f : α → β} {p : Prop} [Decidable p] {yes no : Except Failure β}
    {yes' no' : Except Failure α} (hyes : yes = yes'.map f) (hno : no = no'.map f) :
    (if p then yes else no) = (if p then yes' else no').map f := by
  split
  · exact hyes
  · exact hno

theorem construct_eq (b : Builder) (id : NodeId) :
    b.construct id =
      if (b.object? id).isSome then .ok b else (b.newCell id).map (b.place id) := by
  have scalar := scalar_eq b id
  refine ite_congr rfl (fun _ => rfl) fun _ => ?_
  exact ite_map (scalar _) <| ite_map rfl <| ite_map rfl <| ite_map (scalar _) <|
    ite_map (scalar _) <| ite_map (scalar _) <| ite_map (scalar _) <| ite_map (scalar _) <|
    ite_map (scalar _) <| ite_map rfl <| ite_map rfl rfl

/-- The object of a node is there already, or its cell is put in place. -/
theorem construct_eq_ok :
    b.construct id = .ok b' ↔ (b.object? id).isSome ∧ b' = b ∨
      b.object? id = none ∧ ∃ c, b.newCell id = .ok c ∧ b' = b.place id c := by
  rw [construct_eq]
  cases b.object? id with
  | some c => simp [eq_comm]
  | none => cases b.newCell id <;> simp [Except.map, eq_comm]

/-! ## The place of a cell -/

theorem object?_setObject (b : Builder) (id i : NodeId) (c : Cell) :
    (b.setObject id c).object? i =
      if id = i ∧ i < b.objects.size then some c else b.object? i := by
  unfold object? setObject
  dsimp only
  rw [Array.getD_eq_getD_getElem?, Array.getD_eq_getD_getElem?, Array.getElem?_setIfInBounds]
  by_cases hid : id = i
  · by_cases hi : i < b.objects.size <;> simp [hid, hi]
  · simp [hid]

@[simp]
theorem nodes_place (b : Builder) (id : NodeId) (c : Cell) : (b.place id c).nodes = b.nodes := by
  cases c <;> rfl

@[simp]
theorem size_place (b : Builder) (id : NodeId) (c : Cell) :
    (b.place id c).objects.size = b.objects.size := by
  cases c <;> simp [place, await, setObject]

theorem object?_place (b : Builder) (id i : NodeId) (c : Cell) :
    (b.place id c).object? i =
      if id = i ∧ i < b.objects.size then some c else b.object? i := by
  rw [← object?_setObject]
  cases c <;> rfl

theorem waiting_place (b : Builder) (id : NodeId) (c : Cell) :
    (b.place id c).waiting = b.waiting ∨
      (b.place id c).waiting = b.waiting ++ [id] ∧ ∀ s, c ≠ .scalar s := by
  cases c with
  | scalar s => exact .inl rfl
  | _ => exact .inr ⟨rfl, by simp⟩

/-- Numbers without a node have no object. -/
theorem lt_size_of_object (hi : b.object? i = some c) : i < b.objects.size := by
  refine Nat.lt_of_not_le fun hle => ?_
  unfold object? at hi
  rw [Array.getD_eq_getD_getElem?, Array.getElem?_eq_none hle] at hi
  cases hi

theorem object?_ofNodes (nodes : Merge.Nodes) (i : NodeId) : (ofNodes nodes).object? i = none := by
  unfold object? ofNodes
  rw [Array.getD_eq_getD_getElem?, Array.getElem?_replicate]
  split <;> rfl

/-! ## Cells depend on nodes only -/

theorem scalarText_congr (h : b'.nodes = b.nodes) (fuel : Nat) (id : NodeId) :
    b'.scalarText fuel id = b.scalarText fuel id := by
  induction fuel generalizing id with
  | zero => rfl
  | succ fuel ih =>
    unfold scalarText plainProblem node
    rw [h]
    split
    · rfl
    · split
      · exact ih _
      · rfl
    · rfl

theorem newCell_congr (h : b'.nodes = b.nodes) (id : NodeId) : b'.newCell id = b.newCell id := by
  have hscalar : b'.scalarCell id = b.scalarCell id := by
    funext read
    unfold scalarCell
    rw [h, scalarText_congr h]
  unfold newCell plainProblem node
  rw [hscalar, h]

/-- The cell of a node that is no mapping depends on this node only. -/
theorem newCell_of_node (hnode : b'.node id = b.node id)
    (hid : ∀ entries, (b.node id).content ≠ .mapping entries) : b'.newCell id = b.newCell id := by
  have htext : b'.scalarText (b'.nodes.size + 1) id = b.scalarText (b.nodes.size + 1) id := by
    unfold scalarText plainProblem
    rw [hnode]
    split
    · rfl
    · rename_i entries hentries
      exact absurd hentries (hid entries)
    · rfl
  have hscalar : b'.scalarCell id = b.scalarCell id := by
    funext read
    unfold scalarCell
    rw [htext]
  unfold newCell plainProblem
  rw [hscalar, hnode]

/-- A lone equals sign has no cell as long as it is not a string. -/
theorem tag_ne_value (h : b.newCell id = .ok c) : (b.node id).tag ≠ Tag.value := by
  intro htag
  unfold newCell at h
  dsimp only at h
  rw [htag] at h
  cases h

theorem key?_eq_some {s : Scalar} (h : b.key? id = some s) : b.object? id = some (.scalar s) := by
  unfold key? at h
  split at h
  · cases h
    assumption
  · cases h

/-- Objects of nodes are made, one node after the other. -/
def Makes : Builder → Builder → Prop :=
  ReflTransGen fun b b' => ∃ id, b.construct id = .ok b'

namespace Makes

theorem construct (h : b.construct id = .ok b') : Makes b b' := .single ⟨id, h⟩

/-- Something that holds of a builder and is kept whenever a cell is put in place of no object stays
so. -/
theorem keep {P : Builder → Prop} (h : Makes b b') (hb : P b)
    (hplace : ∀ b id c, P b → b.object? id = none → b.newCell id = .ok c → P (b.place id c)) :
    P b' := by
  induction h with
  | refl => exact hb
  | tail _ hstep ih =>
    obtain ⟨id, hstep⟩ := hstep
    rcases construct_eq_ok.mp hstep with ⟨_, rfl⟩ | ⟨hnone, c, hc, rfl⟩
    · exact ih
    · exact hplace _ id c ih hnone hc

theorem nodes (h : Makes b b') : b'.nodes = b.nodes :=
  h.keep (P := fun b' => b'.nodes = b.nodes) rfl fun _ _ _ hb _ _ => (nodes_place ..).trans hb

theorem size (h : Makes b b') : b'.objects.size = b.objects.size :=
  h.keep (P := fun b' => b'.objects.size = b.objects.size) rfl fun _ _ _ hb _ _ =>
    (size_place ..).trans hb

/-- An object stays what it is. -/
theorem object (h : Makes b b') (hi : b.object? i = some c) : b'.object? i = some c := by
  refine h.keep (P := fun b' => b'.object? i = some c) hi fun b id c' hb hnone _ => ?_
  rw [object?_place, if_neg fun hid => ?_]
  · exact hb
  · rw [hid.1, hb] at hnone
    cases hnone

/-- A new object is the cell of its node. -/
theorem newCell (h : Makes b b') (hnone : b.object? i = none) (hi : b'.object? i = some c) :
    b.newCell i = .ok c := by
  have hall : b'.nodes = b.nodes ∧ ∀ c, b'.object? i = some c → b.newCell i = .ok c := by
    refine h.keep (P := fun b' => b'.nodes = b.nodes ∧
      ∀ c, b'.object? i = some c → b.newCell i = .ok c) ⟨rfl, ?_⟩ ?_
    · rw [hnone]
      rintro c ⟨⟩
    · rintro b' id c' ⟨hnodes, hb'⟩ - hc'
      refine ⟨(nodes_place ..).trans hnodes, fun c hi => ?_⟩
      rw [object?_place] at hi
      split at hi
      · rename_i hid
        cases hi
        rw [← hid.1, ← newCell_congr hnodes, hc']
      · exact hb' c hi
  exact hall.2 c hi

end Makes

theorem isSome_construct (h : b.construct id = .ok b') (hid : id < b.objects.size) :
    (b'.object? id).isSome := by
  rcases construct_eq_ok.mp h with ⟨hsome, rfl⟩ | ⟨_, c, _, rfl⟩
  · exact hsome
  · rw [object?_place, if_pos ⟨rfl, hid⟩]
    rfl

theorem makes_constructAll {ids : List NodeId} (h : b.constructAll ids = .ok b') : Makes b b' :=
  foldlM_keeps (P := Makes b) (fun _ _ _ hb hstep => hb.tail ⟨_, hstep⟩) .refl h

/-- Sequences have no entries. -/
theorem entriesOf_eq_nil {items : List NodeId} (h : (b.node id).content = .sequence items) :
    Merge.entriesOf b.nodes id = [] := by
  unfold Merge.entriesOf
  rw [show (Merge.nodeAt b.nodes id).content = .sequence items from h]

theorem makes_sequence {items : List CellId} (h : b.sequence id = .ok (b', items)) :
    Merge.entriesOf b.nodes id = [] ∧ Makes b b' := by
  unfold sequence at h
  split at h
  · rename_i items hitems
    obtain ⟨made, hmade, h⟩ := bind_eq_ok.mp h
    cases h
    exact ⟨entriesOf_eq_nil hitems, makes_constructAll hmade⟩
  · cases h

/-- The pair that one item of a list of pairs stands for. -/
def pairItem (context : Context) (id : NodeId) (r : Builder × List (CellId × CellId))
    (item : NodeId) : Except Failure (Builder × List (CellId × CellId)) :=
  match (r.1.node item).content with
  | .mapping [(key, value)] => do return (← r.1.constructAll [key, value], r.2 ++ [(key, value)])
  | .mapping entries =>
    .error (r.1.problemIn context id (.expectedSingleItem entries.length) item)
  | other => .error (r.1.problemIn context id (.expectedSingleMapping other.kind) item)

theorem pairList_eq {context : Context} {items : List NodeId}
    (hitems : (b.node id).content = .sequence items) :
    b.pairList context id = items.foldlM (pairItem context id) (b, []) := by
  unfold pairList
  rw [hitems]
  rfl

theorem makes_pairItem {context : Context} {r r' : Builder × List (CellId × CellId)}
    {item : NodeId} (h : pairItem context id r item = .ok r') : Makes r.1 r'.1 := by
  unfold pairItem at h
  split at h
  · obtain ⟨made, hmade, h⟩ := bind_eq_ok.mp h
    cases h
    exact makes_constructAll hmade
  · cases h
  · cases h

theorem makes_pairItems {context : Context} {r r' : Builder × List (CellId × CellId)}
    {items : List NodeId} (h : items.foldlM (pairItem context id) r = .ok r') :
    Makes r.1 r'.1 := by
  have hstart : Makes r.1 r.1 := .refl
  refine foldlM_keeps (P := fun r' => Makes r.1 r'.1) (fun _ _ _ hr hstep => ?_) hstart h
  exact hr.trans (makes_pairItem hstep)

theorem makes_pairList {context : Context} {pairs : List (CellId × CellId)}
    (h : b.pairList context id = .ok (b', pairs)) :
    Merge.entriesOf b.nodes id = [] ∧ Makes b b' := by
  cases hcontent : (b.node id).content with
  | sequence items =>
    rw [pairList_eq hcontent] at h
    exact ⟨entriesOf_eq_nil hcontent, makes_pairItems h⟩
  | _ =>
    unfold pairList at h
    rw [hcontent] at h
    cases h

/-- One step of a check for unique keys: the key is a merge key, it can be no key, or it is a new
one. -/
theorem checkUnique_cons {seen : List Scalar} {key value : NodeId}
    {rest : List (NodeId × NodeId)}
    (h : checkUnique id b seen ((key, value) :: rest) = .ok b') :
    Merge.isMergeKey b.nodes key = true ∧ checkUnique id b seen rest = .ok b' ∨
      Merge.isMergeKey b.nodes key = false ∧ ∃ mid seen', b.construct key = .ok mid ∧
        checkUnique id mid seen' rest = .ok b' := by
  unfold checkUnique at h
  split at h
  · rename_i hkey
    exact .inl ⟨hkey, h⟩
  · rename_i hkey
    obtain ⟨mid, hmid, h⟩ := bind_eq_ok.mp h
    refine .inr ⟨Bool.eq_false_iff.mpr hkey, mid, ?_⟩
    split at h
    · split at h
      · cases h
      · exact ⟨_, hmid, h⟩
    · split at h
      · split at h <;> cases h
      · exact ⟨_, hmid, h⟩

theorem makes_checkUnique {seen : List Scalar} {entries : List (NodeId × NodeId)}
    (h : checkUnique id b seen entries = .ok b') : Makes b b' := by
  induction entries generalizing b seen with
  | nil =>
    cases h
    exact .refl
  | cons e rest ih =>
    rcases checkUnique_cons h with ⟨_, h⟩ | ⟨_, mid, seen', hmid, h⟩
    · exact ih h
    · exact (Makes.construct hmid).trans (ih h)

/-- One step of a binding: key and value are made, and the key is a scalar. -/
theorem bindAll_cons {bound bound' : List (Scalar × CellId)} {key value : NodeId}
    {rest : List (NodeId × NodeId)} :
    bindAll id b bound ((key, value) :: rest) = .ok (b', bound') ↔
      ∃ keyed valued s, b.construct key = .ok keyed ∧ keyed.key? key = some s ∧
        keyed.construct value = .ok valued ∧
        bindAll id valued (bind bound s value) rest = .ok (b', bound') := by
  rw [bindAll, bind_eq_ok]
  refine ⟨?_, ?_⟩
  · rintro ⟨keyed, hkeyed, h⟩
    split at h
    · cases h
    · rename_i s hs
      obtain ⟨valued, hvalued, h⟩ := bind_eq_ok.mp h
      exact ⟨keyed, valued, s, hkeyed, hs, hvalued, h⟩
  · rintro ⟨keyed, valued, s, hkeyed, hs, hvalued, h⟩
    refine ⟨keyed, hkeyed, ?_⟩
    rw [hs]
    exact bind_eq_ok.mpr ⟨valued, hvalued, h⟩

theorem makes_bindAll {bound bound' : List (Scalar × CellId)} {entries : List (NodeId × NodeId)}
    (h : bindAll id b bound entries = .ok (b', bound')) : Makes b b' := by
  induction entries generalizing b bound with
  | nil =>
    cases h
    exact .refl
  | cons e rest ih =>
    obtain ⟨keyed, valued, s, hkeyed, _, hvalued, h⟩ := bindAll_cons.mp h
    exact ((Makes.construct hkeyed).tail ⟨_, hvalued⟩).trans (ih h)

/-! ## Collections are filled -/

/-- The check that comes before a mapping's entries are bound. -/
def precheck (policy : KeyPolicy) (b : Builder) (id : NodeId) (entries : List (NodeId × NodeId)) :
    Except Failure Builder :=
  match policy with
  | .unique => checkUnique id b [] entries
  | .overriding => .ok b

theorem makes_precheck {policy : KeyPolicy} {entries : List (NodeId × NodeId)}
    (h : precheck policy b id entries = .ok b') : Makes b b' := by
  cases policy with
  | unique => exact makes_checkUnique h
  | overriding =>
    cases h
    exact .refl

/-- The entries of a mapping are checked as they are written, then flattened, then bound. -/
theorem mapping_eq_ok {policy : KeyPolicy} {bound : List (Scalar × CellId)} :
    mapping policy b id = .ok (b', bound) ↔ ∃ entries checked nodes,
      (b.node id).content = .mapping entries ∧ precheck policy b id entries = .ok checked ∧
      Merge.flatten checked.nodes id = .ok nodes ∧
      bindAll id { checked with nodes := nodes } [] (Merge.entriesOf nodes id) =
        .ok (b', bound) := by
  unfold mapping
  split
  · rename_i entries hentries
    cases policy <;> simp [precheck, bind_eq_ok, hentries]
  · rename_i hother
    simp only [throw, throwThe, MonadExceptOf.throw, reduceCtorEq, false_iff]
    rintro ⟨entries, _, _, hentries, _⟩
    exact hother entries hentries

/-- What a collection may be filled with: with no scalar, and with a set if this is its kind. -/
structure Filling (b : Builder) (id : NodeId) (c : Cell) : Prop where
  collection : ∀ s, c ≠ .scalar s
  set : ∀ members, c = .set members → (b.node id).tag = Tag.set

/-- A collection that is no mapping is filled whatever the policy; a mapping, with the entries that
are bound. -/
theorem fill_cases (b : Builder) (id : NodeId) :
    (∃ f : List (Scalar × CellId) → Cell, (∀ bound, Filling b id (f bound)) ∧
      ∀ policy b', fill policy b id = .ok b' ↔ ∃ filled bound,
        mapping policy b id = .ok (filled, bound) ∧ b' = filled.setObject id (f bound)) ∨
    ∃ r : Except Failure Builder, (∀ policy, fill policy b id = r) ∧
      ∀ b', r = .ok b' → Merge.entriesOf b.nodes id = [] ∧
        ∃ filled c, Makes b filled ∧ Filling b id c ∧ b' = filled.setObject id c := by
  unfold fill
  dsimp only
  split
  · -- a sequence
    refine .inr ⟨_, fun _ => rfl, fun b' h => ?_⟩
    obtain ⟨⟨filled, items⟩, hfilled, h⟩ := bind_eq_ok.mp h
    cases h
    obtain ⟨hentries, hfilled⟩ := makes_sequence hfilled
    exact ⟨hentries, _, _, hfilled, ⟨by simp, by simp⟩, rfl⟩
  · split
    · exact .inl ⟨.map, fun _ => ⟨by simp, by simp⟩, fun policy b' => by
        simp [bind_eq_ok, pure, Except.pure, @eq_comm _ b']⟩
    · split
      · rename_i htag
        exact .inl ⟨fun bound => .set (bound.map Prod.fst),
          fun _ => ⟨by simp, fun _ _ => eq_of_beq htag⟩, fun policy b' => by
          simp [bind_eq_ok, pure, Except.pure, @eq_comm _ b']⟩
      · -- pairs, whose items are mappings but are not flattened
        refine .inr ⟨_, fun _ => rfl, fun b' h => ?_⟩
        obtain ⟨⟨filled, pairs⟩, hfilled, h⟩ := bind_eq_ok.mp h
        cases h
        obtain ⟨hentries, hfilled⟩ := makes_pairList hfilled
        exact ⟨hentries, _, _, hfilled, ⟨by simp, by simp⟩, rfl⟩

/-- A collection is filled in two rounds, with new nodes in between if it is a mapping. -/
theorem fill_eq_ok {policy : KeyPolicy} (h : fill policy b id = .ok b') :
    ∃ checked nodes filled c, Makes b checked ∧
      (nodes = checked.nodes ∨ Merge.flatten checked.nodes id = .ok nodes) ∧
      Makes { checked with nodes := nodes } filled ∧ Filling b id c ∧
      b' = filled.setObject id c := by
  rcases fill_cases b id with ⟨f, hf, hfill⟩ | ⟨r, hfill, hr⟩
  · obtain ⟨filled, bound, hmapping, rfl⟩ := (hfill policy b').mp h
    obtain ⟨entries, checked, nodes, _, hchecked, hnodes, hbound⟩ := mapping_eq_ok.mp hmapping
    exact ⟨checked, nodes, filled, f bound, makes_precheck hchecked, .inr hnodes,
      makes_bindAll hbound, hf bound, rfl⟩
  · -- there is nothing to check, so that the first round is empty
    obtain ⟨-, filled, c, hfilled, hc, rfl⟩ := hr b' (hfill policy ▸ h)
    exact ⟨b, b.nodes, filled, c, .refl, .inl rfl, hfilled, hc, rfl⟩

/-- The nodes after a collection is filled. -/
theorem nodes_fill {policy : KeyPolicy} (h : fill policy b id = .ok b') :
    b'.nodes = b.nodes ∨ Merge.flatten b.nodes id = .ok b'.nodes := by
  obtain ⟨checked, nodes, filled, c, hchecked, hnodes, hfilled, -, rfl⟩ := fill_eq_ok h
  have hsame : (filled.setObject id c).nodes = nodes := hfilled.nodes
  rw [hsame, ← hchecked.nodes]
  exact hnodes

/-! ## Whole runs -/

/-- Only collections wait. -/
def OnlyCollectionsWait (b : Builder) : Prop :=
  ∀ id ∈ b.waiting, id < b.objects.size → ∃ c, b.object? id = some c ∧ ∀ s, c ≠ .scalar s

theorem Makes.onlyCollectionsWait (h : Makes b b') (hb : b.OnlyCollectionsWait) :
    b'.OnlyCollectionsWait := by
  refine h.keep (P := OnlyCollectionsWait) hb fun b id c hb hnone _ i hi hsize => ?_
  rw [size_place] at hsize
  have hold : i ∈ b.waiting → ∃ c', (b.place id c).object? i = some c' ∧ ∀ s, c' ≠ .scalar s := by
    intro hi
    obtain ⟨c', hc', hscalar⟩ := hb i hi hsize
    rw [object?_place, if_neg fun hid => ?_]
    · exact ⟨c', hc', hscalar⟩
    · rw [hid.1, hc'] at hnone
      cases hnone
  rcases waiting_place b id c with hwaiting | ⟨hwaiting, hscalar⟩
  · exact hold (hwaiting ▸ hi)
  · rw [hwaiting, List.mem_append, List.mem_singleton] at hi
    rcases hi with hi | rfl
    · exact hold hi
    · rw [object?_place, if_pos ⟨rfl, hsize⟩]
      exact ⟨c, rfl, hscalar⟩

theorem onlyCollectionsWait_fill {policy : KeyPolicy} {rest : List NodeId}
    (hwaiting : b.waiting = id :: rest) (hb : b.OnlyCollectionsWait)
    (h : fill policy { b with waiting := rest } id = .ok b') : b'.OnlyCollectionsWait := by
  obtain ⟨checked, nodes, filled, c, hchecked, -, hfilled, hc, rfl⟩ := fill_eq_ok h
  have hrest : OnlyCollectionsWait { b with waiting := rest } := fun i hi =>
    hb i (hwaiting ▸ List.mem_cons_of_mem _ hi)
  have hfilledWait := hfilled.onlyCollectionsWait (hchecked.onlyCollectionsWait hrest)
  intro i hi hsize
  rw [object?_setObject]
  split
  · exact ⟨c, rfl, hc.collection⟩
  · exact hfilledWait i hi (by simpa [setObject] using hsize)

/-- Filling a collection that waits keeps the objects that are scalars. -/
theorem object_fill {policy : KeyPolicy} {rest : List NodeId} {s : Scalar}
    (hwaiting : b.waiting = id :: rest) (hb : b.OnlyCollectionsWait)
    (h : fill policy { b with waiting := rest } id = .ok b')
    (hi : b.object? i = some (.scalar s)) : b'.object? i = some (.scalar s) := by
  obtain ⟨checked, nodes, filled, c, hchecked, -, hfilled, -, rfl⟩ := fill_eq_ok h
  rw [object?_setObject, if_neg fun hid => ?_]
  · exact hfilled.object (hchecked.object hi)
  · -- the collection that is filled waited, so that its object is no scalar
    obtain ⟨c', hc', hscalar⟩ :=
      hb i (hwaiting ▸ hid.1 ▸ List.mem_cons_self) (lt_size_of_object hi)
    rw [hi] at hc'
    cases hc'
    exact hscalar s rfl

theorem object_fillAll {policy : KeyPolicy} {fuel : Nat} {s : Scalar}
    (hb : b.OnlyCollectionsWait) (h : fillAll policy fuel b = .ok b')
    (hi : b.object? i = some (.scalar s)) : b'.object? i = some (.scalar s) := by
  induction fuel generalizing b with
  | zero =>
    cases h
    exact hi
  | succ fuel ih =>
    unfold fillAll at h
    split at h
    · cases h
      exact hi
    · rename_i id rest hwaiting
      obtain ⟨mid, hmid, h⟩ := bind_eq_ok.mp h
      exact ih (onlyCollectionsWait_fill hwaiting hb hmid) h (object_fill hwaiting hb hmid hi)

end BootConfig.Yaml.Builder
