import BootConfig.Proofs.Data.Held
import BootConfig.Proofs.Data.Stepwise
import BootConfig.Proofs.Yaml.UniqueKeys
import BootConfig.Proofs.Yaml.WorkList

/-!
# Keys of the mappings in a document

Mappings are filled by binding keys one after the other, so that each key of a mapping in the value
of a document is bound once, whichever keys the document repeats and whatever is merged.

* `Builder.KeysOnce`: all mappings that have been made bind each of their keys once.
* `Document.isDocument_ofBytes`: the value of a document is a scalar or a graph of such mappings.
-/

namespace BootConfig.Yaml

namespace Builder

variable {b b' : Builder} {id : NodeId} {c : Cell} {policy : KeyPolicy} {key : Scalar}
  {bound bound' : List (Scalar × CellId)}

/-- Binding a key is the same for objects and for the values that they stand for. -/
theorem forall₂_bind {R : CellId → Value → Prop} {m : Entries} {r : CellId} {v : Value}
    (hentries : List.Forall₂ (fun o e => o.1 = e.1 ∧ R o.2 e.2) bound m) (hr : R r v) :
    List.Forall₂ (fun o e => o.1 = e.1 ∧ R o.2 e.2) (bind bound key r) (m.put key v) := by
  induction hentries with
  | nil => exact .cons ⟨rfl, hr⟩ .nil
  | @cons o e bound m hentry hrest ih =>
    rw [bind, Entries.put, hentry.1]
    cases e.1.sameKey key with
    | true => exact .cons ⟨rfl, hr⟩ hrest
    | false => exact .cons hentry ih

/-- Distinct keys stay so, for they are those of a mapping of values. -/
theorem distinct_bind {value : CellId}
    (hdistinct : bound.Pairwise fun e e' => e.1.sameKey e'.1 = false) :
    (bind bound key value).Pairwise fun e e' => e.1.sameKey e'.1 = false := by
  let m : Entries := bound.map fun e => (e.1, .null)
  have hentries : List.Forall₂ (fun o e => o.1 = e.1 ∧ True) bound m :=
    List.forall₂_map_right_iff.mpr (List.forall₂_same.mpr fun _ _ => ⟨rfl, trivial⟩)
  have hbound : List.Forall₂ (fun o e => o.1 = e.1 ∧ True) (bind bound key value)
      (m.put key .null) := forall₂_bind (R := fun _ _ => True) hentries trivial
  rw [← Scalar.pairwise_keys_iff, Objects.keys_eq_of_forall₂ hbound, Scalar.pairwise_keys_iff]
  exact Entries.distinct_put (List.pairwise_map.mpr hdistinct)

theorem distinct_bindAll {entries : List (NodeId × NodeId)}
    (h : bindAll id b bound entries = .ok (b', bound'))
    (hdistinct : bound.Pairwise fun e e' => e.1.sameKey e'.1 = false) :
    bound'.Pairwise fun e e' => e.1.sameKey e'.1 = false := by
  induction entries generalizing b bound with
  | nil =>
    cases h
    exact hdistinct
  | cons e rest ih =>
    obtain ⟨keyed, valued, s, -, -, -, h⟩ := bindAll_cons.mp h
    exact ih h (distinct_bind hdistinct)

/-! ## Objects that are made -/

/-- All mappings that have been made bind each of their keys once. -/
def KeysOnce (b : Builder) : Prop :=
  ∀ i entries, b.object? i = some (.map entries) →
    entries.Pairwise fun e e' => e.1.sameKey e'.1 = false

/-- A mapping is empty when it is made. -/
theorem eq_nil_of_newCell {entries : List (Scalar × CellId)}
    (h : b.newCell id = .ok (.map entries)) : entries = [] := by
  let Empty (r : Except Failure Cell) : Prop := ∀ entries, r = .ok (.map entries) → entries = []
  have scalar : ∀ read, Empty (b.scalarCell id read) := by
    intro read entries h
    obtain ⟨text, -, h⟩ := bind_eq_ok.mp h
    obtain ⟨s, -, h⟩ := bind_eq_ok.mp h
    cases h
  have empty : Empty (.ok (.map [])) := by
    rintro entries ⟨⟩
    rfl
  have other : ∀ c, (∀ entries, c ≠ .map entries) → Empty (.ok c) := by
    rintro c hc entries ⟨⟩
    exact absurd rfl (hc entries)
  refine (?_ : Empty (b.newCell id)) entries h
  unfold newCell
  dsimp only
  refine iteInduction (motive := Empty) (fun _ => scalar _) fun _ => ?_
  refine iteInduction (motive := Empty) (fun _ => empty) fun _ => ?_
  refine iteInduction (motive := Empty) (fun _ => other _ (by simp)) fun _ => ?_
  refine iteInduction (motive := Empty) (fun _ => scalar _) fun _ => ?_
  refine iteInduction (motive := Empty) (fun _ => scalar _) fun _ => ?_
  refine iteInduction (motive := Empty) (fun _ => scalar _) fun _ => ?_
  refine iteInduction (motive := Empty) (fun _ => scalar _) fun _ => ?_
  refine iteInduction (motive := Empty) (fun _ => scalar _) fun _ => ?_
  refine iteInduction (motive := Empty) (fun _ => scalar _) fun _ => ?_
  refine iteInduction (motive := Empty) (fun _ => other _ (by simp)) fun _ => ?_
  exact iteInduction (motive := Empty) (fun _ => other _ (by simp)) fun _ _ h => nomatch h

theorem Makes.keysOnce (h : Makes b b') (hb : b.KeysOnce) : b'.KeysOnce := by
  refine h.keep (P := KeysOnce) hb fun b id c hb _ hc i entries hi => ?_
  rw [object?_place] at hi
  split at hi
  · cases hi
    obtain rfl := eq_nil_of_newCell hc
    exact .nil
  · exact hb i entries hi

theorem KeysOnce.setObject (hb : b.KeysOnce) (hc : ∀ entries, c = .map entries →
    entries.Pairwise fun e e' => e.1.sameKey e'.1 = false) : (b.setObject id c).KeysOnce := by
  intro i entries hi
  rw [object?_setObject] at hi
  split at hi
  · exact hc entries (Option.some.inj hi)
  · exact hb i entries hi

theorem KeysOnce.mapping {filled : Builder} (hb : b.KeysOnce)
    (h : mapping policy b id = .ok (filled, bound)) :
    filled.KeysOnce ∧ bound.Pairwise fun e e' => e.1.sameKey e'.1 = false := by
  obtain ⟨entries, checked, nodes, -, hchecked, -, hbound⟩ := mapping_eq_ok.mp h
  have hflat : KeysOnce { checked with nodes := nodes } := (makes_precheck hchecked).keysOnce hb
  exact ⟨(makes_bindAll hbound).keysOnce hflat, distinct_bindAll hbound .nil⟩

theorem KeysOnce.fill (hb : b.KeysOnce) (h : fill policy b id = .ok b') : b'.KeysOnce := by
  unfold Builder.fill at h
  dsimp only at h
  split at h
  · obtain ⟨⟨filled, items⟩, hfilled, h⟩ := bind_eq_ok.mp h
    cases h
    exact ((makes_sequence hfilled).2.keysOnce hb).setObject fun entries hc => nomatch hc
  · split at h
    · obtain ⟨⟨filled, bound⟩, hfilled, h⟩ := bind_eq_ok.mp h
      cases h
      obtain ⟨hmade, hbound⟩ := hb.mapping hfilled
      exact hmade.setObject fun entries hc => Cell.map.inj hc ▸ hbound
    · split at h
      · obtain ⟨⟨filled, bound⟩, hfilled, h⟩ := bind_eq_ok.mp h
        cases h
        exact (hb.mapping hfilled).1.setObject fun entries hc => nomatch hc
      · obtain ⟨⟨filled, pairs⟩, hfilled, h⟩ := bind_eq_ok.mp h
        cases h
        exact ((makes_pairList hfilled).2.keysOnce hb).setObject fun entries hc => nomatch hc

end Builder

/-! ## Documents -/

namespace Document

variable {g : NodeGraph} {graph : Graph} {policy : KeyPolicy} {v : Value}

theorem distinct_ofNodes (h : ofNodes policy g = .ok graph) (i : CellId)
    (entries : List (Scalar × CellId)) (hcell : graph.cell i = .map entries) :
    entries.Pairwise fun e e' => e.1.sameKey e'.1 = false := by
  have hstart : (Builder.ofNodes g.nodes).KeysOnce := by
    intro i entries hi
    rw [Builder.object?_ofNodes] at hi
    cases hi
  have hstep : ∀ {b : Builder} {id rest b'}, b.Orderly → b.KeysOnce → b.waiting = id :: rest →
      Builder.fill policy { b with waiting := rest } id = .ok b' → b'.KeysOnce := by
    intro b id rest b' _ hb _ hstep
    have hpop : Builder.KeysOnce { b with waiting := rest } := hb
    exact hpop.fill hstep
  obtain ⟨b, -, -, hb, rfl⟩ := ofNodes_run (P := Builder.KeysOnce)
    (fun hroot => (Builder.Makes.construct hroot).keysOnce hstart) hstep h
  rw [Builder.cell_objects] at hcell
  cases hc : b.object? i with
  | none =>
    rw [hc] at hcell
    cases hcell
  | some c =>
    rw [hc] at hcell
    exact hb i entries (hc.trans (congrArg some hcell))

theorem isDocument_ofChars {cs : List Char} (h : ofChars policy cs = .ok v) : v.IsDocument := by
  obtain ⟨parsed, -, h⟩ := bind_eq_ok.mp h
  cases parsed with
  | none =>
    cases h
    exact .inl ⟨.null, rfl⟩
  | some g =>
    obtain ⟨graph, hgraph, h⟩ := bind_eq_ok.mp h
    cases h
    exact Value.isDocument_ofCell _ (distinct_ofNodes hgraph)

/-- The value of a document given as bytes. -/
theorem isDocument_ofBytes {bytes : Bytes} (h : ofBytes policy bytes = .ok v) : v.IsDocument := by
  unfold ofBytes at h
  split at h
  · exact isDocument_ofChars h
  · cases h

end Document

end BootConfig.Yaml
