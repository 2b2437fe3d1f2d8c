import BootConfig.Fingerprint.Registry
import BootConfig.Proofs.Data.Table

/-!
# Registries in the course of time

Metrics are made, shared, recorded and reset in any order and on any registries, and some of these
operations are refused. The tables that know the metrics stay in agreement.

* `Registries.Does`: what one operation does, with everything that it changes.
* `Registries.Consistent`: the agreement of the tables, kept by every operation.
* `Registries.registries_after`: what follows for the registries after any operations.
-/

namespace BootConfig

/-- A gauge with a sample for the fingerprint in effect, of value one, and no other. -/
def Metric.ShowsCurrent (m : Metric) : Prop := m.gauge.samples = (m.current.map (·, 1)).toList

theorem Metric.showsCurrent_new : Metric.new.ShowsCurrent := rfl

theorem Metric.showsCurrent_record (m : Metric) (fingerprint : String) :
    (m.record fingerprint).ShowsCurrent := rfl

theorem Metric.showsCurrent_reset (m : Metric) : m.reset.ShowsCurrent := rfl

namespace Registries

/-- The registries after several operations, some of which may have been refused. -/
def after (r : Registries) (ops : List Operation) : Registries :=
  ops.foldl (fun r op => (r.run op).1) r

@[simp] theorem after_cons (r : Registries) (op : Operation) (ops : List Operation) :
    r.after (op :: ops) = (r.run op).1.after ops := rfl

/-- The metrics whose gauges a registry exports. -/
def exports (r : Registries) (registry : String) : List MetricId :=
  (r.exported.filter fun p => p.1 == registry).map Prod.snd

/-- The registry that exports a metric. -/
def registryOf? (r : Registries) (id : MetricId) : Option String :=
  (r.exported.find? fun p => p.2 == id).map Prod.fst

/-- The registry with whose metric an operation has to do. -/
def concerned? (r : Registries) : Operation → Option String
  | .create _ registry | .share _ registry => some registry
  | .record name _ | .reset name => (r.named name).toOption.bind r.registryOf?

/-- The name that an operation binds if it is not refused. -/
def Operation.binds? : Operation → Option String
  | .create name _ | .share name _ => some name
  | .record _ _ | .reset _ => none

/-- The operation that a name has its metric from: the last one that has bound it. -/
def boundBy? (r : Registries) (name : String) : List Operation → Option Operation
  | [] => none
  | op :: ops => ((r.run op).1.boundBy? name ops).or
      (if op.binds? = some name ∧ (r.run op).2 = none then some op else none)

/-! ## One operation -/

/-- With a fresh metric that a registry exports. -/
def withNew (r : Registries) (registry : String) : Registries :=
  { r with
    metrics := r.metrics ++ [Metric.new]
    exported := (registry, r.metrics.length) :: r.exported }

/-- What an operation does. Besides, its registry may become known. -/
inductive Does (r : Registries) : Operation → Registries → Option MetricFault → Prop
  | refuses (op : Operation) (f : MetricFault) (known : List String) :
      r.Does op { r with known } (some f)
  | creates (name : String) {registry : String} (known : List String)
      (hnone : r.exported.lookup registry = none) :
      r.Does (.create name registry)
        ({ r.withNew registry with known }.bindName name r.metrics.length) none
  | sharesNew (name : String) {registry : String} (known : List String)
      (hnone : r.exported.lookup registry = none) :
      r.Does (.share name registry)
        ({ r.withNew registry with
            known, shared := (registry, r.metrics.length) :: r.shared }.bindName
          name r.metrics.length) none
  | sharesOld (name : String) {registry : String} (known : List String) {id : MetricId}
      (hsome : r.shared.lookup registry = some id) :
      r.Does (.share name registry) ({ r with known }.bindName name id) none
  | updates {op : Operation} {name : String} {id : MetricId} {f : Metric → Metric}
      (hop : op.binds? = none) (hconcerned : r.concerned? op = r.registryOf? id)
      (hname : r.names.lookup name = some id) (hf : ∀ m, (f m).ShowsCurrent) :
      r.Does op (r.update id f) none

theorem mention_eq (r : Registries) (registry : String) :
    ∃ known, r.mention registry = { r with known } := by
  unfold mention
  split <;> exact ⟨_, rfl⟩

/-- A metric is made for a registry that exports none. -/
theorem create_eq (r : Registries) (registry : String) :
    r.create registry = match r.exported.lookup registry with
      | some _ => .error .duplicate
      | none => .ok (r.withNew registry, r.metrics.length) := by
  unfold create
  cases r.exported.lookup registry <;> rfl

theorem does_run (r : Registries) (op : Operation) : r.Does op (r.run op).1 (r.run op).2 := by
  cases op with
  | create name registry =>
    obtain ⟨known, hknown⟩ := mention_eq r registry
    unfold run
    dsimp only
    rw [hknown, create_eq]
    cases hlookup : r.exported.lookup registry with
    | some id => exact .refuses _ _ known
    | none => exact .creates name known hlookup
  | share name registry =>
    obtain ⟨known, hknown⟩ := mention_eq r registry
    unfold run share
    dsimp only
    rw [hknown, create_eq]
    cases hshared : r.shared.lookup registry with
    | some id => exact .sharesOld name known hshared
    | none =>
      cases hlookup : r.exported.lookup registry with
      | some id => exact .refuses _ _ known
      | none => exact .sharesNew name known hlookup
  | record name fingerprint =>
    unfold run named
    dsimp only
    cases hname : r.names.lookup name with
    | none => exact .refuses _ _ r.known
    | some id =>
      have hconcerned : r.concerned? (.record name fingerprint) = r.registryOf? id := by
        rw [concerned?, named, hname]
        rfl
      exact .updates rfl hconcerned hname fun m => m.showsCurrent_record fingerprint
  | reset name =>
    unfold run named
    dsimp only
    cases hname : r.names.lookup name with
    | none => exact .refuses _ _ r.known
    | some id =>
      have hconcerned : r.concerned? (.reset name) = r.registryOf? id := by
        rw [concerned?, named, hname]
        rfl
      exact .updates rfl hconcerned hname fun m => m.showsCurrent_reset

/-! ## Agreement of the tables -/

/-- The tables know the metrics alike: a registry exports one metric at most and no two registries
the same one, what is shared or named is exported, and every gauge shows the fingerprint in
effect. -/
structure Consistent (r : Registries) : Prop where
  registries : (r.exported.map Prod.fst).Nodup
  metrics : (r.exported.map Prod.snd).Nodup
  made : ∀ p ∈ r.exported, p.2 < r.metrics.length
  shared : ∀ p ∈ r.shared, p ∈ r.exported
  names : ∀ p ∈ r.names, p.2 ∈ r.exported.map Prod.snd
  shows : ∀ m ∈ r.metrics, m.ShowsCurrent

theorem consistent_empty : empty.Consistent :=
  ⟨List.nodup_nil, List.nodup_nil, by simp [empty], by simp [empty], by simp [empty],
    by simp [empty]⟩

namespace Consistent

variable {r : Registries} {registry name : String} {id : MetricId}

theorem withKnown (h : r.Consistent) (known : List String) : { r with known }.Consistent :=
  ⟨h.registries, h.metrics, h.made, h.shared, h.names, h.shows⟩

theorem withNew (h : r.Consistent) (hnone : r.exported.lookup registry = none) :
    (r.withNew registry).Consistent where
  registries := by
    refine List.nodup_cons.mpr ⟨fun hmem => ?_, h.registries⟩
    obtain ⟨p, hp, hregistry⟩ := List.mem_map.mp hmem
    have hsome := lookup_of_mem h.registries hp
    rw [hregistry, hnone] at hsome
    cases hsome
  metrics := by
    -- the numbers in use are smaller than that of the new metric
    refine List.nodup_cons.mpr ⟨fun hmem => ?_, h.metrics⟩
    obtain ⟨p, hp, hid⟩ := List.mem_map.mp hmem
    exact Nat.lt_irrefl _ (hid ▸ h.made p hp)
  made := by
    intro p hp
    show p.2 < (r.metrics ++ [Metric.new]).length
    rw [List.length_append, List.length_singleton]
    rcases List.mem_cons.mp hp with rfl | hp
    · exact Nat.lt_succ_self _
    · exact Nat.lt_succ_of_lt (h.made p hp)
  shared p hp := List.mem_cons_of_mem _ (h.shared p hp)
  names p hp := List.mem_cons_of_mem _ (h.names p hp)
  shows := by
    intro m hm
    rcases List.mem_append.mp hm with hm | hm
    · exact h.shows m hm
    · rw [List.mem_singleton.mp hm]
      exact Metric.showsCurrent_new

theorem share (h : r.Consistent) (hmem : (registry, id) ∈ r.exported) :
    { r with shared := (registry, id) :: r.shared }.Consistent where
  registries := h.registries
  metrics := h.metrics
  made := h.made
  shared := List.forall_mem_cons.mpr ⟨hmem, h.shared⟩
  names := h.names
  shows := h.shows

theorem bindName (h : r.Consistent) (name : String) (hid : id ∈ r.exported.map Prod.snd) :
    (r.bindName name id).Consistent where
  registries := h.registries
  metrics := h.metrics
  made := h.made
  shared := h.shared
  names := List.forall_mem_cons.mpr ⟨hid, fun p hp => h.names p (List.mem_of_mem_filter hp)⟩
  shows := h.shows

theorem update (h : r.Consistent) (id : MetricId) {f : Metric → Metric}
    (hf : ∀ m, (f m).ShowsCurrent) : (r.update id f).Consistent where
  registries := h.registries
  metrics := h.metrics
  made p hp := by
    show p.2 < (r.metrics.modify id f).length
    rw [List.length_modify]
    exact h.made p hp
  shared := h.shared
  names := h.names
  shows := by
    intro m hm
    obtain ⟨i, hi⟩ := List.mem_iff_getElem?.mp hm
    have hi : (r.metrics.modify id f)[i]? = some m := hi
    rw [List.getElem?_modify] at hi
    obtain ⟨old, hold, rfl⟩ := Option.map_eq_some_iff.mp hi
    split
    · exact hf old
    · exact h.shows old (List.mem_of_getElem? hold)

/-- An operation leaves the tables in agreement, whether or not it is refused. -/
theorem run (h : r.Consistent) (op : Operation) : (r.run op).1.Consistent := by
  have hdoes := r.does_run op
  generalize (r.run op).1 = r' at hdoes ⊢
  generalize (r.run op).2 = fault at hdoes
  cases hdoes with
  | refuses op f known => exact h.withKnown known
  | creates name known hnone =>
    exact ((h.withNew hnone).withKnown known).bindName name List.mem_cons_self
  | sharesNew name known hnone =>
    refine (((h.withNew hnone).withKnown known).share ?_).bindName name ?_
    · exact List.mem_cons_self
    · exact List.mem_cons_self
  | sharesOld name known hsome =>
    refine (h.withKnown known).bindName name ?_
    exact List.mem_map_of_mem (h.shared _ (mem_of_lookup hsome))
  | updates hop hconcerned hname hf => exact h.update _ hf

theorem after (h : r.Consistent) (ops : List Operation) : (r.after ops).Consistent := by
  induction ops generalizing r with
  | nil => exact h
  | cons op ops ih => exact ih (h.run op)

/-! ## What registries export -/

theorem exports_eq (h : r.Consistent) (registry : String) :
    r.exports registry = (r.exported.lookup registry).toList :=
  filter_eq_lookup h.registries registry

theorem samples_eq (h : r.Consistent) (hid : id ∈ r.exports registry) :
    r.samples registry = ((r.metric id).current.map (·, 1)).toList := by
  rw [h.exports_eq, Option.mem_toList] at hid
  have hlt := h.made _ (mem_of_lookup hid)
  have hmem : r.metric id ∈ r.metrics := by
    unfold metric
    rw [List.getD_eq_getElem?_getD, List.getElem?_eq_getElem hlt]
    exact List.getElem_mem hlt
  unfold samples exportedMetric?
  rw [hid]
  exact h.shows _ hmem

theorem registryOf?_eq (h : r.Consistent) (hmem : (registry, id) ∈ r.exported) :
    r.registryOf? id = some registry := by
  unfold registryOf?
  cases hfind : r.exported.find? fun p => p.2 == id with
  | none =>
    have hnot := List.find?_eq_none.mp hfind _ hmem
    simp at hnot
  | some p =>
    have hid : p.2 = id := by simpa using List.find?_some hfind
    have hsame := List.inj_on_of_nodup_map h.metrics (List.mem_of_find?_eq_some hfind) hmem hid
    rw [hsame]
    rfl

theorem exports_of_names (h : r.Consistent) (hname : r.names.lookup name = some id) :
    ∃ registry, r.exports registry = [id] := by
  obtain ⟨p, hp, rfl⟩ := List.mem_map.mp (h.names _ (mem_of_lookup hname))
  exact ⟨p.1, by rw [h.exports_eq, lookup_of_mem h.registries hp]; rfl⟩

end Consistent

/-! ## What an operation leaves alone -/

/-- A registry looks the same to whoever asks for its metric. -/
structure SameOn (registry : String) (r r' : Registries) : Prop where
  exports : r'.exports registry = r.exports registry
  metric : r'.exportedMetric? registry = r.exportedMetric? registry
  shared : r'.shared.lookup registry = r.shared.lookup registry

section

variable {r : Registries} {registry other name : String}

/-- A registry looks the same if its entries are, and the metric it exports. -/
theorem Consistent.sameOn (h : r.Consistent) {r' : Registries} (h' : r'.Consistent)
    (hexported : r'.exported.lookup registry = r.exported.lookup registry)
    (hmetric : ∀ id, r.exported.lookup registry = some id → r'.metric id = r.metric id)
    (hshared : r'.shared.lookup registry = r.shared.lookup registry) : SameOn registry r r' where
  exports := by rw [h.exports_eq, h'.exports_eq, hexported]
  metric := by
    unfold exportedMetric?
    rw [hexported]
    cases hid : r.exported.lookup registry with
    | none => rfl
    | some id => exact congrArg some (hmetric id hid)
  shared := hshared

theorem Consistent.metric_withNew (h : r.Consistent) (registry : String) {id : MetricId}
    (hid : r.exported.lookup other = some id) : (r.withNew registry).metric id = r.metric id := by
  have hlt := h.made _ (mem_of_lookup hid)
  show (r.metrics ++ [Metric.new]).getD id Metric.new = r.metrics.getD id Metric.new
  rw [List.getD_eq_getElem?_getD, List.getD_eq_getElem?_getD, List.getElem?_append_left hlt]

theorem metric_update_of_ne {id id' : MetricId} (h : id ≠ id') (f : Metric → Metric) :
    (r.update id' f).metric id = r.metric id := by
  show (r.metrics.modify id' f).getD id Metric.new = r.metrics.getD id Metric.new
  rw [List.getD_eq_getElem?_getD, List.getD_eq_getElem?_getD, List.getElem?_modify]
  simp [Ne.symm h]

/-- An operation changes nothing on registries that it does not concern. -/
theorem Consistent.sameOn_run (h : r.Consistent) {op : Operation}
    (hother : r.concerned? op ≠ some other) : SameOn other r (r.run op).1 := by
  have hafter := h.run op
  have hdoes := r.does_run op
  generalize (r.run op).1 = r' at hafter hdoes ⊢
  generalize (r.run op).2 = fault at hdoes
  cases hdoes with
  | refuses op f known => exact h.sameOn hafter rfl (fun _ _ => rfl) rfl
  | @creates name made known hnone =>
    have hne : other ≠ made := fun heq => hother (congrArg some heq.symm)
    exact h.sameOn hafter (lookup_cons_of_ne hne) (fun _ hid => h.metric_withNew made hid) rfl
  | @sharesNew name made known hnone =>
    have hne : other ≠ made := fun heq => hother (congrArg some heq.symm)
    exact h.sameOn hafter (lookup_cons_of_ne hne) (fun _ hid => h.metric_withNew made hid)
      (lookup_cons_of_ne hne)
  | sharesOld name known hsome => exact h.sameOn hafter rfl (fun _ _ => rfl) rfl
  | updates hop hconcerned hname hf =>
    refine h.sameOn hafter rfl (fun id hid => metric_update_of_ne ?_ _) rfl
    -- the metric that is changed is exported by the registry that is concerned
    rintro rfl
    exact hother (hconcerned.trans (h.registryOf?_eq (mem_of_lookup hid)))

/-- An operation that is refused changes nothing but the registries that are known. -/
theorem run_refused {op : Operation} {f : MetricFault} (h : (r.run op).2 = some f) :
    ∃ known, (r.run op).1 = { r with known } := by
  have hdoes := r.does_run op
  rw [h] at hdoes
  generalize (r.run op).1 = r' at hdoes ⊢
  cases hdoes with
  | refuses op f known => exact ⟨known, rfl⟩

/-! ## Names -/

theorem lookup_bindName_self (name : String) (id : MetricId) :
    (r.bindName name id).names.lookup name = some id := by
  simp [bindName]

/-- An operation that does not bind a name leaves it bound as it was. -/
theorem names_run {op : Operation} (h : ¬(op.binds? = some name ∧ (r.run op).2 = none)) :
    (r.run op).1.names.lookup name = r.names.lookup name := by
  have hdoes := r.does_run op
  generalize (r.run op).1 = r' at hdoes ⊢
  generalize (r.run op).2 = fault at hdoes h
  have hbind : ∀ {bound : String} (id : MetricId), name ≠ bound →
      (r.bindName bound id).names.lookup name = r.names.lookup name := by
    intro bound id hne
    exact (lookup_cons_of_ne hne).trans (lookup_filter_of_ne hne)
  have hne : ∀ {bound : String}, ¬(some bound = some name ∧ (none : Option MetricFault) = none) →
      name ≠ bound := fun hnot heq => hnot ⟨congrArg some heq.symm, rfl⟩
  cases hdoes with
  | refuses op f known => rfl
  | creates bound known hnone => exact hbind _ (hne h)
  | sharesNew bound known hnone => exact hbind _ (hne h)
  | sharesOld bound known hsome => exact hbind _ (hne h)
  | updates hop hconcerned hname hf => rfl

/-- A shared metric stays the one that is shared. -/
theorem shared_run (op : Operation) {id : MetricId} (h : r.shared.lookup registry = some id) :
    (r.run op).1.shared.lookup registry = some id := by
  by_cases hnew : ∃ name, op = .share name registry
  · -- whoever asks again gets the old one
    obtain ⟨name, rfl⟩ := hnew
    obtain ⟨known, hknown⟩ := mention_eq r registry
    unfold run share
    dsimp only
    rw [hknown, h]
    exact h
  · have hdoes := r.does_run op
    generalize (r.run op).1 = r' at hdoes ⊢
    generalize (r.run op).2 = fault at hdoes
    cases hdoes with
    | sharesNew name known hnone =>
      have hne : registry ≠ _ := fun heq => hnew ⟨name, heq ▸ rfl⟩
      exact (lookup_cons_of_ne hne).trans h
    | _ => exact h

end

/-! ## Histories -/

section

variable {r : Registries} {registry name : String} {ops : List Operation}

theorem names_after (h : r.boundBy? name ops = none) :
    (r.after ops).names.lookup name = r.names.lookup name := by
  induction ops generalizing r with
  | nil => rfl
  | cons op ops ih =>
    obtain ⟨hlater, hnow⟩ := Option.or_eq_none_iff.mp h
    rw [after_cons, ih hlater]
    refine names_run fun hbinds => ?_
    rw [if_pos hbinds] at hnow
    cases hnow

theorem shared_after {id : MetricId} (h : r.shared.lookup registry = some id) :
    (r.after ops).shared.lookup registry = some id := by
  induction ops generalizing r with
  | nil => exact h
  | cons op ops ih => exact ih (shared_run op h)

/-- Sharing binds a name to the metric that is shared from then on. -/
theorem share_binds (h : (r.run (.share name registry)).2 = none) :
    ∃ id, (r.run (.share name registry)).1.names.lookup name = some id ∧
      (r.run (.share name registry)).1.shared.lookup registry = some id := by
  have hdoes := r.does_run (.share name registry)
  rw [h] at hdoes
  generalize (r.run (.share name registry)).1 = r' at hdoes ⊢
  cases hdoes with
  | sharesNew name known hnone =>
    exact ⟨r.metrics.length, lookup_bindName_self _ _, List.lookup_cons_self⟩
  | sharesOld name known hsome => exact ⟨_, lookup_bindName_self _ _, hsome⟩
  | updates hop => cases hop

/-- A name that has its metric from sharing is bound to the one that is shared. The induction is on
the operations: what comes after the last one that binds the name leaves it bound. -/
theorem lookup_of_boundBy (h : r.boundBy? name ops = some (.share name registry)) :
    ∃ id, (r.after ops).names.lookup name = some id ∧
      (r.after ops).shared.lookup registry = some id := by
  induction ops generalizing r with
  | nil => cases h
  | cons op ops ih =>
    rw [boundBy?] at h
    cases hlater : (r.run op).1.boundBy? name ops with
    | some later =>
      rw [hlater] at h
      cases h
      exact ih hlater
    | none =>
      rw [hlater, Option.none_or] at h
      split at h
      · rename_i hbinds
        cases h
        obtain ⟨id, hname, hshared⟩ := share_binds hbinds.2
        rw [after_cons]
        exact ⟨id, (names_after hlater).trans hname, shared_after hshared⟩
      · cases h

end

theorem named_eq_ok {r : Registries} {name : String} {id : MetricId} :
    r.named name = .ok id ↔ r.names.lookup name = some id := by
  unfold named
  cases r.names.lookup name <;> simp

/-- **Metrics on any registries.** Whatever metrics have been made, shared, recorded and reset, and
whatever of it has been refused: a registry exports one gauge at most, with one sample for the
fingerprint in effect or with none; every name is bound to a metric that some registry exports, and
names that have theirs by sharing that of one registry have the same. A further operation leaves
alone all registries but the one it concerns, and if it is refused, everything. -/
theorem registries_after (ops : List Operation) :
    let r := empty.after ops
    (∀ registry, (r.exports registry).length ≤ 1 ∧ ∀ id ∈ r.exports registry,
      r.samples registry = ((r.metric id).current.map (·, 1)).toList) ∧
    (∀ name id, r.named name = .ok id → ∃ registry, r.exports registry = [id]) ∧
    (∀ a b registry, empty.boundBy? a ops = some (.share a registry) →
      empty.boundBy? b ops = some (.share b registry) →
        ∃ id, r.exports registry = [id] ∧ r.named a = .ok id ∧ r.named b = .ok id) ∧
    ∀ op, (∀ registry, r.concerned? op ≠ some registry → SameOn registry r (r.run op).1) ∧
      ∀ f, (r.run op).2 = some f → ∃ known, (r.run op).1 = { r with known } := by
  have h : (empty.after ops).Consistent := consistent_empty.after ops
  refine ⟨fun registry => ⟨?_, fun id hid => h.samples_eq hid⟩, fun name id hname => ?_,
    fun a b registry ha hb => ?_,
    fun op => ⟨fun registry hother => h.sameOn_run hother, fun f hf => run_refused hf⟩⟩
  · rw [h.exports_eq]
    cases (empty.after ops).exported.lookup registry <;> simp
  · exact h.exports_of_names (named_eq_ok.mp hname)
  · obtain ⟨id, ha, hshared⟩ := lookup_of_boundBy ha
    obtain ⟨id', hb, hshared'⟩ := lookup_of_boundBy hb
    obtain rfl : id = id' := Option.some.inj (hshared.symm.trans hshared')
    have hexported := h.shared _ (mem_of_lookup hshared)
    refine ⟨id, ?_, named_eq_ok.mpr ha, named_eq_ok.mpr hb⟩
    rw [h.exports_eq, lookup_of_mem h.registries hexported]
    rfl

/-- Two registries, one with a metric of its own that is reset, one with a shared metric; both
refuse a second one. -/
theorem registries_after_refusals :
    let ops : List Operation := [.create "own" "first", .share "b" "second", .record "own" "h1",
      .share "own2" "first", .share "c" "second", .record "c" "h2", .create "b" "second",
      .reset "own", .record "d" "h3"]
    let r := empty.after ops
    empty.boundBy? "b" ops = some (.share "b" "second") ∧
      empty.boundBy? "c" ops = some (.share "c" "second") ∧
      (∃ id, r.exports "second" = [id] ∧ r.named "b" = .ok id ∧ r.named "c" = .ok id) ∧
      r.samples "first" = [] ∧ r.samples "second" = [("h2", 1)] ∧
      r.concerned? (.record "b" "h4") ≠ some "first" ∧
      SameOn "first" r (r.run (.record "b" "h4")).1 ∧
      (r.run (.share "own2" "first")).2 = some .duplicate ∧
      ∃ known, (r.run (.share "own2" "first")).1 = { r with known } := by
  intro ops r
  have hb : empty.boundBy? "b" ops = some (.share "b" "second") := by decide +kernel
  have hc : empty.boundBy? "c" ops = some (.share "c" "second") := by decide +kernel
  have hother : r.concerned? (.record "b" "h4") ≠ some "first" := by decide +kernel
  have hrefused : (r.run (.share "own2" "first")).2 = some .duplicate := by decide +kernel
  obtain ⟨_, _, hshared, hop⟩ := registries_after ops
  exact ⟨hb, hc, hshared "b" "c" "second" hb hc, by decide +kernel, by decide +kernel, hother,
    (hop _).1 "first" hother, hrefused, (hop _).2 _ hrefused⟩

end Registries

end BootConfig
