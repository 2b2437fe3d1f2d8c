import BootConfig.Proofs.Fingerprint.Registries

/-!
# Asking for the metric of a registry

Whoever asks for the metric of a registry is to get the one that the registry exports. The answer is
looked up among the shared metrics, and a metric that was made for a registry on its own is not one
of them, so that it depends on the operation that was there first.

* `Registries.founder?`: the operation that has made the metric of a registry.
* `Registries.Answers`, `Registries.Provides`: what is promised to those who ask.
* `Registries.provides_iff_founder`: after which operations the promise is kept.
-/

namespace BootConfig.Registries

/-- An operation that asks for a metric on a registry, for one of its own or for the shared one. -/
def Operation.asks (registry : String) : Operation → Bool
  | .create _ asked | .share _ asked => asked == registry
  | .record _ _ | .reset _ => false

/-- The operation that was the first to ask for a metric on a registry. -/
def founder? (registry : String) (ops : List Operation) : Option Operation :=
  ops.find? fun op => op.asks registry

/-- Asking for the metric of a registry is answered with the one that the registry then exports. -/
def Answers (r : Registries) (registry : String) (id : MetricId) : Prop :=
  ∃ r', r.share registry = .ok (r', id) ∧ r'.exports registry = [id]

/-- Whoever asks gets the metric that the registry exports, or a new one if it exports none, and
everyone who asks later gets the same, whatever happens in between. -/
def Provides (r : Registries) (registry : String) : Prop :=
  ∃ id, r.Answers registry id ∧
    (r.exports registry = [id] ∨ r.exports registry = [] ∧ r.metrics.length ≤ id) ∧
    ∀ name later, ((r.run (.share name registry)).1.after later).Answers registry id

/-- What the tables have for a registry: the metric that it exports and the one that is shared. -/
def entries (r : Registries) (registry : String) : Option MetricId × Option MetricId :=
  (r.exported.lookup registry, r.shared.lookup registry)

section

variable {r : Registries} {registry name : String} {op : Operation} {ops : List Operation}
  {id : MetricId}

/-! ## One operation -/

theorem entries_run_of_not_asks (h : op.asks registry = false) :
    (r.run op).1.entries registry = r.entries registry := by
  have hdoes := r.does_run op
  generalize (r.run op).1 = r' at hdoes ⊢
  generalize (r.run op).2 = fault at hdoes
  have hne : ∀ {asked : String}, (asked == registry) = false → registry ≠ asked :=
    fun hasked heq => absurd heq.symm (beq_eq_false_iff_ne.mp hasked)
  cases hdoes with
  | refuses op f known => rfl
  | creates name known hnone => exact Prod.ext (lookup_cons_of_ne (hne h)) rfl
  | sharesNew name known hnone =>
    exact Prod.ext (lookup_cons_of_ne (hne h)) (lookup_cons_of_ne (hne h))
  | sharesOld name known hsome => rfl
  | updates hop hconcerned hname hf => rfl

/-- A registry that exports a metric keeps it, and who asks does not change what is shared. -/
theorem entries_run_of_exported (h : r.exported.lookup registry = some id) :
    (r.run op).1.entries registry = r.entries registry := by
  cases hasks : op.asks registry with
  | false => exact entries_run_of_not_asks hasks
  | true =>
    have hdoes := r.does_run op
    generalize (r.run op).1 = r' at hdoes ⊢
    generalize (r.run op).2 = fault at hdoes
    have hnot : ∀ {asked : String}, (asked == registry) = true →
        r.exported.lookup asked ≠ none := by
      intro asked hasked hnone
      rw [eq_of_beq hasked, h] at hnone
      cases hnone
    cases hdoes with
    | refuses op f known => rfl
    | creates name known hnone => exact absurd hnone (hnot hasks)
    | sharesNew name known hnone => exact absurd hnone (hnot hasks)
    | sharesOld name known hsome => rfl
    | updates hop hconcerned hname hf => rfl

theorem entries_create (h : r.entries registry = (none, none)) :
    (r.run (.create name registry)).1.entries registry = (some r.metrics.length, none) := by
  obtain ⟨hexported, hshared⟩ := Prod.mk.inj h
  obtain ⟨known, hknown⟩ := mention_eq r registry
  simp only [run, hknown, create_eq, hexported]
  exact Prod.ext List.lookup_cons_self hshared

theorem entries_share (h : r.entries registry = (none, none)) :
    (r.run (.share name registry)).1.entries registry =
      (some r.metrics.length, some r.metrics.length) := by
  obtain ⟨hexported, hshared⟩ := Prod.mk.inj h
  obtain ⟨known, hknown⟩ := mention_eq r registry
  simp only [run, share, hknown, create_eq, hexported, hshared]
  exact Prod.ext List.lookup_cons_self List.lookup_cons_self

/-! ## Histories -/

theorem after_append (r : Registries) (before later : List Operation) :
    r.after (before ++ later) = (r.after before).after later := List.foldl_append

theorem entries_after_of_not_asks (h : ∀ op ∈ ops, op.asks registry = false) :
    (r.after ops).entries registry = r.entries registry := by
  induction ops generalizing r with
  | nil => rfl
  | cons op ops ih =>
    obtain ⟨hop, hops⟩ := List.forall_mem_cons.mp h
    rw [after_cons, ih hops, entries_run_of_not_asks hop]

theorem entries_after_of_exported (h : r.exported.lookup registry = some id)
    (ops : List Operation) : (r.after ops).entries registry = r.entries registry := by
  induction ops generalizing r with
  | nil => rfl
  | cons op ops ih =>
    have hrun : (r.run op).1.entries registry = r.entries registry := entries_run_of_exported h
    rw [after_cons, ih ((congrArg Prod.fst hrun).trans h), hrun]

/-- The tables have for a registry what its founder has left there: operations before it did not ask
for a metric on the registry, and those after it find one exported. -/
theorem entries_of_founder (h : founder? registry ops = some op)
    (hop : ∀ r : Registries, r.entries registry = (none, none) →
      ((r.run op).1.entries registry).1.isSome = true) :
    ∃ r : Registries, r.entries registry = (none, none) ∧
      (empty.after ops).entries registry = (r.run op).1.entries registry := by
  obtain ⟨-, before, later, rfl, hbefore⟩ := List.find?_eq_some_iff_append.mp h
  have hnone : (empty.after before).entries registry = (none, none) :=
    entries_after_of_not_asks fun earlier hmem => by simpa using hbefore earlier hmem
  obtain ⟨id, hid⟩ := Option.isSome_iff_exists.mp (hop _ hnone)
  refine ⟨empty.after before, hnone, ?_⟩
  rw [after_append, after_cons, entries_after_of_exported hid]

theorem entries_of_founder_create (h : founder? registry ops = some (.create name registry)) :
    ∃ id, (empty.after ops).entries registry = (some id, none) := by
  obtain ⟨r, hnone, hops⟩ := entries_of_founder h fun r hnone => by rw [entries_create hnone]; rfl
  exact ⟨r.metrics.length, hops.trans (entries_create hnone)⟩

theorem entries_of_founder_share (h : founder? registry ops = some (.share name registry)) :
    ∃ id, (empty.after ops).entries registry = (some id, some id) := by
  obtain ⟨r, hnone, hops⟩ := entries_of_founder h fun r hnone => by rw [entries_share hnone]; rfl
  exact ⟨r.metrics.length, hops.trans (entries_share hnone)⟩

theorem entries_of_no_founder (h : founder? registry ops = none) :
    (empty.after ops).entries registry = (none, none) :=
  entries_after_of_not_asks fun op hop => by simpa using List.find?_eq_none.mp h op hop

/-- A founder asks for a metric of its own, or for the shared one. -/
theorem founder?_cases (h : founder? registry ops = some op) :
    ∃ name, op = .create name registry ∨ op = .share name registry := by
  have hasks := List.find?_some h
  cases op with
  | create name asked => exact ⟨name, .inl (congrArg _ (eq_of_beq hasks))⟩
  | share name asked => exact ⟨name, .inr (congrArg _ (eq_of_beq hasks))⟩
  | record name fingerprint => cases hasks
  | reset name => cases hasks

/-! ## Answers -/

theorem Consistent.exports_of_entries (h : r.Consistent) {exported shared : Option MetricId}
    (hentries : r.entries registry = (exported, shared)) :
    r.exports registry = exported.toList := by
  have hexported : r.exported.lookup registry = exported := congrArg Prod.fst hentries
  rw [h.exports_eq, hexported]

theorem Consistent.answers_of_shared (h : r.Consistent)
    (hentries : r.entries registry = (some id, some id)) : r.Answers registry id := by
  have hshared : r.shared.lookup registry = some id := congrArg Prod.snd hentries
  refine ⟨r, ?_, h.exports_of_entries hentries⟩
  rw [Registries.share, hshared]

theorem Consistent.answers_of_unknown (h : r.Consistent)
    (hentries : r.entries registry = (none, none)) : r.Answers registry r.metrics.length := by
  obtain ⟨hexported, hshared⟩ := Prod.mk.inj hentries
  refine ⟨{ r.withNew registry with shared := (registry, r.metrics.length) :: r.shared }, ?_, ?_⟩
  · rw [Registries.share, hshared, create_eq, hexported]
    rfl
  · exact ((h.withNew hexported).share List.mem_cons_self).exports_of_entries
      (Prod.ext List.lookup_cons_self List.lookup_cons_self)

/-- A metric that was made on its own is in the way of a shared one. -/
theorem share_of_unshared (hentries : r.entries registry = (some id, none)) :
    r.share registry = .error .duplicate := by
  obtain ⟨hexported, hshared⟩ := Prod.mk.inj hentries
  rw [share, hshared, create_eq, hexported]
  rfl

theorem Consistent.provides_of_shared (h : r.Consistent)
    (hentries : r.entries registry = (some id, some id)) : r.Provides registry := by
  have hexported : r.exported.lookup registry = some id := congrArg Prod.fst hentries
  refine ⟨id, h.answers_of_shared hentries, .inl (h.exports_of_entries hentries),
    fun name later => ?_⟩
  refine ((h.run _).after later).answers_of_shared ?_
  rw [← after_cons, entries_after_of_exported hexported, hentries]

theorem Consistent.provides_of_unknown (h : r.Consistent)
    (hentries : r.entries registry = (none, none)) : r.Provides registry := by
  refine ⟨r.metrics.length, h.answers_of_unknown hentries,
    .inr ⟨h.exports_of_entries hentries, Nat.le_refl _⟩, fun name later => ?_⟩
  have hnew : (r.run (.share name registry)).1.entries registry =
      (some r.metrics.length, some r.metrics.length) := entries_share hentries
  refine ((h.run _).after later).answers_of_shared ?_
  rw [entries_after_of_exported (congrArg Prod.fst hnew), hnew]

end

/-- **One metric for whoever asks.** After any operations on any registries, those who ask for the
metric of a registry get the one that it exports, or a new one that everyone gets from then on, if
and only if the first who asked for a metric there did not have one made on its own. If it was made
on its own, the registry goes on exporting it, and all who ask for it are refused. -/
theorem provides_iff_founder (ops : List Operation) (registry : String) :
    ((empty.after ops).Provides registry ↔
      ∀ name, founder? registry ops ≠ some (.create name registry)) ∧
    ∀ name, founder? registry ops = some (.create name registry) →
      ∃ id, ∀ later, (empty.after (ops ++ later)).exports registry = [id] ∧
        (empty.after (ops ++ later)).share registry = .error .duplicate := by
  have h : (empty.after ops).Consistent := consistent_empty.after ops
  refine ⟨⟨fun hprovides name hfounder => ?_, fun hnot => ?_⟩, fun name hfounder => ?_⟩
  · obtain ⟨own, hown⟩ := entries_of_founder_create hfounder
    obtain ⟨id, ⟨r', hshare, -⟩, -⟩ := hprovides
    rw [share_of_unshared hown] at hshare
    cases hshare
  · cases hfounder : founder? registry ops with
    | none => exact h.provides_of_unknown (entries_of_no_founder hfounder)
    | some op =>
      obtain ⟨name, rfl | rfl⟩ := founder?_cases hfounder
      · exact absurd hfounder (hnot name)
      · obtain ⟨id, hid⟩ := entries_of_founder_share hfounder
        exact h.provides_of_shared hid
  · obtain ⟨id, hid⟩ := entries_of_founder_create hfounder
    have hlater : ∀ later, (empty.after (ops ++ later)).entries registry = (some id, none) := by
      intro later
      rw [after_append, entries_after_of_exported (congrArg Prod.fst hid), hid]
    exact ⟨id, fun later => ⟨(consistent_empty.after _).exports_of_entries (hlater later),
      share_of_unshared (hlater later)⟩⟩

/-- One registry whose first metric is shared, though one on its own was asked for later, one whose
first metric was made on its own, and one that nobody has asked for. -/
theorem provides_iff_founder_threeRegistries :
    let ops : List Operation := [.share "a" "first", .create "b" "second", .create "c" "first",
      .record "a" "h1", .share "d" "second", .reset "b"]
    (empty.after ops).Provides "first" ∧ (empty.after ops).Provides "third" ∧
      founder? "second" ops = some (.create "b" "second") ∧
      ¬ (empty.after ops).Provides "second" ∧
      ∃ id, ∀ later, (empty.after (ops ++ later)).exports "second" = [id] ∧
        (empty.after (ops ++ later)).share "second" = .error .duplicate := by
  intro ops
  have hfirst : founder? "first" ops = some (.share "a" "first") := by decide +kernel
  have hsecond : founder? "second" ops = some (.create "b" "second") := by decide +kernel
  have hthird : founder? "third" ops = none := by decide +kernel
  refine ⟨(provides_iff_founder ops "first").1.mpr ?_, (provides_iff_founder ops "third").1.mpr ?_,
    hsecond, fun hprovides => ?_, (provides_iff_founder ops "second").2 "b" hsecond⟩
  · simp [hfirst]
  · simp [hthird]
  · exact (provides_iff_founder ops "second").1.mp hprovides "b" hsecond

/-- A metric that was made on its own is exported, and who asks for the one of its registry is
refused. -/
theorem not_provides_createdBefore :
    let r := empty.after [.create "own" "main"]
    r.exports "main" = [0] ∧ (r.run (.share "shared" "main")).2 = some .duplicate ∧
      ¬ r.Provides "main" := by
  intro r
  have hrefused : (r.share "main").toOption = none := by decide +kernel
  refine ⟨by decide +kernel, by decide +kernel, ?_⟩
  rintro ⟨id, ⟨r', hshare, -⟩, -⟩
  rw [hshare] at hrefused
  cases hrefused

end BootConfig.Registries
