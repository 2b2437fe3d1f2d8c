import BootConfig.Schema.Ingester
import BootConfig.Proofs.Schema.Recheck

/-!
# The settings of the ingester in sections

The schema of the program is a schema in sections: every default is a value that its own check
leaves as it is.

* `Ingester.sectioned`: this fact, on which the theorems about sections rest.
* `Ingester.wellFormed`: every schema of the program is well formed.
-/

namespace BootConfig

/-! ## Settled leaves -/

def SettledLeaf (f : Field) : Prop := IsLeaf f.2 ∧ Settled f

theorem settled_of_scalar {f : Field} {s : Scalar} (hdefault : f.1.default? = some (.scalar s))
    (hcheck : f.check (.value (.scalar s)) = .ok (.value (.scalar s))) : Settled f :=
  ⟨.scalar s, hdefault, hcheck, rfl, fun upper => by rw [Value.overlay]; simp⟩

namespace Ingester

/-- A plain field is settled if its default is of its type and keeps its rule. -/
theorem settledLeaf_plain {t : ScalarType} (name help : String) {s : Scalar} {rule : Option Rule}
    (hcoerce : t.coerceScalar s = .ok s) (hrule : rule.all (fun r => r.holds s) = true) :
    SettledLeaf (plain t name help (.scalar s) rule) := by
  refine ⟨.scalar t, settled_of_scalar rfl ?_⟩
  have hinput : t.coerce (.value (.scalar s)) = .ok s := hcoerce
  show (FieldType.check (.scalar t) (.value (.scalar s))).bind _ = _
  rw [FieldType.check, hinput]
  show FieldInfo.obey _ (.value (.scalar s)) = _
  unfold FieldInfo.obey
  cases rule with
  | none => rfl
  | some r =>
    have hholds : r.holds s = true := hrule
    show (if r.holds s then _ else _) = _
    rw [if_pos hholds]

/-- A choice is settled if its default is a member of it. -/
theorem settledLeaf_choice {info : FieldInfo} {e : Enumeration} {m : Scalar}
    (hdefault : info.default? = some (.scalar m))
    (hprepare : info.prepare (.value (.scalar m)) = .value (.scalar m)) (hrule : info.rule = none)
    (hmember : e.find? m = some m) : SettledLeaf (info, .enumeration e) := by
  refine ⟨.enumeration e, settled_of_scalar hdefault ?_⟩
  have hfind : (Setting.value (.scalar m)).scalar?.bind e.find? = some m := hmember
  show (FieldType.check (.enumeration e) (info.prepare (.value (.scalar m)))).bind info.obey = _
  rw [hprepare, FieldType.check, Enumeration.check, hfind]
  show info.obey (.value (.scalar m)) = _
  unfold FieldInfo.obey
  rw [hrule]

theorem settledLeaf_optionalText (name help : String) : SettledLeaf (optionalText name help) := by
  refine ⟨.optional .text, settled_of_scalar rfl ?_⟩
  show (FieldType.check (.union .choice true [.scalar .text]) _).bind _ = _
  rw [FieldType.check]
  rfl

theorem settledLeaf_blockRanges : SettledLeaf blockRangesField := by
  refine ⟨.list _, .list [Value.int 7200], rfl, ?_, rfl, fun upper => by rw [Value.overlay]; simp⟩
  show (FieldType.check (.list (some .int)) _).bind _ = _
  rw [FieldType.check]
  rfl

/-! ## Sections -/

theorem isSection {name : String} {inner : Schema}
    (hdistinct : (inner.fields.map fun f => f.1.name).Nodup)
    (hnoPoint : ∀ f ∈ inner.fields, '.' ∉ f.1.name.toList)
    (hfields : ∀ f ∈ inner.fields, SettledLeaf f) : IsSection (groupField name inner) inner where
  type := rfl
  default := rfl
  upperCase := rfl
  rule := rfl
  distinct := hdistinct
  noPoint := hnoPoint
  leaf f hf := (hfields f hf).1
  settled f hf := (hfields f hf).2

theorem isSection_server : IsSection (groupField "server" server) server := by
  refine isSection (by decide) (by decide) ?_
  simp only [server, List.forall_mem_cons]
  exact ⟨settledLeaf_plain _ _ rfl rfl, settledLeaf_plain _ _ rfl rfl,
    settledLeaf_plain _ _ rfl rfl, settledLeaf_plain _ _ rfl rfl, by simp⟩

theorem isSection_log : IsSection (groupField "log" log) log := by
  refine isSection (by decide) (by decide) ?_
  simp only [log, List.forall_mem_cons]
  exact ⟨settledLeaf_choice rfl rfl rfl rfl, settledLeaf_choice rfl rfl rfl rfl,
    settledLeaf_optionalText _ _, settledLeaf_plain _ _ rfl rfl, settledLeaf_plain _ _ rfl rfl,
    by simp⟩

theorem isSection_storage : IsSection (groupField "storage" storage) storage := by
  refine isSection (by decide) (by decide) ?_
  simp only [storage, List.forall_mem_cons]
  exact ⟨settledLeaf_choice rfl rfl rfl rfl, settledLeaf_plain _ _ rfl rfl,
    settledLeaf_optionalText _ _, settledLeaf_optionalText _ _, by simp⟩

theorem isSection_ingester : IsSection (groupField "ingester" ingester) ingester := by
  refine isSection (by decide) (by decide) ?_
  simp only [ingester, List.forall_mem_cons]
  exact ⟨settledLeaf_plain _ _ rfl rfl, settledLeaf_plain _ _ rfl rfl,
    settledLeaf_plain _ _ rfl rfl, settledLeaf_plain _ _ rfl rfl, by simp⟩

theorem isSection_blocksStorage :
    IsSection (groupField "blocks_storage" blocksStorage) blocksStorage := by
  refine isSection (by decide) (by decide) ?_
  simp only [blocksStorage, List.forall_mem_cons]
  exact ⟨settledLeaf_plain _ _ rfl rfl, settledLeaf_blockRanges, settledLeaf_plain _ _ rfl rfl,
    settledLeaf_plain _ _ rfl rfl, by simp⟩

/-- The schema of the program is a schema in sections. -/
theorem sectioned : Sectioned schema where
  distinct := by decide
  noPoint := by decide
  sections := by
    simp only [schema, List.forall_mem_cons]
    exact ⟨⟨_, isSection_server⟩, ⟨_, isSection_log⟩, ⟨_, isSection_storage⟩,
      ⟨_, isSection_ingester⟩, ⟨_, isSection_blocksStorage⟩, by simp⟩

/-! ## Well-formed declarations -/

theorem wellFormed_plain (t : ScalarType) (name help : String) (default : Value)
    (rule : Option Rule) : (plain t name help default rule).WellFormed where
  type := .scalar t
  rule := .inr ⟨t, rfl⟩
  upperCase h := by cases h

theorem wellFormed_optionalText (name help : String) : (optionalText name help).WellFormed where
  type := .union fun t ht => by
    rw [List.mem_singleton.mp ht]
    exact .scalar .text
  rule := .inl rfl
  upperCase h := by cases h

theorem wellFormed_textChoice (name : String) (members : List String) :
    (textChoice name members).WellFormed := by
  intro _ m hm
  obtain ⟨text, _, rfl⟩ := List.mem_map.mp hm
  exact ⟨_, rfl⟩

theorem wellFormed_choiceField (name help default enumName : String) (members : List String) :
    (choiceField name help default (textChoice enumName members)).WellFormed where
  type := .enumeration (wellFormed_textChoice enumName members)
  rule := .inl rfl
  upperCase h := by cases h

theorem wellFormed_levelField : levelField.WellFormed where
  type := .enumeration (wellFormed_textChoice _ _)
  rule := .inl rfl
  upperCase _ := by
    refine ⟨logLevels, rfl, fun t ht => ?_⟩
    have hall : ∀ m ∈ logLevels.members, ∀ t, m = .text t → t.toUpper = t := by
      simp only [logLevels, textChoice, List.map_cons, List.map_nil, List.forall_mem_cons]
      refine ⟨?_, ?_, ?_, ?_, ?_, by simp⟩
      all_goals
        rintro t ⟨⟩
        decide +kernel
    exact hall _ ht t rfl

theorem wellFormed_groupField (name : String) (s : Schema) : (groupField name s).WellFormed where
  type := .group s.name s.fields
  rule := .inl rfl
  upperCase h := by cases h

/-- Every schema of the program is well formed. -/
theorem wellFormed : ∀ s ∈ schemas, s.WellFormed := by
  simp only [schemas, List.forall_mem_cons]
  refine ⟨⟨by decide, ?_⟩, ⟨by decide, ?_⟩, ⟨by decide, ?_⟩, ⟨by decide, ?_⟩, ⟨by decide, ?_⟩,
    ⟨by decide, ?_⟩, by simp⟩
  · simp only [server, List.forall_mem_cons]
    exact ⟨wellFormed_plain _ _ _ _ _, wellFormed_plain _ _ _ _ _, wellFormed_plain _ _ _ _ _,
      wellFormed_plain _ _ _ _ _, by simp⟩
  · simp only [log, List.forall_mem_cons]
    exact ⟨wellFormed_levelField, wellFormed_choiceField _ _ _ _ _, wellFormed_optionalText _ _,
      wellFormed_plain _ _ _ _ _, wellFormed_plain _ _ _ _ _, by simp⟩
  · simp only [storage, List.forall_mem_cons]
    exact ⟨wellFormed_choiceField _ _ _ _ _, wellFormed_plain _ _ _ _ _,
      wellFormed_optionalText _ _, wellFormed_optionalText _ _, by simp⟩
  · simp only [ingester, List.forall_mem_cons]
    exact ⟨wellFormed_plain _ _ _ _ _, wellFormed_plain _ _ _ _ _, wellFormed_plain _ _ _ _ _,
      wellFormed_plain _ _ _ _ _, by simp⟩
  · simp only [blocksStorage, List.forall_mem_cons]
    exact ⟨wellFormed_plain _ _ _ _ _, ⟨.list _, .inl rfl, fun h => by cases h⟩,
      wellFormed_plain _ _ _ _ _, wellFormed_plain _ _ _ _ _, by simp⟩
  · simp only [schema, List.forall_mem_cons]
    exact ⟨wellFormed_groupField _ _, wellFormed_groupField _ _, wellFormed_groupField _ _,
      wellFormed_groupField _ _, wellFormed_groupField _ _, by simp⟩

end Ingester

end BootConfig
