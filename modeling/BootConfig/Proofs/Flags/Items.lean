import BootConfig.Proofs.Failing
import BootConfig.Proofs.Flags.Single
import BootConfig.Proofs.Schema.Settled

/-!
# Items given by flags

The flag of a list reads each of its texts by itself. For integers, floating-point numbers and texts
it reads them as the flag of a single value would; but of truth values it only asks whether there is
any text, where the flag of a single one takes the words for true and for false.

* `Schema.Offers`: a field at a path of settings, with the option that it calls for.
* `Schema.sets_list`, `Schema.sets_single`: what the flag of a list and that of one item leave.
* `Schema.sets_items_iff`: when the one leaves the list of what the other leaves.
-/

namespace BootConfig

/-- Relations that agree on the items of a list relate it to the same lists. -/
theorem forall₂_congr_left {α β : Type} {R R' : α → β → Prop} {items : List α} {others : List β}
    (h : ∀ a ∈ items, ∀ b, R a b ↔ R' a b) :
    List.Forall₂ R items others ↔ List.Forall₂ R' items others := by
  induction items generalizing others with
  | nil => simp
  | cons a items ih =>
    obtain ⟨ha, hitems⟩ := List.forall_mem_cons.mp h
    simp only [List.forall₂_cons_left_iff, ha, ih hitems]

open Options (Arity CommandLine CommandOption Conversion NoEquals find?)

/-! ## Conversions -/

namespace Flags

/-- How the flag of a single value reads it. -/
def singleConversion : ScalarType → Conversion
  | .int => .int
  | .float => .float
  | .text => .text
  | .bool => .truth

/-- How many values the flag of a single value takes. -/
def singleArity : ScalarType → Arity
  | .bool => .optional
  | _ => .one

variable {t : ScalarType} {text : String} {x : Scalar}

theorem flagForm?_scalar (t : ScalarType) :
    (FieldType.scalar t).flagForm? = some (singleArity t, singleConversion t) := by
  cases t <;> rfl

theorem readAll_single (t : ScalarType) (text : String) :
    (singleConversion t).readAll (singleArity t) [text] =
      ((singleConversion t).read text).map .scalar := by
  cases t <;> rfl

/-- Items and single values are read alike, but for truth values. -/
theorem itemConversion_eq (h : t ≠ .bool) : itemConversion (some t) = singleConversion t := by
  cases t with
  | bool => exact (h rfl).elim
  | _ => rfl

/-- What is read for a type is of that type. -/
theorem coerceScalar_of_read {c : Conversion}
    (hc : c = itemConversion (some t) ∨ c = singleConversion t) (h : c.read text = .ok x) :
    t.coerceScalar x = .ok x := by
  cases t with
  | int =>
    obtain rfl : c = .int := hc.elim id id
    simp only [Conversion.read] at h
    split at h <;> cases h
    rfl
  | float =>
    obtain rfl : c = .float := hc.elim id id
    simp only [Conversion.read] at h
    split at h <;> cases h
    rfl
  | text =>
    obtain rfl : c = .text := hc.elim id id
    cases h
    rfl
  | bool =>
    rcases hc with rfl | rfl
    · cases h
      rfl
    · simp only [singleConversion, Conversion.read] at h
      split at h <;> cases h
      rfl

theorem coerceScalar_of_forall₂ {texts : List String} {xs : List Scalar}
    (h : List.Forall₂ (fun text x => (itemConversion (some t)).read text = .ok x) texts xs) :
    ∀ x ∈ xs, t.coerceScalar x = .ok x := by
  induction h with
  | nil => exact List.forall_mem_nil _
  | cons hx _ ih => exact List.forall_mem_cons.mpr ⟨coerceScalar_of_read (.inl rfl) hx, ih⟩

/-- For a truth value the flag of a list asks whether there is any text. -/
theorem read_presence (text : String) :
    (itemConversion (some .bool)).read text = .ok (.bool !(Text.ofString text).isEmpty) := rfl

/-- A word that is read as a truth value is no empty text. -/
theorem isEmpty_of_read_truth (h : Conversion.truth.read text = .ok x) :
    (Text.ofString text).isEmpty = false := by
  rw [Text.isEmpty, List.isEmpty_eq_false_iff]
  intro hnil
  have hempty : text = "" := by
    rw [← String.toList_inj]
    exact List.map_eq_nil_iff.mp hnil
  subst hempty
  cases h

end Flags

/-! ## Checks of what is read -/

section

variable {t : ScalarType} {xs : List Scalar} {f : Field}

theorem checkItems_self (h : ∀ x ∈ xs, t.coerceScalar x = .ok x) (i : Nat) :
    checkItems t i (xs.map Value.scalar) = ([], xs.map Value.scalar) := by
  induction xs generalizing i with
  | nil => rfl
  | cons x xs ih =>
    obtain ⟨hx, hxs⟩ := List.forall_mem_cons.mp h
    have hvalue : t.coerce (.value (.scalar x)) = .ok x := hx
    rw [List.map_cons, checkItems, ih hxs]
    simp only [hvalue]

/-- A list of items of its type is left as it is. -/
theorem Field.check_items (hf : f.2 = .list (some t)) (h : ∀ x ∈ xs, t.coerceScalar x = .ok x) :
    f.check (.value (.list (xs.map Value.scalar))) =
      .ok (.value (.list (xs.map Value.scalar))) := by
  refine Field.check_self ?_ ?_ ?_
  · unfold FieldInfo.prepare
    split
    · rename_i heq
      cases heq
    · rfl
  · rw [hf, FieldType.check]
    simp only [checkList, Setting.items?, Value.view, checkItems_self h]
    rfl
  · unfold FieldInfo.obey
    split
    · rename_i heq
      cases heq
    · rfl

/-- A value of its type is left as it is by a field that asks for nothing else. -/
theorem Field.check_single (hf : f.2 = .scalar t) (hupper : f.1.upperCase = false)
    (hrule : f.1.rule = none) {x : Scalar} (h : t.coerceScalar x = .ok x) :
    f.check (.value (.scalar x)) = .ok (.value (.scalar x)) :=
  Field.check_self (FieldInfo.prepare_eq hupper _) (hf ▸ FieldType.check_scalar_self h)
    (FieldInfo.obey_eq hrule _)

end

/-! ## The fields of flags -/

namespace Schema

/-- Settings have a field at a path, and an option is the one that it calls for. -/
structure Offers (s : Schema) (config : Setting) (path : String) (f : Field) (o : CommandOption) :
    Prop where
  reaches : s.Reaches config (Flags.names path) f
  flag : Flags.flagAt? (Flags.names path, f) = some o

variable {s : Schema} {c : CommandLine} {config new : Setting} {path text : String} {f : Field}
  {o : CommandOption} {args texts : List String} {t : ScalarType}

/-- The option for a field sets its path, in the form that its type calls for. -/
theorem Offers.eq_option (h : s.Offers config path f o) {form : Arity × Conversion}
    (hform : f.2.flagForm? = some form) :
    o = Flags.option path f.1.help form.1 form.2 := by
  have hflag := h.flag
  rw [Flags.flagAt?, Flags.flag?, Flags.dotted_names, hform] at hflag
  exact (Option.some.inj hflag).symm

/-- The flag of a list leaves the list of what it reads. -/
theorem sets_list (h : s.Offers config path f o) (hf : f.2 = .list (some t))
    (hpresents : c.Presents args o texts) :
    s.Sets c config args path new ↔ ∃ xs : List Scalar,
      new = .value (.list (xs.map Value.scalar)) ∧
      List.Forall₂ (fun text x => (Flags.itemConversion (some t)).read text = .ok x) texts xs := by
  have hform : f.2.flagForm? = some (.many, Flags.itemConversion (some t)) := by
    rw [hf]
    rfl
  obtain rfl := h.eq_option hform
  rw [sets_iff hpresents rfl h.reaches]
  have hread : ∀ v, (Flags.itemConversion (some t)).readAll .many texts = .ok v ↔
      ∃ xs : List Scalar, v = .list (xs.map Value.scalar) ∧ List.Forall₂
        (fun text x => (Flags.itemConversion (some t)).read text = .ok x) texts xs := by
    intro v
    simp only [← mapM_eq_ok, Conversion.readAll]
    cases texts.mapM (Flags.itemConversion (some t)).read with
    | error fault => simp [Except.map]
    | ok xs => simp [Except.map, eq_comm]
  have hcheck : ∀ xs : List Scalar,
      List.Forall₂ (fun text x => (Flags.itemConversion (some t)).read text = .ok x) texts xs →
        f.check (.value (.list (xs.map Value.scalar))) =
          .ok (.value (.list (xs.map Value.scalar))) := fun xs hxs =>
    Field.check_items hf (Flags.coerceScalar_of_forall₂ hxs)
  constructor
  · rintro ⟨v, hv, hnew⟩
    obtain ⟨xs, rfl, hxs⟩ := (hread v).mp hv
    rw [hcheck xs hxs] at hnew
    exact ⟨xs, (Except.ok.inj hnew).symm, hxs⟩
  · rintro ⟨xs, rfl, hxs⟩
    exact ⟨_, (hread _).mpr ⟨xs, rfl, hxs⟩, hcheck xs hxs⟩

/-- The flag of a single value leaves what it reads. -/
theorem sets_single (h : s.Offers config path f o) (hf : f.2 = .scalar t)
    (hupper : f.1.upperCase = false) (hrule : f.1.rule = none)
    (hpresents : c.Presents args o [text]) :
    s.Sets c config args path new ↔
      ∃ x, new = .value (.scalar x) ∧ (Flags.singleConversion t).read text = .ok x := by
  obtain rfl := h.eq_option (by rw [hf]; exact Flags.flagForm?_scalar t)
  rw [sets_iff hpresents rfl h.reaches]
  show (∃ v, (Flags.singleConversion t).readAll (Flags.singleArity t) [text] = .ok v ∧ _) ↔ _
  rw [Flags.readAll_single]
  cases hread : (Flags.singleConversion t).read text with
  | error fault => simp [Except.map]
  | ok x =>
    have hcheck := Field.check_single hf hupper hrule (Flags.coerceScalar_of_read (.inr rfl) hread)
    simp [Except.map, hcheck, eq_comm]

/-- **The flag of a list leaves the list of what the flag of an item leaves, but for truth values.**
Let a field of settings be a list of items of a type, and a field of others a single one of that
type, with nothing else to it. Let the flag of the list be given texts, and the flag of the single
value each of these texts by itself. Then the list is accepted exactly if all of its texts are, and
is the list of what they leave, in their order, if and only if the items are no truth values or all
texts are words for true. For the flag of a list of truth values accepts any texts, and takes all
that are not empty for true. -/
theorem sets_items_iff {s' : Schema} {c' : CommandLine} {config' : Setting} {path' : String}
    {f' : Field} {o' : CommandOption} (hlist : s.Offers config path f o)
    (hf : f.2 = .list (some t)) (hsingle : s'.Offers config' path' f' o') (hf' : f'.2 = .scalar t)
    (hupper : f'.1.upperCase = false) (hrule : f'.1.rule = none)
    (hpresents : c.Presents args o texts) {one : String → List String}
    (hone : ∀ text ∈ texts, c'.Presents (one text) o' [text]) :
    ((∀ new, s.Sets c config args path new ↔ ∃ xs : List Scalar,
        new = .value (.list (xs.map Value.scalar)) ∧ List.Forall₂
          (fun text x => s'.Sets c' config' (one text) path' (.value (.scalar x))) texts xs) ↔
      (t = .bool → ∀ text ∈ texts, s'.Sets c' config' (one text) path' (.value (.bool true)))) ∧
    (t = .bool → s.Sets c config args path
      (.value (.list (texts.map fun text => .bool !(Text.ofString text).isEmpty)))) := by
  have hsets : ∀ text ∈ texts, ∀ x,
      s'.Sets c' config' (one text) path' (.value (.scalar x)) ↔
        (Flags.singleConversion t).read text = .ok x := by
    intro text htext x
    rw [sets_single hsingle hf' hupper hrule (hone text htext)]
    simp
  have hitems : ∀ xs, List.Forall₂
      (fun text x => s'.Sets c' config' (one text) path' (.value (.scalar x))) texts xs ↔
        List.Forall₂ (fun text x => (Flags.singleConversion t).read text = .ok x) texts xs :=
    fun xs => forall₂_congr_left hsets
  have hpresence : t = .bool → s.Sets c config args path
      (.value (.list (texts.map fun text => .bool !(Text.ofString text).isEmpty))) := by
    rintro rfl
    refine (sets_list hlist hf hpresents).mpr
      ⟨texts.map fun text => .bool !(Text.ofString text).isEmpty, by rw [List.map_map]; rfl, ?_⟩
    rw [List.forall₂_map_right_iff, List.forall₂_same]
    exact fun text _ => Flags.read_presence text
  refine ⟨⟨fun hlaw hbool => ?_, fun hwords => fun new => ?_⟩, hpresence⟩
  · obtain ⟨xs, hxs, hall⟩ := (hlaw _).mp (hpresence hbool)
    subst hbool
    have hitemsOf : (texts.map fun text => Scalar.bool !(Text.ofString text).isEmpty) = xs := by
      refine List.map_injective_iff.mpr (fun _ _ => Value.scalar.inj) ?_
      rw [List.map_map]
      exact Value.list.inj (Setting.value.inj hxs)
    rw [hitems, ← hitemsOf, List.forall₂_map_right_iff, List.forall₂_same] at hall
    intro text htext
    have hread := hall text htext
    rw [Flags.isEmpty_of_read_truth hread] at hread
    exact (hsets text htext _).mpr hread
  · rw [sets_list hlist hf hpresents]
    simp only [hitems]
    by_cases hbool : t = .bool
    · -- a word for true is some text, so the list takes it for true as well
      subst hbool
      refine exists_congr fun xs => and_congr_right fun _ =>
        forall₂_congr_left fun text htext x => ?_
      have hread := (hsets text htext _).mp (hwords rfl text htext)
      rw [hread, Flags.read_presence, Flags.isEmpty_of_read_truth hread]
      rfl
    · rw [Flags.itemConversion_eq hbool]

/-- Two port numbers. -/
theorem sets_items_iff_ports :
    let s : Schema :=
      ⟨"Many", [(⟨"ports", some (.list []), none, false, none⟩, .list (some .int))]⟩
    let s' : Schema := ⟨"One", [(⟨"port", some (.int 0), none, false, none⟩, .scalar .int)]⟩
    ∃ c c' config config', (CommandLine.new "many" none).declareAll s.flags = .ok c ∧
      (CommandLine.new "one" none).declareAll s'.flags = .ok c' ∧
      s.defaults = .ok config ∧ s'.defaults = .ok config' ∧
      ∀ new, s.Sets c config ["--ports", "80", "443"] "ports" new ↔ ∃ xs : List Scalar,
        new = .value (.list (xs.map Value.scalar)) ∧ List.Forall₂
          (fun text x => s'.Sets c' config' ["--port=" ++ text] "port" (.value (.scalar x)))
          ["80", "443"] xs := by
  intro s s'
  let c : CommandLine := ⟨"many", none, Options.helpOption :: s.flags⟩
  let c' : CommandLine := ⟨"one", none, Options.helpOption :: s'.flags⟩
  let config : Setting := .group "Many" [("ports", .value (.list []))]
  let config' : Setting := .group "One" [("port", .value (.int 0))]
  have hdeclare : (CommandLine.new "many" none).declareAll s.flags = .ok c :=
    CommandLine.declareAll_of_not_spelled (by decide +kernel) (by decide +kernel)
  have hdeclare' : (CommandLine.new "one" none).declareAll s'.flags = .ok c' :=
    CommandLine.declareAll_of_not_spelled (by decide +kernel) (by decide +kernel)
  have hequals : NoEquals c.options := by decide +kernel
  have hequals' : NoEquals c'.options := by decide +kernel
  have hlist : s.Offers config "ports" (s.fields.head (by decide))
      (Flags.option "ports" none .many .int) := ⟨.here rfl rfl, rfl⟩
  have hsingle : s'.Offers config' "port" (s'.fields.head (by decide))
      (Flags.option "port" none .one .int) := ⟨.here rfl rfl, rfl⟩
  have hpresents : c.Presents ["--ports", "80", "443"] (Flags.option "ports" none .many .int)
      ["80", "443"] := by
    refine CommandLine.presents_following (x := "--ports") hequals rfl (by decide) (by decide)
      (by decide) rfl ?_
    simp only [List.forall_mem_cons]
    exact ⟨⟨by decide, Options.classify_of_not_hyphen (by decide)⟩,
      ⟨by decide, Options.classify_of_not_hyphen (by decide)⟩, by simp⟩
  have hone : ∀ text ∈ ["80", "443"],
      c'.Presents ["--port=" ++ text] (Flags.option "port" none .one .int) [text] := by
    simp only [List.forall_mem_cons]
    exact ⟨CommandLine.presents_attached (x := "--port") hequals' rfl (by decide) (by decide) "80",
      CommandLine.presents_attached (x := "--port") hequals' rfl (by decide) (by decide) "443",
      by simp⟩
  refine ⟨c, c', config, config', hdeclare, hdeclare', rfl, rfl, ?_⟩
  exact (sets_items_iff hlist rfl hsingle rfl rfl rfl hpresents hone).1.mpr (by rintro ⟨⟩)

/-- The word for false stands for true in a list, and for false by itself. -/
theorem sets_items_false :
    let list : Schema :=
      ⟨"Many", [(⟨"x", some (.list []), none, false, none⟩, .list (some .bool))]⟩
    let single : Schema := ⟨"One", [(⟨"x", some (.bool true), none, false, none⟩, .scalar .bool)]⟩
    ∃ c c' config config', (CommandLine.new "many" none).declareAll list.flags = .ok c ∧
      (CommandLine.new "one" none).declareAll single.flags = .ok c' ∧
      list.defaults = .ok config ∧ single.defaults = .ok config' ∧
      list.Sets c config ["--x", "false"] "x" (.value (.list [.bool true])) ∧
      single.Sets c' config' ["--x", "false"] "x" (.value (.bool false)) := by
  intro list single
  let c : CommandLine := ⟨"many", none, Options.helpOption :: list.flags⟩
  let c' : CommandLine := ⟨"one", none, Options.helpOption :: single.flags⟩
  let config : Setting := .group "Many" [("x", .value (.list []))]
  let config' : Setting := .group "One" [("x", .value (.bool true))]
  have hdeclare : (CommandLine.new "many" none).declareAll list.flags = .ok c :=
    CommandLine.declareAll_of_not_spelled (by decide +kernel) (by decide +kernel)
  have hdeclare' : (CommandLine.new "one" none).declareAll single.flags = .ok c' :=
    CommandLine.declareAll_of_not_spelled (by decide +kernel) (by decide +kernel)
  have hequals : NoEquals c.options := by decide +kernel
  have hequals' : NoEquals c'.options := by decide +kernel
  have hword : ∀ c : CommandLine, "false" ≠ Options.separator ∧
      Options.classify c.options true "false" = .ok .plain := fun _ =>
    ⟨by decide, Options.classify_of_not_hyphen (by decide)⟩
  have hlist : list.Offers config "x" (list.fields.head (by decide))
      (Flags.option "x" none .many .presence) := ⟨.here rfl rfl, rfl⟩
  have hsingle : single.Offers config' "x" (single.fields.head (by decide))
      (Flags.option "x" none .optional .truth) := ⟨.here rfl rfl, rfl⟩
  have hpresents : c.Presents ["--x", "false"] (Flags.option "x" none .many .presence) ["false"] :=
    CommandLine.presents_following hequals rfl (by decide) (by decide) (by decide) rfl
      (List.forall_mem_singleton.mpr (hword c))
  have hpresents' : c'.Presents ["--x", "false"] (Flags.option "x" none .optional .truth)
      ["false"] :=
    CommandLine.presents_following hequals' rfl (by decide) (by decide) (by decide) rfl
      (List.forall_mem_singleton.mpr (hword c'))
  refine ⟨c, c', config, config', hdeclare, hdeclare', rfl, rfl, ?_, ?_⟩
  · exact (sets_list hlist rfl hpresents).mpr ⟨[.bool true], rfl, .cons rfl .nil⟩
  · exact (sets_single hsingle rfl rfl rfl hpresents').mpr ⟨.bool false, rfl, by decide +kernel⟩

end Schema

end BootConfig
