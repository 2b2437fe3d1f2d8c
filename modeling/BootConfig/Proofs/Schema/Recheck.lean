import BootConfig.Proofs.Data.KeyIdentity
import BootConfig.Proofs.Schema.Sections

/-!
# Checks of checked values

A value that a check has accepted is checked again when it is assigned. It is accepted again,
although a choice among alternatives may then take another one.

* `Schema.WellFormed`: what the declarations of fields have to keep for this.
* `FieldType.check_again`, `Field.check_again`: what a check has made is accepted by the check.
* `exists_field_of_checkFields`: where the fields of a checked group come from.
-/

namespace BootConfig

/-! ## Scalars and lists -/

theorem ScalarType.coerceScalar_again {t : ScalarType} {s s' : Scalar}
    (h : t.coerceScalar s = .ok s') : t.coerceScalar s' = .ok s' := by
  have hmap : ∀ {α : Type} {r : Except IssueKind α} {make : α → Scalar},
      r.map make = .ok s' → ∃ a, s' = make a := by
    intro α r make h
    cases r with
    | error kind => cases h
    | ok a =>
      cases h
      exact ⟨a, rfl⟩
  cases t with
  | int =>
    obtain ⟨n, rfl⟩ := hmap h
    rfl
  | float =>
    obtain ⟨d, rfl⟩ := hmap h
    rfl
  | text =>
    obtain ⟨t, rfl⟩ := hmap h
    rfl
  | bool =>
    obtain ⟨b, rfl⟩ := hmap h
    rfl

/-- A scalar that a type has made is taken as it is. -/
theorem ScalarType.coerce_again {t : ScalarType} {input : Setting} {s : Scalar}
    (h : t.coerce input = .ok s) : t.coerce (.value (.scalar s)) = .ok s := by
  unfold ScalarType.coerce at h
  split at h
  · exact ScalarType.coerceScalar_again h
  · cases h

/-- Items without a fault stay as they are, at whatever place they are checked again. -/
theorem checkItems_again {t : ScalarType} {i : Nat} {vs : List Value}
    (h : (checkItems t i vs).1 = []) (j : Nat) :
    checkItems t j (checkItems t i vs).2 = ([], (checkItems t i vs).2) := by
  induction vs generalizing i j with
  | nil => rfl
  | cons v vs ih =>
    rw [checkItems] at h ⊢
    cases hv : t.coerce (.value v) with
    | error kind =>
      rw [hv] at h
      cases h
    | ok s =>
      rw [hv] at h
      show checkItems t j (.scalar s :: (checkItems t (i + 1) vs).2) = _
      rw [checkItems, ih h (j + 1), ScalarType.coerce_again hv]

theorem checkList_again {item : Option ScalarType} {input out : Setting}
    (h : checkList item input = .ok out) : checkList item out = .ok out := by
  unfold checkList at h
  split at h
  · cases h
  · split at h
    · cases h
      rfl
    · rename_i t
      simp only at h
      split at h
      · rename_i hissues
        cases h
        rw [List.isEmpty_iff] at hissues
        have hagain := checkItems_again hissues 0
        simp only [checkList, Setting.items?, Value.view]
        rw [hagain]
        rfl
      · cases h

/-! ## Enumerations -/

/-- The members of a textual enumeration are texts. -/
def Enumeration.WellFormed (e : Enumeration) : Prop :=
  e.textual = true → ∀ m ∈ e.members, ∃ t, m = .text t

theorem Enumeration.lookupKey_member {e : Enumeration} (he : e.WellFormed) {m : Scalar}
    (hm : m ∈ e.members) : e.lookupKey m = m := by
  unfold Enumeration.lookupKey
  split
  · split
    · rename_i htextual
      obtain ⟨t, ht⟩ := he htextual _ hm
      cases ht
    · rfl
  · rfl

/-- A member is a choice of itself, or of an equal member. -/
theorem Enumeration.find?_member {e : Enumeration} (he : e.WellFormed) {m : Scalar}
    (hm : m ∈ e.members) : ∃ m', e.find? m = some m' := by
  unfold Enumeration.find?
  rw [e.lookupKey_member he hm]
  exact Option.isSome_iff_exists.mp
    (List.find?_isSome.mpr ⟨m, hm, Scalar.sameKey_self m⟩)

theorem Enumeration.check_eq_ok {e : Enumeration} {input out : Setting}
    (h : e.check input = .ok out) : ∃ m ∈ e.members, out = .value (.scalar m) := by
  unfold Enumeration.check at h
  split at h
  · rename_i m hm
    cases h
    obtain ⟨s, _, hfind⟩ := Option.bind_eq_some_iff.mp hm
    exact ⟨m, List.mem_of_find?_eq_some hfind, rfl⟩
  · cases h

theorem Enumeration.check_scalar {e : Enumeration} {s m : Scalar} (h : e.find? s = some m) :
    e.check (.value (.scalar s)) = .ok (.value (.scalar m)) := by
  have hfind : (Setting.scalar? (.value (.scalar s))).bind e.find? = some m := h
  rw [Enumeration.check, hfind]

theorem Enumeration.check_again {e : Enumeration} (he : e.WellFormed) {m : Scalar}
    (hm : m ∈ e.members) : ∃ again, e.check (.value (.scalar m)) = .ok again := by
  obtain ⟨m', hfind⟩ := e.find?_member he hm
  exact ⟨.value (.scalar m'), e.check_scalar hfind⟩

/-! ## Alternatives -/

theorem trials_eq_map (members : List FieldType) (input : Setting) :
    trials members input = members.map fun t => ⟨t.label, t.fit input, t.check input⟩ := by
  induction members with
  | nil => rw [trials, List.map_nil]
  | cons t ts ih => rw [trials, ih, List.map_cons]

namespace Trial

/-- The best result so far is the one at the start, or that of an alternative. -/
theorem foldl_better_eq_some {ts : List Trial} {best : Option (Fit × Setting)} {fit : Fit}
    {s : Setting} (h : ts.foldl better best = some (fit, s)) :
    best = some (fit, s) ∨ ∃ r ∈ ts, r.result = .ok s := by
  induction ts generalizing best with
  | nil => exact .inl h
  | cons t ts ih =>
    rcases ih h with hbest | ⟨r, hr, hresult⟩
    · unfold better at hbest
      split at hbest
      · exact .inl hbest
      · rename_i hok
        cases hbest
        exact .inr ⟨t, List.mem_cons_self, hok⟩
      · rename_i hok
        split at hbest
        · cases hbest
          exact .inr ⟨t, List.mem_cons_self, hok⟩
        · exact .inl hbest
    · exact .inr ⟨r, List.mem_cons_of_mem _ hr, hresult⟩

theorem isSome_better {t : Trial} {best : Option (Fit × Setting)}
    (h : best.isSome = true ∨ ∃ s, t.result = .ok s) : (better best t).isSome = true := by
  unfold better
  split
  · rename_i herror
    rcases h with h | ⟨s, hs⟩
    · exact h
    · rw [hs] at herror
      cases herror
  · rfl
  · split <;> rfl

theorem isSome_foldl_better {ts : List Trial} {best : Option (Fit × Setting)}
    (h : best.isSome = true ∨ ∃ r ∈ ts, ∃ s, r.result = .ok s) :
    (ts.foldl better best).isSome = true := by
  induction ts generalizing best with
  | nil => exact h.resolve_right (by simp)
  | cons t ts ih =>
    refine ih ?_
    rcases h with h | ⟨r, hr, hok⟩
    · exact .inl (isSome_better (.inl h))
    · rcases List.mem_cons.mp hr with rfl | hr
      · exact .inl (isSome_better (.inr hok))
      · exact .inr ⟨r, hr, hok⟩

/-- The choice among alternatives is the result of one of them. -/
theorem choose_eq_ok {ts : List Trial} {s : Setting} (h : choose ts = .ok s) :
    ∃ r ∈ ts, r.result = .ok s := by
  unfold choose at h
  split at h
  · exact ⟨_, List.mem_singleton_self _, h⟩
  · split at h
    · rename_i best hbest
      cases h
      exact (foldl_better_eq_some hbest).resolve_left (by simp)
    · cases h

/-- There is a choice if one alternative has a result. -/
theorem exists_choose {ts : List Trial} {r : Trial} {s : Setting} (hr : r ∈ ts)
    (hs : r.result = .ok s) : ∃ s', choose ts = .ok s' := by
  unfold choose
  split
  · rw [List.mem_singleton.mp hr] at hs
    exact ⟨s, hs⟩
  · split
    · exact ⟨_, rfl⟩
    · rename_i hnone
      have hsome : (ts.foldl better none).isSome = true :=
        isSome_foldl_better (.inr ⟨r, hr, s, hs⟩)
      rw [hnone] at hsome
      cases hsome

end Trial

/-! ## Types and fields -/

/-- Types whose textual enumerations are well formed. The fields of a group do not count here, since
a group that has been checked is taken as it is. -/
inductive FieldType.WellFormed : FieldType → Prop
  | scalar (t : ScalarType) : WellFormed (.scalar t)
  | any : WellFormed .any
  | mapping : WellFormed .mapping
  | bareList : WellFormed .bareList
  | list (item : Option ScalarType) : WellFormed (.list item)
  | enumeration {e : Enumeration} : e.WellFormed → WellFormed (.enumeration e)
  | union {style : UnionStyle} {nullable : Bool} {members : List FieldType} :
      (∀ t ∈ members, WellFormed t) → WellFormed (.union style nullable members)
  | group (name : String) (fields : List Field) : WellFormed (.group name fields)

/-- What a type has made of a value is accepted by the type. -/
theorem FieldType.check_again {t : FieldType} (ht : t.WellFormed) {input out : Setting}
    (h : t.check input = .ok out) : ∃ again, t.check out = .ok again := by
  induction ht generalizing input out with
  | scalar t =>
    rw [FieldType.check] at h
    split at h
    · rename_i s hs
      cases h
      exact ⟨_, by rw [FieldType.check, ScalarType.coerce_again hs]⟩
    · cases h
  | any => exact ⟨out, by rw [FieldType.check]⟩
  | mapping =>
    rw [FieldType.check] at h
    split at h
    · rename_i es _
      cases h
      exact ⟨.value (.map es), by rw [FieldType.check]; rfl⟩
    · cases h
  | bareList =>
    rw [FieldType.check] at h
    exact ⟨out, by rw [FieldType.check, checkList_again h]⟩
  | list item =>
    rw [FieldType.check] at h
    exact ⟨out, by rw [FieldType.check, checkList_again h]⟩
  | enumeration he =>
    rw [FieldType.check] at h
    obtain ⟨m, hm, rfl⟩ := Enumeration.check_eq_ok h
    obtain ⟨again, hagain⟩ := Enumeration.check_again he hm
    exact ⟨again, by rw [FieldType.check, hagain]⟩
  | @union style nullable members _ ih =>
    rw [FieldType.check] at h
    split at h
    · rename_i hnull
      cases h
      exact ⟨input, by rw [FieldType.check, if_pos hnull]⟩
    · -- the alternative that was chosen is one that accepts its result
      obtain ⟨r, hr, hresult⟩ := Trial.choose_eq_ok h
      rw [trials_eq_map] at hr
      obtain ⟨t, ht, rfl⟩ := List.mem_map.mp hr
      obtain ⟨again, hagain⟩ := ih t ht hresult
      rw [FieldType.check]
      split
      · exact ⟨out, rfl⟩
      · rw [trials_eq_map]
        exact Trial.exists_choose (List.mem_map_of_mem ht) hagain
  | group name fields =>
    cases input with
    | value v =>
      obtain ⟨es, _, _, rfl⟩ := check_group h
      exact ⟨_, check_checked_group _ _ _⟩
    | group n gs =>
      rw [FieldType.check] at h
      split at h
      · rename_i hname
        cases h
        exact ⟨.group n gs, by rw [FieldType.check, if_pos hname]⟩
      · cases h

/-- A field as it may be declared. A rule is a rule for scalars, and what is put into upper case is
a choice among texts in upper case. -/
structure Field.WellFormed (f : Field) : Prop where
  type : f.2.WellFormed
  rule : f.1.rule = none ∨ ∃ t, f.2 = .scalar t
  upperCase : f.1.upperCase = true →
    ∃ e, f.2 = .enumeration e ∧ ∀ t, .text t ∈ e.members → t.toUpper = t

theorem FieldInfo.prepare_eq {info : FieldInfo} (h : info.upperCase = false) (input : Setting) :
    info.prepare input = input := by
  unfold FieldInfo.prepare
  rw [h]

theorem FieldInfo.obey_eq {info : FieldInfo} (h : info.rule = none) (s : Setting) :
    info.obey s = .ok s := by
  unfold FieldInfo.obey
  rw [h]

/-- A text of a choice that is already in upper case is prepared by leaving it. -/
theorem FieldInfo.prepare_member {info : FieldInfo} {m : Scalar}
    (h : ∀ t, m = .text t → t.toUpper = t) :
    info.prepare (.value (.scalar m)) = .value (.scalar m) := by
  unfold FieldInfo.prepare
  split
  · rename_i t _ htext
    have hm : m = .text t := Option.some.inj htext
    rw [hm, h t hm]
    rfl
  · rfl

theorem Field.check_eq_ok {f : Field} {input out : Setting} (h : f.check input = .ok out) :
    f.2.check (f.1.prepare input) = .ok out ∧ f.1.obey out = .ok out := by
  unfold Field.check at h
  cases hcheck : f.2.check (f.1.prepare input) with
  | error issues =>
    rw [hcheck] at h
    cases h
  | ok s =>
    rw [hcheck] at h
    have hobey : f.1.obey s = .ok out := h
    have hsame : s = out := by
      unfold FieldInfo.obey at hobey
      split at hobey
      · split at hobey
        · injection hobey
        · cases hobey
      · injection hobey
    rw [← hsame] at hobey ⊢
    exact ⟨rfl, hobey⟩

/-- A field leaves what it has checked as it is before it checks it again. -/
theorem Field.prepare_checked {f : Field} (hf : f.WellFormed) {input out : Setting}
    (h : f.2.check input = .ok out) : f.1.prepare out = out := by
  cases hupper : f.1.upperCase with
  | false => exact FieldInfo.prepare_eq hupper out
  | true =>
    obtain ⟨e, he, hmembers⟩ := hf.upperCase hupper
    rw [he, FieldType.check] at h
    obtain ⟨m, hm, rfl⟩ := Enumeration.check_eq_ok h
    exact FieldInfo.prepare_member fun t ht => hmembers t (ht ▸ hm)

/-- What a check has made of a value for a field is accepted for the field. -/
theorem Field.check_again {f : Field} (hf : f.WellFormed) {input out : Setting}
    (h : f.check input = .ok out) : ∃ again, f.check out = .ok again := by
  obtain ⟨hcheck, hobey⟩ := Field.check_eq_ok h
  unfold Field.check
  rw [Field.prepare_checked hf hcheck]
  rcases hf.rule with hrule | ⟨t, ht⟩
  · obtain ⟨again, hagain⟩ := FieldType.check_again hf.type hcheck
    refine ⟨again, ?_⟩
    rw [hagain]
    exact FieldInfo.obey_eq hrule again
  · rw [ht, FieldType.check] at hcheck ⊢
    split at hcheck
    · rename_i s hs
      cases hcheck
      refine ⟨.value (.scalar s), ?_⟩
      rw [ScalarType.coerce_again hs]
      exact hobey
    · cases hcheck

/-- A schema as it may be declared: the names of its fields differ. What a schema describes is fields
and the conditions on each of them; programs with conditions across fields are not described, and
what is proved of schemas does not hold of them. -/
structure Schema.WellFormed (s : Schema) : Prop where
  distinct : (s.fields.map fun f => f.1.name).Nodup
  fields : ∀ f ∈ s.fields, Field.WellFormed f

/-- What a group holds for a name is what the check of a field with this name has made. -/
theorem exists_field_of_checkFields {fields : List Field} {es : Entries} {name : String}
    {st : Setting} (h : (name, st) ∈ (checkFields fields es).2) :
    ∃ f ∈ fields, f.1.name = name ∧ ∃ v, f.check (.value v) = .ok st := by
  induction fields with
  | nil =>
    rw [checkFields] at h
    cases h
  | cons f rest ih =>
    obtain ⟨info, t⟩ := f
    have hrest := fun h => (ih h).imp fun f hf => hf.imp_left (List.mem_cons_of_mem (info, t))
    rw [checkFields] at h
    -- the field is among the checked ones only if its value is accepted
    cases hv : Field.valueIn? (info, t) es with
    | none =>
      rw [hv] at h
      exact hrest h
    | some v =>
      have hfield : (t.check (info.prepare (.value v))).bind info.obey =
          Field.check (info, t) (.value v) := rfl
      simp only [hv, hfield] at h
      cases hcheck : Field.check (info, t) (.value v) with
      | error found =>
        rw [hcheck] at h
        exact hrest h
      | ok s =>
        rw [hcheck] at h
        have h : (name, st) ∈ (info.name, s) :: (checkFields rest es).2 := h
        rcases List.mem_cons.mp h with hfirst | h
        · cases hfirst
          exact ⟨(info, t), List.mem_cons_self, rfl, v, hcheck⟩
        · exact hrest h

theorem Setting.mem_fields {st v : Setting} {name : String} (h : st.get? name = some v) :
    (name, v) ∈ st.fields := by
  obtain ⟨before, after, hfields, _⟩ := List.lookup_eq_some_iff.mp h
  rw [hfields]
  simp

end BootConfig
