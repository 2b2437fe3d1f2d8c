import BootConfig.Proofs.Flags.Apply
import BootConfig.Proofs.Schema.Nested

/-!
# Declared flags

The flags of a schema whose sections nest to any depth. Every field has at most one, named by its
path; the fields that have one are those of plain types, of lists and of choices, and those that may
be unset if they are not written with a bar.

* `Schema.fieldPaths`: the fields with the paths that lead to them, each section before its fields;
  a section that is declared with a bar has no fields here.
* `FieldType.flagForm?`, `Flags.flagAt?`: what a flag is for a type, and which fields have one.
* `Schema.flags_eq`: the flags are those of the fields, in their order.
* `Schema.Proper.declareAll_flags`: they are declared without a conflict, under different names.
-/

namespace BootConfig

open Options (Arity CommandLine CommandOption Conversion OptionForm Purpose)

/-! ## Dotted paths -/

namespace Flags

/-- The dotted form of a path of names. -/
def dotted : List String → String
  | [] => ""
  | [name] => name
  | name :: next :: path => name ++ "." ++ dotted (next :: path)

variable {path path' : List String} {name : String}

theorem dotted_cons (h : path ≠ []) : dotted (name :: path) = name ++ "." ++ dotted path := by
  obtain ⟨next, path, rfl⟩ := List.exists_cons_of_ne_nil h
  rfl

theorem names_dotted (hne : path ≠ []) (h : ∀ name ∈ path, IsPlainName name) :
    names (dotted path) = path := by
  induction path with
  | nil => exact (hne rfl).elim
  | cons name path ih =>
    obtain ⟨hname, hpath⟩ := List.forall_mem_cons.mp h
    cases path with
    | nil => exact names_of_noPoint hname.1
    | cons next path =>
      rw [dotted_cons (List.cons_ne_nil _ _), names_append hname.1,
        ih (List.cons_ne_nil _ _) hpath]

theorem segments_ne_nil (cs : List Char) : segments cs ≠ [] := by
  cases cs with
  | nil => exact List.cons_ne_nil _ _
  | cons c cs =>
    rw [segments]
    split
    · exact List.cons_ne_nil _ _
    · split <;> exact List.cons_ne_nil _ _

/-- Whatever a path is like, its names determine it. -/
theorem dotted_names (path : String) : dotted (names path) = path := by
  rw [← String.toList_inj, names]
  induction path.toList with
  | nil => rfl
  | cons c cs ih =>
    obtain ⟨s, ss, hss⟩ := List.exists_cons_of_ne_nil (segments_ne_nil cs)
    rw [segments, hss]
    rw [hss] at ih
    split
    · rename_i hc
      rw [List.map_cons, dotted_cons (by simp), eq_of_beq hc, String.toList_append, ih]
      rfl
    · cases ss with
      | nil => simpa [dotted] using ih
      | cons s' ss =>
        rw [List.map_cons, dotted_cons (by simp)] at ih ⊢
        simpa [String.toList_append] using ih

theorem noHyphen_dotted (h : ∀ name ∈ path, IsPlainName name) : '-' ∉ (dotted path).toList := by
  induction path with
  | nil => exact List.not_mem_nil
  | cons name path ih =>
    obtain ⟨hname, hpath⟩ := List.forall_mem_cons.mp h
    cases path with
    | nil => exact hname.2
    | cons next path =>
      rw [dotted_cons (List.cons_ne_nil _ _)]
      simp [String.toList_append, hname.2, ih hpath]

/-- Underscores are the only characters that a spelling replaces, and where there are no hyphens
they can be put back. -/
theorem spelling_injective {p q : String} (hp : '-' ∉ p.toList) (hq : '-' ∉ q.toList)
    (h : spelling p = spelling q) : p = q := by
  let back : Char → Char := fun c => if c == '-' then '_' else c
  have hback : ∀ cs : List Char, '-' ∉ cs →
      (cs.map fun c => if c == '_' then '-' else c).map back = cs := by
    intro cs hcs
    rw [List.map_map]
    refine (List.map_congr_left fun c hc => ?_).trans (List.map_id cs)
    have hne : c ≠ '-' := fun heq => hcs (heq ▸ hc)
    by_cases hc' : c = '_'
    · subst hc'
      rfl
    · simp [back, hne, hc']
  have hchars := congrArg String.toList h
  simp only [spelling, String.toList_append, String.toList_ofList] at hchars
  rw [← String.toList_inj, ← hback _ hp, ← hback _ hq, List.append_cancel_left hchars]

end Flags

/-! ## Fields with their paths -/

namespace FieldType

mutual

/-- The fields within a type with the paths that lead to them. A section stands before its fields. It
is seen through a choice of one section and null, as the declaration of options does, but not through
the same alternatives written with a bar: the fields of a section behind a bar are left out. -/
def fieldPaths : FieldType → List (List String × Field)
  | .group _ fields => pathsOf fields
  | .union .choice _ [t] => t.fieldPaths
  | _ => []

def pathsOf : List Field → List (List String × Field)
  | [] => []
  | (info, t) :: rest =>
    ([info.name], (info, t)) :: (t.fieldPaths.map fun p => (info.name :: p.1, p.2)) ++ pathsOf rest

end

variable {t : FieldType} {fields : List Field} {p : List String × Field}

theorem mem_pathsOf : p ∈ pathsOf fields ↔
    ∃ f ∈ fields, p = ([f.1.name], f) ∨ ∃ q ∈ f.2.fieldPaths, p = (f.1.name :: q.1, q.2) := by
  induction fields with
  | nil => simp [pathsOf]
  | cons f rest ih =>
    obtain ⟨info, t⟩ := f
    rw [pathsOf, List.cons_append, List.mem_cons, List.mem_append, ih, List.exists_mem_cons_iff,
      List.mem_map, or_assoc]
    simp only [eq_comm (a := p)]

/-- The fields within a type are those of its section. -/
theorem Proper.mem_fieldPaths (h : t.Proper) :
    p ∈ t.fieldPaths ↔ ∃ inner, t.section? = some inner ∧ inner.fieldAt? p.1 = some p.2 := by
  induction h generalizing p with
  | @group name fields hdistinct _ _ ih =>
    rw [fieldPaths, mem_pathsOf]
    constructor
    · rintro ⟨f, hf, rfl | ⟨q, hq, rfl⟩⟩
      · exact ⟨_, rfl, field?_of_mem (s := ⟨name, fields⟩) hdistinct hf⟩
      · obtain ⟨inner, hinner, hpath⟩ := (ih f hf).mp hq
        refine ⟨_, rfl, ?_⟩
        rw [Schema.fieldAt?_cons (field?_of_mem (s := ⟨name, fields⟩) hdistinct hf) hinner, hpath]
        intro hnil
        rw [hnil] at hpath
        cases hpath
    · rintro ⟨_, hsection, hpath⟩
      cases hsection
      obtain ⟨path, f⟩ := p
      obtain ⟨name', rfl, hf⟩ | ⟨name', below, g, inner, rfl, _, hg, hinner, hbelow⟩ :=
        Schema.fieldAt?_cases hpath
      · rw [← Schema.name_of_field? hf]
        exact ⟨f, List.mem_of_find?_eq_some hf, .inl rfl⟩
      · rw [← Schema.name_of_field? hg]
        have hmem := List.mem_of_find?_eq_some hg
        exact ⟨g, hmem, .inr ⟨(below, f), (ih g hmem).mpr ⟨inner, hinner, hbelow⟩, rfl⟩⟩
  | @union style nullable members _ _ ih =>
    unfold fieldPaths section?
    split
    · rename_i heq
      cases heq
    · rename_i t heq
      cases heq
      exact ih t List.mem_cons_self
    · simp
  | _ => simp [fieldPaths, section?]

theorem ne_nil_of_mem_fieldPaths (h : p ∈ t.fieldPaths) : p.1 ≠ [] := by
  fun_induction section? t with
  | case1 name fields =>
    rw [fieldPaths] at h
    obtain ⟨f, _, rfl | ⟨q, _, rfl⟩⟩ := mem_pathsOf.mp h <;> exact List.cons_ne_nil _ _
  | case2 nullable t ih => exact ih h
  | case3 t hgroup hchoice =>
    cases t with
    | group name fields => exact (hgroup name fields rfl).elim
    | union style nullable members =>
      unfold fieldPaths at h
      split at h
      · rename_i heq
        cases heq
      · rename_i t heq
        cases heq
        exact (hchoice _ _ rfl).elim
      · cases h
    | _ => cases h

/-- Paths of different fields differ in their first name, and paths of one field below it. -/
theorem nodup_pathsOf (hdistinct : (fields.map fun f => f.1.name).Nodup)
    (h : ∀ f ∈ fields, (f.2.fieldPaths.map Prod.fst).Nodup) :
    ((pathsOf fields).map Prod.fst).Nodup := by
  induction fields with
  | nil => exact List.nodup_nil
  | cons f rest ih =>
    obtain ⟨info, t⟩ := f
    obtain ⟨hnot, hrest⟩ := List.nodup_cons.mp hdistinct
    obtain ⟨ht, htypes⟩ := List.forall_mem_cons.mp h
    have hbelow : (t.fieldPaths.map fun p => (info.name :: p.1, p.2)).map Prod.fst =
        (t.fieldPaths.map Prod.fst).map (info.name :: ·) := by
      rw [List.map_map, List.map_map]
      rfl
    have hfirst : [info.name] ∉ (t.fieldPaths.map Prod.fst).map (info.name :: ·) := by
      intro hmem
      obtain ⟨path, hpath, heq⟩ := List.mem_map.mp hmem
      obtain ⟨q, hq, rfl⟩ := List.mem_map.mp hpath
      exact ne_nil_of_mem_fieldPaths hq (List.cons_eq_cons.mp heq).2
    rw [pathsOf, List.map_append, List.map_cons, hbelow, List.nodup_append']
    refine ⟨List.nodup_cons.mpr ⟨hfirst, ht.map List.cons_injective⟩, ih hrest htypes, ?_⟩
    intro path hpath hpath'
    have hhead : path.head? = some info.name := by
      rcases List.mem_cons.mp hpath with rfl | hmem
      · rfl
      · obtain ⟨below, _, rfl⟩ := List.mem_map.mp hmem
        rfl
    obtain ⟨p, hp, rfl⟩ := List.mem_map.mp hpath'
    obtain ⟨f, hf, rfl | ⟨q, _, rfl⟩⟩ := mem_pathsOf.mp hp
    all_goals exact hnot (List.mem_map.mpr ⟨f, hf, Option.some.inj hhead⟩)

/-- No path is listed twice. -/
theorem Proper.nodup_fieldPaths (h : t.Proper) : (t.fieldPaths.map Prod.fst).Nodup := by
  induction h with
  | @group name fields hdistinct _ _ ih =>
    rw [fieldPaths]
    exact nodup_pathsOf hdistinct ih
  | @union style nullable members _ _ ih =>
    unfold fieldPaths
    split
    · rename_i heq
      cases heq
    · rename_i t heq
      cases heq
      exact ih t List.mem_cons_self
    · exact List.nodup_nil
  | _ => exact List.nodup_nil

/-! ## Flags of fields -/

/-- How values of a type are given on a command line, if they can be. Null cannot be given, so what
may be unset is given as if it could not be. -/
def flagForm? : FieldType → Option (Arity × Conversion)
  | .scalar .int => some (.one, .int)
  | .scalar .float => some (.one, .float)
  | .scalar .text => some (.one, .text)
  | .scalar .bool => some (.optional, .truth)
  | .list item => some (.many, Flags.itemConversion item)
  | .enumeration e => some (.one, .member e)
  | .union _ _ [t] => t.flagForm?
  | _ => none

/-- Whether alternatives of a type are written with a bar. -/
def isBarred : FieldType → Bool
  | .union .bar _ _ => true
  | .union .choice _ [t] => t.isBarred
  | _ => false

/-- What can be given is no section. -/
theorem section?_of_flagForm? (h : t.flagForm?.isSome = true) : t.section? = none := by
  fun_induction section? t with
  | case1 name fields => cases h
  | case2 nullable t ih => exact ih (by simpa [flagForm?] using h)
  | case3 => rfl

end FieldType

namespace Flags

/-- The option for a path to something of a type. -/
def flag? (path : String) (help : Option String) (t : FieldType) : Option CommandOption :=
  t.flagForm?.map fun form => option path help form.1 form.2

/-- The option that a field calls for, under the dotted path that leads to it. -/
def flagAt? (p : List String × Field) : Option CommandOption :=
  flag? (dotted p.1) p.2.1.help p.2.2

/-- The option that is declared: none for what is written with a bar. -/
def declared? (path : String) (help : Option String) (t : FieldType) : Option CommandOption :=
  if t.isBarred then none else flag? path help t

mutual

/-- The options of a field are its own or those of the fields within it. -/
theorem ofType_eq (path : String) (help : Option String) : ∀ t : FieldType,
    ofType path help t = (declared? path help t).toList ++
      t.fieldPaths.filterMap fun p => declared? (path ++ "." ++ dotted p.1) p.2.1.help p.2.2
  | .scalar t => by cases t <;> rfl
  | .list item => rfl
  | .enumeration e => rfl
  | .any => rfl
  | .mapping => rfl
  | .bareList => rfl
  | .group name fields => by
    rw [ofType, ofFields_eq (path ++ ".") fields]
    rfl
  | .union .choice nullable [t] => by
    rw [ofType, ofType_eq path help t]
    rfl
  | .union .bar nullable members => by
    unfold ofType declared? FieldType.isBarred FieldType.fieldPaths
    simp
  | .union .choice nullable [] => rfl
  | .union .choice nullable (t :: t' :: rest) => rfl

theorem ofFields_eq (start : String) : ∀ fields : List Field,
    ofFields start fields = (FieldType.pathsOf fields).filterMap fun p =>
      declared? (start ++ dotted p.1) p.2.1.help p.2.2
  | [] => rfl
  | (info, t) :: rest => by
    have hbelow : (t.fieldPaths.filterMap fun p =>
        declared? (start ++ info.name ++ "." ++ dotted p.1) p.2.1.help p.2.2) =
          t.fieldPaths.filterMap fun p =>
            declared? (start ++ dotted (info.name :: p.1)) p.2.1.help p.2.2 := by
      refine List.filterMap_congr fun p hp => ?_
      rw [dotted_cons (FieldType.ne_nil_of_mem_fieldPaths hp), String.append_assoc,
        String.append_assoc, String.append_assoc]
    rw [ofFields, ofType_eq (start ++ info.name) info.help t, ofFields_eq start rest, hbelow,
      FieldType.pathsOf, List.filterMap_append, List.filterMap_cons, List.filterMap_map]
    simp only [dotted]
    cases declared? (start ++ info.name) info.help t <;> rfl

end

end Flags

/-! ## Flags of schemas -/

namespace Schema

variable {s : Schema} {p : List String × Field} {o : CommandOption}

/-- The fields of a schema with the paths that lead to them, in the order of declaration, except those
of sections that are declared with a bar. A section stands before its fields. -/
def fieldPaths (s : Schema) : List (List String × Field) := s.toType.fieldPaths

/-- The flags of a schema are those that its fields call for, in their order, without those of
fields that are written with a bar. -/
theorem flags_eq (s : Schema) :
    s.flags = (s.fieldPaths.filter fun p => !p.2.2.isBarred).filterMap Flags.flagAt? := by
  show Flags.ofFields "" s.fields = ((FieldType.pathsOf s.fields).filter _).filterMap _
  rw [Flags.ofFields_eq, List.filterMap_filter]
  refine List.filterMap_congr fun p _ => ?_
  rw [String.empty_append, Flags.declared?]
  cases p.2.2.isBarred <;> rfl

theorem mem_flags : o ∈ s.flags ↔
    ∃ p ∈ s.fieldPaths, p.2.2.isBarred = false ∧ Flags.flagAt? p = some o := by
  rw [flags_eq, List.mem_filterMap]
  simp only [List.mem_filter, Bool.not_eq_true', and_assoc]

namespace Proper

theorem mem_fieldPaths (hs : s.Proper) : p ∈ s.fieldPaths ↔ s.fieldAt? p.1 = some p.2 := by
  refine (FieldType.Proper.mem_fieldPaths hs).trans ⟨?_, fun h => ⟨s, rfl, h⟩⟩
  rintro ⟨inner, hinner, hpath⟩
  cases hinner
  exact hpath

/-- The option that a field calls for is spelled as its path, and sets it. -/
theorem of_flagAt? (hs : s.Proper) (hp : p ∈ s.fieldPaths) (h : Flags.flagAt? p = some o) :
    o.spellings = [Flags.spelling (Flags.dotted p.1)] ∧
      o.meaning.purpose = .setting (Flags.dotted p.1) ∧
      Flags.names (Flags.dotted p.1) = p.1 ∧ '-' ∉ (Flags.dotted p.1).toList := by
  obtain ⟨form, _, rfl⟩ := Option.map_eq_some_iff.mp h
  obtain ⟨hne, hplain⟩ := hs.plain_path (hs.mem_fieldPaths.mp hp)
  exact ⟨rfl, rfl, Flags.names_dotted hne hplain, Flags.noHyphen_dotted hplain⟩

/-- A flag sets a field that is no section. -/
theorem of_mem_flags (hs : s.Proper) {path : String} (ho : o ∈ s.flags)
    (hpath : o.meaning.purpose = .setting path) :
    ∃ f, s.fieldAt? (Flags.names path) = some f ∧ f.2.section? = none := by
  obtain ⟨p, hp, _, hflag⟩ := mem_flags.mp ho
  obtain ⟨_, hpurpose, hnames, _⟩ := hs.of_flagAt? hp hflag
  rw [hpurpose] at hpath
  cases hpath
  refine ⟨p.2, by rw [hnames, hs.mem_fieldPaths.mp hp], FieldType.section?_of_flagForm? ?_⟩
  obtain ⟨form, hform, _⟩ := Option.map_eq_some_iff.mp hflag
  exact hform ▸ rfl

/-- A dotted path can be taken apart. -/
theorem eq_of_purpose (hs : s.Proper) {q : List String × Field} {o' : CommandOption}
    (hp : p ∈ s.fieldPaths) (hq : q ∈ s.fieldPaths) (ho : Flags.flagAt? p = some o)
    (ho' : Flags.flagAt? q = some o') (h : o.meaning.purpose = o'.meaning.purpose) : p = q := by
  obtain ⟨_, hpurpose, hnames, _⟩ := hs.of_flagAt? hp ho
  obtain ⟨_, hpurpose', hnames', _⟩ := hs.of_flagAt? hq ho'
  rw [hpurpose, hpurpose'] at h
  have hpath : p.1 = q.1 := by rw [← hnames, ← hnames', Purpose.setting.inj h]
  have hfield := hs.mem_fieldPaths.mp hp
  rw [hpath, hs.mem_fieldPaths.mp hq] at hfield
  exact Prod.ext hpath (Option.some.inj hfield).symm

/-- Options of different fields set different paths and share no spelling: a dotted path can be
taken apart, and its spelling read back. -/
theorem pairwise_flags (hs : s.Proper) : s.flags.Pairwise fun o o' =>
    o.meaning.purpose ≠ o'.meaning.purpose ∧ o.spellings.Disjoint o'.spellings := by
  have hpaths : s.fieldPaths.Pairwise fun p q => p ≠ q :=
    List.Nodup.of_map _ (FieldType.Proper.nodup_fieldPaths hs)
  rw [flags_eq, List.pairwise_filterMap]
  refine (hpaths.imp_of_mem fun {p q} hp hq hne o ho o' ho' => ?_).filter _
  have hpurposes : o.meaning.purpose ≠ o'.meaning.purpose := fun heq =>
    hne (hs.eq_of_purpose hp hq ho ho' heq)
  obtain ⟨hspelled, hpurpose, _, hhyphen⟩ := hs.of_flagAt? hp ho
  obtain ⟨hspelled', hpurpose', _, hhyphen'⟩ := hs.of_flagAt? hq ho'
  refine ⟨hpurposes, ?_⟩
  rw [hspelled, hspelled', List.singleton_disjoint, List.mem_singleton]
  intro heq
  rw [hpurpose, hpurpose', Flags.spelling_injective hhyphen hhyphen' heq] at hpurposes
  exact hpurposes rfl

/-- The flags of a schema without a field for help can be told from the option for help. -/
theorem help_of_mem_flags (hs : s.Proper) (hhelp : ∀ f ∈ s.fields, f.1.name ≠ "help")
    (ho : o ∈ s.flags) :
    o.meaning.purpose ≠ .setting "help" ∧ Options.helpOption.spellings.Disjoint o.spellings := by
  obtain ⟨p, hp, _, hflag⟩ := mem_flags.mp ho
  obtain ⟨hspelled, hpurpose, hnames, hhyphen⟩ := hs.of_flagAt? hp hflag
  have hdotted : Flags.dotted p.1 ≠ "help" := by
    intro heq
    have hpath : p.1 = ["help"] := by rw [← hnames, heq]; decide
    have hfield : s.field? "help" = some p.2 := by
      have hfield := hs.mem_fieldPaths.mp hp
      rwa [hpath] at hfield
    exact hhelp p.2 (List.mem_of_find?_eq_some hfield) (name_of_field? hfield)
  refine ⟨?_, ?_⟩
  · rw [hpurpose]
    exact fun heq => hdotted (Purpose.setting.inj heq)
  · rw [hspelled, List.disjoint_singleton]
    intro hmem
    rcases List.mem_cons.mp hmem with heq | hmem
    · -- a flag starts with two hyphens
      have hchars := congrArg String.toList heq
      rw [Flags.spelling, String.toList_append] at hchars
      cases hchars
    · exact hdotted (Flags.spelling_injective hhyphen (by decide) (List.mem_singleton.mp hmem))

/-- The flags are all that the fields call for exactly if no field that calls for one is written
with a bar. -/
theorem flags_eq_iff (hs : s.Proper) : s.flags = s.fieldPaths.filterMap Flags.flagAt? ↔
    ∀ p ∈ s.fieldPaths, p.2.2.flagForm?.isSome = true → p.2.2.isBarred = false := by
  constructor
  · intro hall p hp hform
    obtain ⟨form, hform⟩ := Option.isSome_iff_exists.mp hform
    have hflag : Flags.flagAt? p =
        some (Flags.option (Flags.dotted p.1) p.2.1.help form.1 form.2) := by
      rw [Flags.flagAt?, Flags.flag?, hform]
      rfl
    -- the flag belongs to a field that is not written with a bar, and that is the same one
    obtain ⟨q, hq, hbar, hflag'⟩ := mem_flags.mp (hall ▸ List.mem_filterMap.mpr ⟨p, hp, hflag⟩)
    rw [hs.eq_of_purpose hp hq hflag hflag' rfl]
    exact hbar
  · intro hbar
    rw [flags_eq, List.filterMap_filter]
    refine List.filterMap_congr fun p hp => ?_
    cases hform : p.2.2.flagForm? with
    | none =>
      rw [Flags.flagAt?, Flags.flag?, hform]
      exact ite_self _
    | some form =>
      rw [hbar p hp (hform ▸ rfl)]
      rfl

end Proper

/-- A command line whose options are that for help and the flags of a schema, each of them for a
field of its own. -/
structure DeclaredOn (s : Schema) (c : CommandLine) : Prop where
  /-- The options, in the order in which the fields are declared. -/
  options : c.options = Options.helpOption ::
    (s.fieldPaths.filter fun p => !p.2.2.isBarred).filterMap Flags.flagAt?
  /-- Whether all flags are there that fields call for. -/
  complete : s.flags = s.fieldPaths.filterMap Flags.flagAt? ↔
    ∀ p ∈ s.fieldPaths, p.2.2.flagForm?.isSome = true → p.2.2.isBarred = false
  fields : ∀ path f, (path, f) ∈ s.fieldPaths ↔ s.fieldAt? path = some f
  once : (s.fieldPaths.map Prod.fst).Nodup
  sets : ∀ p ∈ s.fieldPaths, ∀ o, Flags.flagAt? p = some o →
    o.meaning.purpose = .setting (Flags.dotted p.1)
  purposes : (c.options.map fun o => o.meaning.purpose).Nodup
  noHelp : ∀ o ∈ c.options, o.meaning.purpose ≠ .setting "help"
  spellings : c.spelled.Nodup

/-- **Every field has the flag that its type calls for, unless it is written with a bar, and no two
are confused.** For a schema that nests to any depth and has no field for help at its top, a fresh
command line takes the flags, in the order in which the fields are declared and each section in its
place. A field of a plain type, a list or a choice has one, and so has one that may be unset
besides, but for those written with a bar; if there are none of these, no field is without the flag
that it calls for. A flag sets the dotted path of its field. Neither what options set nor how they
are spelled is shared by two of them, the option for help included. -/
theorem Proper.declareAll_flags (hs : s.Proper) (hhelp : ∀ f ∈ s.fields, f.1.name ≠ "help")
    (program : String) (description : Option String) :
    ∃ c : CommandLine, (CommandLine.new program description).declareAll s.flags = .ok c ∧
      s.DeclaredOn c := by
  have hspelled : (s.flags.flatMap OptionForm.spellings).Nodup := by
    refine List.nodup_flatMap.mpr ⟨fun o ho => ?_, hs.pairwise_flags.imp fun h => h.2⟩
    obtain ⟨p, hp, _, hflag⟩ := mem_flags.mp ho
    rw [(hs.of_flagAt? hp hflag).1]
    exact List.nodup_singleton _
  have hfree : Options.helpOption.spellings.Disjoint (s.flags.flatMap OptionForm.spellings) := by
    intro x hx hflag
    obtain ⟨o, ho, hxo⟩ := List.mem_flatMap.mp hflag
    exact (hs.help_of_mem_flags hhelp ho).2 hx hxo
  have hpurposes : (s.flags.map fun o => o.meaning.purpose).Nodup :=
    List.pairwise_map.mpr (hs.pairwise_flags.imp fun h => h.1)
  have hother : Options.helpOption.meaning.purpose ∉ s.flags.map fun o => o.meaning.purpose := by
    intro hmem
    obtain ⟨o, ho, heq⟩ := List.mem_map.mp hmem
    obtain ⟨p, hp, _, hflag⟩ := mem_flags.mp ho
    rw [(hs.of_flagAt? hp hflag).2.1] at heq
    cases heq
  refine ⟨⟨program, description, Options.helpOption :: s.flags⟩,
    CommandLine.declareAll_of_not_spelled (fun x hx hhelp => hfree ?_ hx) hspelled, ?_⟩
  · simpa [CommandLine.spelled, CommandLine.new] using hhelp
  exact {
    options := by rw [← flags_eq]
    complete := hs.flags_eq_iff
    fields := fun path f => hs.mem_fieldPaths
    once := FieldType.Proper.nodup_fieldPaths hs
    sets := fun p hp o ho => (hs.of_flagAt? hp ho).2.1
    purposes := List.nodup_cons.mpr ⟨hother, hpurposes⟩
    noHelp := List.forall_mem_cons.mpr
      ⟨by rintro ⟨⟩, fun o ho => (hs.help_of_mem_flags hhelp ho).1⟩
    spellings := List.nodup_append'.mpr ⟨by decide, hspelled, hfree⟩ }

/-- Sections in a section that may be unset, and a number written with a bar. -/
theorem declareAll_flags_nested :
    let field : String → FieldType → Field := fun name t => (⟨name, none, none, false, none⟩, t)
    let pool := FieldType.group "Pool" [field "max_size" (.scalar .int),
      field "modes" (.list (some .text))]
    let database := FieldType.group "Database" [field "url" (.scalar .text), field "pool" pool]
    let s : Schema := ⟨"App", [field "verbose" (.scalar .bool),
      field "http_port" (.union .choice true [.scalar .int]),
      field "retries" (.union .bar true [.scalar .int]),
      field "database" (.union .choice true [database])]⟩
    s.Proper ∧ (∀ f ∈ s.fields, f.1.name ≠ "help") ∧
      ∃ c : CommandLine, (CommandLine.new "app" none).declareAll s.flags = .ok c ∧
        s.DeclaredOn c ∧ c.spelled = ["-h", "--help", "--verbose", "--http-port", "--database.url",
          "--database.pool.max-size", "--database.pool.modes"] := by
  intro field pool database s
  have hpool : pool.Proper := by
    refine .group (by decide) (by decide) ?_
    simp only [List.forall_mem_cons, field]
    exact ⟨.scalar _, .list _, by simp⟩
  have hdatabase : database.Proper := by
    refine .group (by decide) (by decide) ?_
    simp only [List.forall_mem_cons, field]
    exact ⟨.scalar _, hpool, by simp⟩
  have hs : s.Proper := by
    refine .group (by decide) (by decide) ?_
    simp only [List.forall_mem_cons, s, field]
    exact ⟨.scalar _, .union (by simp) (by simpa using .scalar _),
      .union (by simp) (by simpa using .scalar _), .union (by simp) (by simpa using hdatabase),
      by simp⟩
  have hhelp : ∀ f ∈ s.fields, f.1.name ≠ "help" := by decide
  obtain ⟨c, hc, hdeclared⟩ := hs.declareAll_flags hhelp "app" none
  refine ⟨hs, hhelp, c, hc, hdeclared, ?_⟩
  rw [CommandLine.spelled, hdeclared.options]
  decide +kernel

/-- A number that may be unset has a flag if it is written as a choice, and none if it is written
with a bar. -/
theorem flags_barred :
    let s : UnionStyle → Schema := fun style =>
      ⟨"Model", [(⟨"x", some .null, none, false, none⟩, .union style true [.scalar .int])]⟩
    (s .choice).flags.map OptionForm.spellings = [["--x"]] ∧ (s .bar).flags = [] := by
  decide +kernel

end Schema

end BootConfig
