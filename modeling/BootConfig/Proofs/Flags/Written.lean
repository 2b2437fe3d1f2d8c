import BootConfig.Proofs.Flags.Apply
import BootConfig.Proofs.Number.Decimal
import BootConfig.Proofs.Options.Bindings
import BootConfig.Proofs.Session.Settings

/-!
# Leaves written as arguments

What a leaf holds can be written as the arguments of its flag: a single value is attached to the
spelling with an equals sign, and the items of a list follow it. A command line on which no other
option is in the way reads these arguments as the flag, and their values as what the leaf holds.

* `Leaf.arguments`: the arguments for a value of a leaf.
* `IsExpressed`: types of fields, with how their flags read a value.
* `TakesFlags`: a command line on which no other option is in the way.
* `TakesFlags.gives_argumentGroup`: the arguments for a value are one group, which gives that value
  for the path of the leaf.
-/

namespace BootConfig

open Options (Arity CommandLine CommandOption Conversion OptionGroup OptionForm OptionMeaning
  classify find? joined separator spellings startsWith)

/-! ## Written values -/

namespace Value

/-- A single value as an argument: an integer in decimal, a text as it is. -/
def written : Value → String
  | .scalar (.int n) => Numeral.intText n
  | .scalar (.text t) => t.lossy
  | _ => ""

/-- What can be written as arguments: integers with as many digits as are read, texts other than two
hyphens alone, and lists with an item at least. An argument is a string of characters, so none is a
text that has a surrogate in it. -/
def Expressible : Value → Prop
  | .scalar (.int n) => n.natAbs < 10 ^ Numeral.maxDigits
  | .scalar (.text t) => ∃ s, t = Text.ofString s ∧ s ≠ separator
  | .list items => items ≠ [] ∧ ∀ n, Value.int n ∈ items → n.natAbs < 10 ^ Numeral.maxDigits
  | _ => True

theorem written_text (s : String) : (Value.scalar (.text (Text.ofString s))).written = s :=
  Text.lossy_ofString s

theorem expressible_text_iff (t : Text) : (Value.scalar (.text t)).Expressible ↔
    t = Text.ofString t.lossy ∧ t.lossy ≠ separator := by
  constructor
  · rintro ⟨s, rfl, hs⟩
    rw [Text.lossy_ofString]
    exact ⟨rfl, hs⟩
  · exact fun ⟨ht, hs⟩ => ⟨t.lossy, ht, hs⟩

/-- An item of a list that is no integer, or one with as many digits as are read. -/
def isShort : Value → Bool
  | .scalar (.int n) => decide (n.natAbs < 10 ^ Numeral.maxDigits)
  | _ => true

theorem expressible_list_iff (items : List Value) : (Value.list items).Expressible ↔
    items.isEmpty = false ∧ items.all isShort = true := by
  rw [List.isEmpty_eq_false_iff, List.all_eq_true]
  have hint : ∀ n, isShort (Value.int n) = decide (n.natAbs < 10 ^ Numeral.maxDigits) :=
    fun _ => rfl
  refine and_congr_right fun _ => ⟨fun h v hv => ?_, fun h n hn => ?_⟩
  · unfold isShort
    split
    · exact decide_eq_true (h _ hv)
    · rfl
  · have hshort := h _ hn
    rw [hint] at hshort
    exact of_decide_eq_true hshort

instance (v : Value) : Decidable v.Expressible :=
  match v with
  | .scalar (.int n) => inferInstanceAs (Decidable (n.natAbs < 10 ^ Numeral.maxDigits))
  | .scalar (.text t) => decidable_of_iff' _ (expressible_text_iff t)
  | .list items => decidable_of_iff' _ (expressible_list_iff items)
  | .scalar .null | .scalar (.bool _) | .scalar (.double _) | .scalar (.bytes _)
  | .scalar (.date _) | .scalar (.stamp _) | .pair .. | .set _ | .map _ | .graph _ =>
    inferInstanceAs (Decidable True)

theorem Expressible.text {t : Text} (h : (Value.scalar (.text t)).Expressible) :
    ∃ s, t = Text.ofString s ∧ s ≠ separator := h

end Value

namespace Leaf

/-- The arguments that give a leaf a value. -/
def arguments (l : Leaf) : Value → List String
  | .list items => Flags.spelling l.path :: items.map Value.written
  | v => [joined (Flags.spelling l.path) (some v.written)]

/-- The flag of a leaf. -/
def flag (l : Leaf) : CommandOption :=
  (Flags.ofType l.path l.field.1.help l.field.2).headD default

/-- The arguments for a value as one group: the flag of the leaf with its values. -/
def argumentGroup (l : Leaf) : Value → OptionGroup OptionMeaning
  | .list items => ⟨Flags.spelling l.path, ⟨l.flag, Flags.spelling l.path, none⟩,
      items.map Value.written⟩
  | v => ⟨joined (Flags.spelling l.path) (some v.written),
      ⟨l.flag, Flags.spelling l.path, some v.written⟩, []⟩

theorem args_argumentGroup (l : Leaf) (v : Value) : (l.argumentGroup v).args = l.arguments v := by
  cases v <;> rfl

end Leaf

/-! ## How flags read values -/

/-- Types of fields whose values can be given by a flag, with the number of values that the flag
takes and how they are read. A choice has to be among texts that name themselves. -/
inductive IsExpressed : FieldType → Arity → Conversion → Prop
  | int : IsExpressed (.scalar .int) .one .int
  | text : IsExpressed (.scalar .text) .one .text
  | optional : IsExpressed (.union .choice true [.scalar .text]) .one .text
  | choice {name : String} {members : List String}
      (named : ∀ s ∈ members, (Ingester.textChoice name members).named? (Text.ofString s) =
        some (.text (Text.ofString s))) :
      IsExpressed (.enumeration (Ingester.textChoice name members)) .one
        (.member (Ingester.textChoice name members))
  | ints : IsExpressed (.list (some .int)) .many .int

namespace IsExpressed

variable {t : FieldType} {a : Arity} {c : Conversion}

theorem ofType (h : IsExpressed t a c) (path : String) (help : Option String) :
    Flags.ofType path help t = [Flags.option path help a c] := by
  cases h with
  | optional => rw [Flags.ofType, Flags.ofType]; rfl
  | int => rw [Flags.ofType]; rfl
  | text => rw [Flags.ofType]; rfl
  | choice => rw [Flags.ofType]
  | ints => rw [Flags.ofType]; rfl

theorem flag {l : Leaf} (h : IsExpressed l.field.2 a c) :
    l.flag = Flags.option l.path l.field.1.help a c := by
  rw [Leaf.flag, h.ofType]
  rfl

end IsExpressed

/-- The text of an integer is not two hyphens: its first or its second character is a digit. -/
theorem Numeral.intText_ne_separator (n : Int) : intText n ≠ separator := by
  intro h
  have hlist := toList_intText n
  have hdecimal := Shortest.isDecimal_natDigits n.natAbs
  rw [h] at hlist
  split at hlist
  · have htail : ['-'] = Shortest.natDigits n.natAbs := (List.cons_eq_cons.mp hlist).2
    exact (hdecimal '-' (htail ▸ List.mem_cons_self)).ne_sign.1 rfl
  · exact (hdecimal '-' (hlist ▸ List.mem_cons_self)).ne_sign.1 rfl

theorem Options.Conversion.read_intText {n : Int} (h : n.natAbs < 10 ^ Numeral.maxDigits) :
    Conversion.int.read (Numeral.intText n) = .ok (.int n) := by
  unfold Conversion.read
  simp only [Numeral.int_intText h]

/-- A single value that is read again from its text. -/
def Value.ReadBy (c : Conversion) (v : Value) : Prop :=
  ∃ s, v = .scalar s ∧ v.written ≠ separator ∧ c.read v.written = .ok s

theorem Value.readBy_int {n : Int} (h : (Value.scalar (.int n)).Expressible) :
    ReadBy .int (.scalar (.int n)) := by
  have hsmall : n.natAbs < 10 ^ Numeral.maxDigits := by rwa [Expressible] at h
  refine ⟨.int n, rfl, ?_⟩
  rw [written]
  exact ⟨Numeral.intText_ne_separator n, Options.Conversion.read_intText hsmall⟩

theorem Value.readBy_text {t : Text} (h : (Value.scalar (.text t)).Expressible) :
    ReadBy .text (.scalar (.text t)) := by
  obtain ⟨s, rfl, hne⟩ := h.text
  refine ⟨.text (Text.ofString s), rfl, ?_⟩
  rw [written_text]
  exact ⟨hne, rfl⟩

/-- A choice that names itself is read from its name. -/
theorem Value.readBy_member {e : Enumeration} {name : String}
    (hnamed : e.named? (Text.ofString name) = some (.text (Text.ofString name)))
    (h : (Value.scalar (.text (Text.ofString name))).Expressible) :
    ReadBy (.member e) (.scalar (.text (Text.ofString name))) := by
  obtain ⟨_, hne⟩ := (expressible_text_iff _).mp h
  rw [Text.lossy_ofString] at hne
  refine ⟨.text (Text.ofString name), rfl, ?_⟩
  rw [written_text]
  refine ⟨hne, ?_⟩
  unfold Conversion.read
  simp only [hnamed]

namespace IsExpressed

variable {f : Field} {a : Arity} {c : Conversion} {v : Value}

/-- A value other than null that its field leaves as it is: a single one that the flag reads again
from its text, or a list of integers. -/
theorem shape (h : IsExpressed f.2 a c) (hv : f.Fixes v) (hnull : v ≠ .null)
    (hexpressible : v.Expressible) :
    (a = .one ∧ v.ReadBy c) ∨
      (a = .many ∧ c = .int ∧ ∃ ns : List Int, ns ≠ [] ∧ v = .list (ns.map Value.int) ∧
        ∀ n ∈ ns, n.natAbs < 10 ^ Numeral.maxDigits) := by
  obtain ⟨info, t⟩ := f
  have hcheck := (Field.check_eq_ok hv.check).1
  cases h with
  | int =>
    obtain ⟨s, hs, hcoerce⟩ := FieldType.check_scalar_eq_ok hcheck
    cases hs
    obtain ⟨n, rfl⟩ := Ingester.int_of_coerceScalar hcoerce
    exact .inl ⟨rfl, Value.readBy_int hexpressible⟩
  | text =>
    obtain ⟨s, hs, hcoerce⟩ := FieldType.check_scalar_eq_ok hcheck
    cases hs
    obtain ⟨t, rfl⟩ := Ingester.text_of_coerceScalar hcoerce
    exact .inl ⟨rfl, Value.readBy_text hexpressible⟩
  | optional =>
    rcases FieldType.check_optional_eq_ok hcheck with ⟨w, hw, htree⟩ | ⟨s, hs, hcoerce⟩
    · cases hw
      rw [hv.tree] at htree
      exact (hnull (Option.some.inj htree)).elim
    · cases hs
      obtain ⟨t, rfl⟩ := Ingester.text_of_coerceScalar hcoerce
      exact .inl ⟨rfl, Value.readBy_text hexpressible⟩
  | @choice name members named =>
    obtain ⟨m, hm, hvalue, _⟩ := FieldType.check_enumeration_eq_ok
      (Ingester.wellFormed_textChoice name members) rfl hcheck
    obtain ⟨member, hmember, rfl⟩ := List.mem_map.mp hm
    cases hvalue
    exact .inl ⟨rfl, Value.readBy_member (named member hmember) hexpressible⟩
  | ints =>
    obtain ⟨items, hitems, hscalar, _⟩ := FieldType.check_list_eq_ok hcheck
    cases hitems
    obtain ⟨ns, rfl⟩ := Ingester.ints_of_coerceScalar hscalar
    obtain ⟨hne, hdigits⟩ := hexpressible
    exact .inr ⟨rfl, rfl, ns, by simpa using hne, rfl, fun n hn =>
      hdigits n (List.mem_map_of_mem hn)⟩

end IsExpressed

/-! ## Command lines -/

/-- A command line on which the flags of a schema can be given: no spelling is there twice, none is
a separator or holds an equals sign, and none starts like a negative number. -/
structure TakesFlags (c : CommandLine) (s : Schema) : Prop where
  flags : ∀ o ∈ s.flags, o ∈ c.options
  distinct : ((spellings c.options).map Prod.fst).Nodup
  spelling : ∀ o ∈ c.options, ∀ x ∈ o.spellings, x ≠ separator ∧ '=' ∉ x.toList ∧
    ∀ d ∈ x.toList[1]?, Options.isDigit d = false

theorem Options.find?_of_mem {α : Type} {table : Options.Table α}
    (h : ((spellings table).map Prod.fst).Nodup) {o : OptionForm α} (ho : o ∈ table) {x : String}
    (hx : x ∈ o.spellings) : find? table x = some o := by
  cases hfind : find? table x with
  | none => exact (Options.find?_eq_none_iff.mp hfind o ho hx).elim
  | some o' =>
    obtain ⟨ho', hx'⟩ := Options.find?_eq_some hfind
    have hsame := List.inj_on_of_nodup_map h (Options.mem_spellings.mpr ⟨ho', hx'⟩)
      (Options.mem_spellings.mpr ⟨ho, hx⟩) rfl
    exact congrArg (fun p => some p.2) hsame

theorem Options.classify_of_number {α : Type} {table : Options.Table α} {arg : String}
    (hnamed : Options.named? table arg = none) (hshort : Options.candidates table true arg = [])
    (h : Options.isNegativeNumber arg = true) : classify table true arg = .ok .plain := by
  rw [Options.classify_eq, hnamed, hshort, h]
  simp

namespace TakesFlags

variable {cl : CommandLine} {s : Schema} {l : Leaf} {a : Arity} {c : Conversion} {v : Value}

/-- Options that are not needed can be left out. -/
theorem of_append {others : Options.Table OptionMeaning}
    (h : TakesFlags { cl with options := cl.options ++ others } s)
    (hflags : ∀ o ∈ s.flags, o ∈ cl.options) : TakesFlags cl s := by
  have hspellings : (spellings (cl.options ++ others)).map Prod.fst =
      (spellings cl.options).map Prod.fst ++ (spellings others).map Prod.fst := by
    unfold spellings
    rw [List.flatMap_append, List.map_append]
  refine ⟨hflags, ?_, fun o ho => h.spelling o (List.mem_append_left _ ho)⟩
  exact (hspellings ▸ h.distinct).of_append_left

theorem noEquals (h : TakesFlags cl s) : Options.NoEquals cl.options :=
  fun o ho x hx => (h.spelling o ho x hx).2.1

/-- The text of an integer is a value: a negative number is no option, because no spelling starts
like one. -/
theorem classify_intText (h : TakesFlags cl s) (n : Int) :
    classify cl.options true (Numeral.intText n) = .ok .plain := by
  have hdecimal := Shortest.isDecimal_natDigits n.natAbs
  obtain ⟨d, ds, hds⟩ := List.exists_cons_of_ne_nil (Shortest.natDigits_ne_nil n.natAbs)
  rw [hds] at hdecimal
  have hd := hdecimal d List.mem_cons_self
  have hlist := Numeral.toList_intText n
  rw [hds] at hlist
  split at hlist
  · -- a spelling that has to do with the text would have a digit after its hyphen
    have hother : ∀ o ∈ cl.options, ∀ x ∈ o.spellings, ¬ ['-', d] <+: x.toList := by
      rintro o ho x hx ⟨rest, hrest⟩
      have hdigit := (h.spelling o ho x hx).2.2 d (by rw [← hrest]; rfl)
      rw [hd.isDigit] at hdigit
      cases hdigit
    have hhead : ['-', d] <+: (Numeral.intText n).toList := by
      rw [hlist]
      exact List.prefix_append ['-', d] ds
    have hseparator : startsWith (Numeral.intText n) separator = false := by
      refine eq_false_of_ne_true fun hstart => hd.ne_sign.1 ?_
      have hstart := Options.startsWith_iff.mp hstart
      rw [hlist] at hstart
      exact (List.cons_prefix_cons.mp (List.cons_prefix_cons.mp hstart).2).1.symm
    refine Options.classify_of_number ?_ ?_ ?_
    · have hequals : '=' ∉ (Numeral.intText n).toList := by
        rw [hlist]
        refine List.not_mem_cons_of_ne_of_not_mem (by decide) fun hmem => ?_
        exact absurd (hdecimal '=' hmem).isDigit (by decide)
      have hnone : find? cl.options (Numeral.intText n) = none := by
        exact Options.find?_eq_none_iff.mpr fun o ho hspelled => hother o ho _ hspelled hhead
      have hnamed := Options.named?_joined h.noEquals none hequals
      rw [hnone] at hnamed
      exact hnamed
    · refine List.eq_nil_iff_forall_not_mem.mpr fun s hs => ?_
      obtain ⟨ho, hspelled, hcandidate⟩ := Options.mem_candidates hs
      refine hother _ ho _ hspelled ?_
      rcases hcandidate with ⟨hsep, _⟩ | ⟨_, hstart, _⟩ | ⟨_, hletter⟩
      · rw [hseparator] at hsep
        cases hsep
      · exact hhead.trans (Options.startsWith_iff.mp hstart)
      · rw [hletter, hlist, String.toList_ofList]
        exact List.prefix_rfl
    · have hall : (d :: ds).dropWhile Options.isDigit = [] :=
        List.dropWhile_eq_nil_iff.mpr fun c hc => (hdecimal c hc).isDigit
      unfold Options.isNegativeNumber Options.isUnsignedNumber
      rw [hlist]
      simp [hall]
  · refine Options.classify_of_not_hyphen (eq_false_of_ne_true fun hstart => hd.ne_sign.1 ?_)
    have hstart := Options.startsWith_iff.mp hstart
    rw [hlist] at hstart
    exact (List.cons_prefix_cons.mp hstart).1.symm

/-! ### The flag of a leaf -/

theorem find?_flag (h : TakesFlags cl s) (hs : Sectioned s) (hl : l ∈ s.leaves)
    (hexpressed : IsExpressed l.field.2 a c) :
    find? cl.options (Flags.spelling l.path) = some l.flag := by
  have hflag : l.flag ∈ Flags.ofType l.path l.field.1.help l.field.2 := by
    rw [hexpressed.ofType, hexpressed.flag]
    exact List.mem_singleton_self _
  refine Options.find?_of_mem h.distinct (h.flags _ (hs.mem_flags hl hflag)) ?_
  rw [hexpressed.flag]
  exact List.mem_singleton_self _

theorem noEquals_spelling (h : TakesFlags cl s) (hs : Sectioned s) (hl : l ∈ s.leaves)
    (hexpressed : IsExpressed l.field.2 a c) :
    Flags.spelling l.path ≠ separator ∧ '=' ∉ (Flags.spelling l.path).toList := by
  obtain ⟨ho, hspelled⟩ := Options.find?_eq_some (h.find?_flag hs hl hexpressed)
  obtain ⟨hsep, hequals, _⟩ := h.spelling _ ho _ hspelled
  exact ⟨hsep, hequals⟩

/-- The first argument of a leaf is its flag. -/
theorem classify_flag (h : TakesFlags cl s) (hs : Sectioned s) (hl : l ∈ s.leaves)
    (hexpressed : IsExpressed l.field.2 a c) (attached : Option String) :
    joined (Flags.spelling l.path) attached ≠ separator ∧
      classify cl.options true (joined (Flags.spelling l.path) attached) =
        .ok (.option ⟨l.flag, Flags.spelling l.path, attached⟩) := by
  obtain ⟨hsep, hequals⟩ := h.noEquals_spelling hs hl hexpressed
  have hhyphens : startsWith (joined (Flags.spelling l.path) attached) separator = true :=
    Options.startsWith_trans (Options.startsWith_joined _ attached)
      (Options.startsWith_append separator _)
  refine ⟨?_, Options.classify_of_named (Options.startsWith_trans hhyphens (by decide)) ?_⟩
  · cases attached with
    | none => exact hsep
    | some value =>
      intro heq
      have hmem : '=' ∈ (joined (Flags.spelling l.path) (some value)).toList := by
        simp [joined, String.toList_append]
      rw [heq] at hmem
      exact absurd hmem (by decide)
  · rw [Options.named?_joined h.noEquals attached hequals, h.find?_flag hs hl hexpressed]
    rfl

end TakesFlags

/-! ## The group of a leaf -/

theorem Options.Conversion.mapM_read_intText {ns : List Int}
    (h : ∀ n ∈ ns, n.natAbs < 10 ^ Numeral.maxDigits) :
    (ns.map Numeral.intText).mapM Conversion.int.read = .ok (ns.map Scalar.int) := by
  induction ns with
  | nil => rfl
  | cons n rest ih =>
    obtain ⟨hn, hrest⟩ := List.forall_mem_cons.mp h
    rw [List.map_cons, List.mapM_cons, read_intText hn, ih hrest]
    rfl

namespace TakesFlags

variable {cl : CommandLine} {s : Schema} {l : Leaf} {a : Arity} {c : Conversion} {v : Value}

/-- The arguments for what a leaf holds are one group, which gives that for the path of the leaf. -/
theorem gives_argumentGroup (h : TakesFlags cl s) (hs : Sectioned s) (hl : l ∈ s.leaves)
    (hexpressed : IsExpressed l.field.2 a c) (hv : l.field.Fixes v) (hnull : v ≠ .null)
    (hexpressible : v.Expressible) :
    cl.Gives (l.argumentGroup v) l.path v := by
  have hclassify := h.classify_flag hs hl hexpressed
  rcases hexpressed.shape hv hnull hexpressible with
    ⟨rfl, x, rfl, hsep, hread⟩ | ⟨rfl, rfl, ns, hne, rfl, hdigits⟩
  · obtain ⟨hattached, hoption⟩ := hclassify (some (Value.scalar x).written)
    have hvalues : Options.attachedValues (Value.scalar x).written = [(Value.scalar x).written] :=
      if_neg (by simpa using hsep)
    refine ⟨⟨?_, rfl⟩, fun r hr => ?_, ?_, ?_⟩
    · simp [Leaf.argumentGroup, hexpressed.flag, Flags.option]
    · cases List.mem_singleton.mp hr
      exact ⟨hattached, hoption⟩
    · simp [Leaf.argumentGroup, OptionGroup.occurrence, hexpressed.flag, Flags.option]
    · simp only [Leaf.argumentGroup, OptionGroup.occurrence, CommandLine.valueOf, hexpressed.flag,
        Flags.option, hvalues, Conversion.readAll, hread]
      rfl
  · obtain ⟨halone, hoption⟩ := hclassify none
    have hwritten : (ns.map Value.int).map Value.written = ns.map Numeral.intText := by
      rw [List.map_map]
      rfl
    refine ⟨⟨?_, ?_⟩, fun r hr => ?_, ?_, ?_⟩
    · simp [Leaf.argumentGroup, hexpressed.flag, Flags.option]
    · simpa [Leaf.argumentGroup, hexpressed.flag, Flags.option, Options.valueCount] using hne
    · rcases List.mem_cons.mp hr with rfl | hr
      · exact ⟨halone, hoption⟩
      · simp only [Leaf.argumentGroup, hwritten] at hr
        obtain ⟨_, hmem, rfl⟩ := List.mem_map.mp hr
        obtain ⟨n, _, rfl⟩ := List.mem_map.mp hmem
        exact ⟨Numeral.intText_ne_separator n, h.classify_intText n⟩
    · simp [Leaf.argumentGroup, OptionGroup.occurrence, hexpressed.flag, Flags.option]
    · simp only [Leaf.argumentGroup, OptionGroup.occurrence, CommandLine.valueOf, hexpressed.flag,
        Flags.option, hwritten, Conversion.readAll,
        Options.Conversion.mapM_read_intText hdigits]
      rw [Except.map, List.map_map]
      rfl

end TakesFlags

end BootConfig
