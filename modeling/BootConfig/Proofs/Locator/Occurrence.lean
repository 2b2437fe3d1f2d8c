import BootConfig.Locator
import BootConfig.Proofs.Options.Argument

/-!
# Occurrences of the startup options

What a single argument says about the startup options, without an option table:

* `StartupOption.mention?`: the argument is the option, alone or with a value attached;
* `isAmbiguous`: it could be short for either option;
* `isValueLike`: it can be the value of the option before it.

The table of the locator reads every argument in this way (`classify_ambiguous`,
`classify_mention`, `classify_other`).
-/

namespace BootConfig.Locator

open Options (Arity Occurrence OptionForm Reading Spelled attachedValues candidates classify
  cutAtEquals cutAtEquals_append cutAtEquals_eq_some_iff find? isNegativeNumber named? separator
  startsWith startsWith_append starts mem_starts)

/-! ## Arguments -/

namespace StartupOption

def name : StartupOption → String
  | .configFile => fileOption
  | .expandEnv => expandOption

def spellings (o : StartupOption) : List String := ["-" ++ o.name, "--" ++ o.name]

/-- The shortened spellings: after one hyphen, the name may end anywhere behind the part that both
names share. -/
def shortSpellings : StartupOption → List String
  | .configFile => ["-config.f", "-config.fi", "-config.fil"]
  | .expandEnv => ["-config.e", "-config.ex", "-config.exp", "-config.expa", "-config.expan",
      "-config.expand", "-config.expand-", "-config.expand-e", "-config.expand-en"]

/-- Whether an argument is the option, and then the value attached to it, if there is one. Only
spellings in full have values attached. -/
def mention? (o : StartupOption) (arg : String) : Option (Option String) :=
  if arg ∈ o.spellings ++ o.shortSpellings then some none
  else (cutAtEquals arg).bind fun p => if p.1 ∈ o.spellings then some (some p.2) else none

def arity : StartupOption → Arity
  | .configFile => .one
  | .expandEnv => .optional

def form (o : StartupOption) : OptionForm StartupOption := ⟨o.spellings, o.arity, o⟩

end StartupOption

/-- The arguments that could be short for either option: one hyphen and a part of what both names
start with. -/
def ambiguousSpellings : List String :=
  ["-c", "-co", "-con", "-conf", "-confi", "-config", "-config."]

def isAmbiguous (arg : String) : Bool := ambiguousSpellings.contains arg

/-- Whether an argument is one of the startup options. -/
def isMention (arg : String) : Bool :=
  (StartupOption.mention? .configFile arg).isSome || (StartupOption.mention? .expandEnv arg).isSome

/-- Whether an argument can be the value of an option before it: it has no hyphen in front (as the
empty text has none), it is nothing but a hyphen, it is a negative number, or it holds a blank and
is no startup option. -/
def isValueLike (arg : String) : Bool :=
  !startsWith arg "-" || arg == "-" || isNegativeNumber arg ||
    (arg.toList.contains ' ' && !isMention arg)

/-! ## Mentions -/

namespace StartupOption

theorem noEquals_spellings (o : StartupOption) : ∀ s ∈ o.spellings, '=' ∉ s.toList := by
  cases o <;> decide

theorem noEquals_short (o : StartupOption) : ∀ s ∈ o.shortSpellings, '=' ∉ s.toList := by
  cases o <;> decide

/-- One hyphen and a letter, or less, spell no startup option. -/
theorem not_mem_spellings_of_short {o : StartupOption} {cs : List Char} (h : cs.length ≤ 2) :
    String.ofList cs ∉ o.spellings := by
  have hlong : ∀ s ∈ o.spellings, 2 < s.toList.length := by cases o <;> decide
  intro hs
  have hlen := hlong _ hs
  rw [String.toList_ofList] at hlen
  omega

/-- An argument with a value attached is one of the spellings in full, an equals sign and the
value. -/
theorem mention?_attached_iff {o : StartupOption} {arg value : String} :
    o.mention? arg = some (some value) ↔ ∃ s ∈ o.spellings, arg = s ++ "=" ++ value := by
  constructor
  · intro h
    unfold mention? at h
    split at h
    · cases h
    · obtain ⟨⟨s, v⟩, hcut, h⟩ := Option.bind_eq_some_iff.mp h
      split at h
      · rename_i hs
        cases h
        exact ⟨s, hs, (cutAtEquals_eq_some_iff.mp hcut).2⟩
      · cases h
  · rintro ⟨s, hs, rfl⟩
    have hcut := cutAtEquals_append value (o.noEquals_spellings s hs)
    have hnot : s ++ "=" ++ value ∉ o.spellings ++ o.shortSpellings := by
      intro hmem
      have heq : '=' ∈ (s ++ "=" ++ value).toList := by simp [String.toList_append]
      rcases List.mem_append.mp hmem with hmem | hmem
      · exact o.noEquals_spellings _ hmem heq
      · exact o.noEquals_short _ hmem heq
    unfold mention?
    rw [if_neg hnot, hcut]
    simp [hs]

theorem mention?_alone_iff {o : StartupOption} {arg : String} :
    o.mention? arg = some none ↔ arg ∈ o.spellings ++ o.shortSpellings := by
  constructor
  · intro h
    by_contra hmem
    unfold mention? at h
    rw [if_neg hmem] at h
    obtain ⟨p, _, h⟩ := Option.bind_eq_some_iff.mp h
    split at h <;> cases h
  · intro h
    unfold mention?
    rw [if_pos h]

/-- After the hyphen of a startup option stands another hyphen or a letter. -/
theorem mention?_start {o : StartupOption} {arg : String} {attached : Option String}
    (h : o.mention? arg = some attached) :
    ∃ c rest, arg.toList = '-' :: c :: rest ∧ (c = '-' ∨ c = 'c') := by
  have hstart : ∀ s ∈ o.spellings ++ o.shortSpellings,
      s.toList.take 2 = ['-', '-'] ∨ s.toList.take 2 = ['-', 'c'] := by
    cases o <;> decide
  have hlist : ∀ (l : List Char), l.take 2 = ['-', '-'] ∨ l.take 2 = ['-', 'c'] →
      ∃ c rest, l = '-' :: c :: rest ∧ (c = '-' ∨ c = 'c') := by
    rintro (_ | ⟨a, _ | ⟨c, rest⟩⟩) hl
    · simp at hl
    · simp at hl
    · rcases hl with hl | hl <;> simp at hl <;> obtain ⟨rfl, rfl⟩ := hl
      · exact ⟨'-', rest, rfl, .inl rfl⟩
      · exact ⟨'c', rest, rfl, .inr rfl⟩
  cases attached with
  | none => exact hlist _ (hstart arg (mention?_alone_iff.mp h))
  | some value =>
    obtain ⟨s, hs, rfl⟩ := mention?_attached_iff.mp h
    obtain ⟨c, rest, hc, hletter⟩ := hlist _ (hstart s (List.mem_append_left _ hs))
    exact ⟨c, rest ++ ("=" ++ value).toList, by simp [String.toList_append, hc], hletter⟩

theorem mention?_cases (arg : String) :
    (∀ o : StartupOption, o.mention? arg = none) ∨
      ∃ (o : StartupOption) (attached : Option String), o.mention? arg = some attached := by
  by_cases hnone : ∀ o : StartupOption, o.mention? arg = none
  · exact .inl hnone
  · obtain ⟨o, ho⟩ := not_forall.mp hnone
    exact .inr ⟨o, Option.ne_none_iff_exists'.mp ho⟩

theorem startsWith_of_mention? {o : StartupOption} {arg : String} {attached : Option String}
    (h : o.mention? arg = some attached) : startsWith arg "-" = true := by
  obtain ⟨c, rest, harg, _⟩ := mention?_start h
  simp [startsWith, harg]

end StartupOption

theorem isValueLike_of_mention {o : StartupOption} {arg : String} {attached : Option String}
    (h : o.mention? arg = some attached) : isValueLike arg = false := by
  obtain ⟨c, rest, harg, hc⟩ := StartupOption.mention?_start h
  have hneg : isNegativeNumber arg = false := by
    refine Options.isNegativeNumber_eq_false harg ?_ ?_
    · rcases hc with rfl | rfl <;> decide
    · rcases hc with rfl | rfl <;> decide
  have hone : arg ≠ "-" := by
    rintro rfl
    simp at harg
  have hmention : isMention arg = true := by
    cases o <;> simp [isMention, h]
  simp [isValueLike, StartupOption.startsWith_of_mention? h, hone, hneg, hmention]

theorem isValueLike_separator : isValueLike separator = false := by decide

/-! ## The readings of the table -/

theorem table_eq : table = [StartupOption.configFile.form, StartupOption.expandEnv.form] := rfl

theorem eq_form_of_mem_table {f : OptionForm StartupOption} (h : f ∈ table) :
    ∃ o : StartupOption, f = o.form := by
  rw [table_eq, List.mem_cons, List.mem_singleton] at h
  rcases h with rfl | rfl
  · exact ⟨.configFile, rfl⟩
  · exact ⟨.expandEnv, rfl⟩

theorem noEquals_table : Options.NoEquals table := by
  intro f hf
  obtain ⟨o, rfl⟩ := eq_form_of_mem_table hf
  exact o.noEquals_spellings

theorem find?_table {o : StartupOption} {s : String} (h : s ∈ o.spellings) :
    find? table s = some o.form := by
  cases o <;>
    simp only [StartupOption.spellings, List.mem_cons, List.not_mem_nil, or_false] at h <;>
    rcases h with rfl | rfl <;> rfl

/-- A startup option is read as that option, with the value attached to it. -/
theorem classify_mention {o : StartupOption} {arg : String} {attached : Option String}
    (h : o.mention? arg = some attached) :
    ∃ s, classify table false arg = .ok (.option s) ∧ s.option = o.form ∧
      s.attached = attached := by
  cases attached with
  | none =>
    have hmem := StartupOption.mention?_alone_iff.mp h
    -- a shortened spelling is a candidate for one option only, which evaluation shows
    cases o <;>
      simp only [StartupOption.spellings, StartupOption.shortSpellings, List.cons_append,
        List.nil_append, List.mem_cons, List.not_mem_nil, or_false] at hmem
    · rcases hmem with rfl | rfl | rfl | rfl | rfl <;> exact ⟨_, rfl, rfl, rfl⟩
    · rcases hmem with rfl | rfl | rfl | rfl | rfl | rfl | rfl | rfl | rfl | rfl | rfl <;>
        exact ⟨_, rfl, rfl, rfl⟩
  | some value =>
    obtain ⟨s, hs, rfl⟩ := StartupOption.mention?_attached_iff.mp h
    refine ⟨⟨o.form, s, some value⟩, ?_, rfl, rfl⟩
    refine Options.classify_of_named (StartupOption.startsWith_of_mention? h) ?_
    exact (Options.named?_eq_some_iff noEquals_table).mpr
      ⟨find?_table hs, cutAtEquals_append value (o.noEquals_spellings s hs)⟩

/-- An argument is at most one startup option. -/
theorem mention?_unique {o o' : StartupOption} {arg : String} {attached attached' : Option String}
    (h : o.mention? arg = some attached) (h' : o'.mention? arg = some attached') :
    o = o' ∧ attached = attached' := by
  obtain ⟨s, hs, hform, hatt⟩ := classify_mention h
  obtain ⟨s', hs', hform', hatt'⟩ := classify_mention h'
  rw [hs] at hs'
  cases hs'
  refine ⟨?_, hatt.symm.trans hatt'⟩
  exact congrArg OptionForm.meaning (hform.symm.trans hform')

theorem classify_ambiguous {arg : String} (h : isAmbiguous arg = true) :
    ∃ f, classify table false arg = .error f := by
  have hmem : arg ∈ ambiguousSpellings := by simpa [isAmbiguous] using h
  simp only [ambiguousSpellings, List.mem_cons, List.not_mem_nil, or_false] at hmem
  rcases hmem with rfl | rfl | rfl | rfl | rfl | rfl | rfl <;> exact ⟨_, rfl⟩

/-- What a spelling of a startup option starts with is an ambiguous argument, that option, or no
more than hyphens. -/
theorem starts_spellings (o : StartupOption) : ∀ s ∈ o.spellings, ∀ start ∈ starts s,
    start ∈ o.spellings ++ o.shortSpellings ∨ start ∈ ambiguousSpellings ∨ start = "" ∨
      start = "-" ∨ startsWith start separator = true := by
  cases o <;> decide

/-- An argument that says nothing about the startup options is short for none of them. -/
theorem candidates_other {arg : String} (hdash : startsWith arg "-" = true) (hone : arg ≠ "-")
    (hamb : isAmbiguous arg = false) (hnone : ∀ o : StartupOption, o.mention? arg = none) :
    candidates table false arg = [] := by
  unfold candidates
  split
  · rfl
  · rename_i hsep
    rw [List.filterMap_eq_nil_iff]
    rintro ⟨s, f⟩ hp
    obtain ⟨hf, hs⟩ := Options.mem_spellings.mp hp
    obtain ⟨o, rfl⟩ := eq_form_of_mem_table hf
    have hletter : s ≠ String.ofList (arg.toList.take 2) := by
      intro h
      rw [h] at hs
      exact StartupOption.not_mem_spellings_of_short (List.length_take_le _ _) hs
    have hstart : startsWith s arg = false := by
      by_contra h
      have hcases := starts_spellings o s hs arg (mem_starts.mpr (eq_true_of_ne_false h))
      -- each of these is excluded: it would be a mention, ambiguous, or no start of an option
      rcases hcases with h | h | rfl | rfl | h
      · have := StartupOption.mention?_alone_iff.mpr h
        rw [hnone o] at this
        cases this
      · simp [isAmbiguous, h] at hamb
      · simp [startsWith] at hdash
      · exact hone rfl
      · exact hsep h
    simp [hletter, hstart]

/-- Any other argument is a value, or unknown. -/
theorem classify_other {arg : String} (hamb : isAmbiguous arg = false)
    (hnone : ∀ o : StartupOption, o.mention? arg = none) :
    classify table false arg = .ok (if isValueLike arg then .plain else .unknown) := by
  cases hdash : startsWith arg "-" with
  | false => simp [Options.classify_of_not_hyphen hdash, isValueLike, hdash]
  | true =>
    have hnamed : named? table arg = none := by
      rw [Option.eq_none_iff_forall_ne_some]
      intro s hs
      obtain ⟨hfind, harg⟩ := (Options.named?_eq_some_iff noEquals_table).mp hs
      obtain ⟨hmem, hspelled⟩ := Options.find?_eq_some hfind
      obtain ⟨o, hform⟩ := eq_form_of_mem_table hmem
      rw [hform] at hspelled
      split at harg
      · have := StartupOption.mention?_alone_iff.mpr
          (List.mem_append_left o.shortSpellings (harg ▸ hspelled))
        rw [hnone o] at this
        cases this
      · rename_i value _
        obtain ⟨_, harg⟩ := cutAtEquals_eq_some_iff.mp harg
        have := StartupOption.mention?_attached_iff.mpr ⟨s.spelling, hspelled, harg⟩
        rw [hnone o] at this
        cases this
    by_cases hone : arg = "-"
    · subst hone
      rfl
    · have hmention : isMention arg = false := by simp [isMention, hnone]
      rw [Options.classify_eq, hnamed, candidates_other hdash hone hamb hnone]
      simp only [hdash, isValueLike, hmention, Bool.not_true, Bool.false_eq_true, if_false,
        Bool.not_false, Bool.and_true, Bool.false_or, beq_eq_false_iff_ne.mpr hone]
      split <;> rfl

end BootConfig.Locator
