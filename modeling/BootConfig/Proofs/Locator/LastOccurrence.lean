import BootConfig.Proofs.Locator.Occurrence
import BootConfig.Proofs.Options.Mentions

/-!
# The last occurrence counts

`locate` reads every suffix of the arguments and lets later findings replace earlier ones; a reading
may stop in the middle, or say nothing at all because of one ambiguous argument. All this comes to
one rule on single occurrences:

* an occurrence is live if no ambiguous argument follows it before the next separator (`isLive`);
* the path is that of the last live occurrence that has one (`givenPaths`);
* the switch is that of the last live occurrence (`givenSwitches`).

The invariant of the induction over the suffixes is that a reading finds nothing but live
occurrences, in their order, and all that it finds again later is found with the same value.
-/

namespace BootConfig.Locator

open Options (Occurrence OptionForm Reading Scan Spelled attachedValues classify classifyAll collect
  following mentions separator valueCount Watched)

/-! ## The rule -/

/-- Whether an option before these arguments counts: none of them up to the next separator is
ambiguous. -/
def isLive (rest : List String) : Bool :=
  (rest.takeWhile (· != separator)).all fun arg => !isAmbiguous arg

/-- The argument that follows, if it can be a value. -/
def following? (rest : List String) : Option String := rest.head?.filter isValueLike

/-- The path that an argument gives: the one attached to it, where two hyphens count as an empty
text, and else the one that follows. -/
def givenPath? (arg : String) (rest : List String) : Option String :=
  (StartupOption.mention? .configFile arg).bind fun attached => match attached with
    | some value => some (if value == separator then "" else value)
    | none => following? rest

/-- What the word after a switch says. A switch is on unless the word says otherwise. -/
def switchState (word : Option String) : Bool := (word.bind Truth.ofWord?).getD true

/-- The state that an argument gives to the switch. -/
def givenSwitch? (arg : String) (rest : List String) : Option Bool :=
  (StartupOption.mention? .expandEnv arg).map fun attached =>
    switchState (attached.or (following? rest))

/-- What the live arguments of a list give, in their order. -/
def given {β : Type} (give? : String → List String → Option β) : List String → List β
  | [] => []
  | arg :: rest => (if isLive rest then (give? arg rest).toList else []) ++ given give? rest

def givenPaths (args : List String) : List String := given givenPath? args

def givenSwitches (args : List String) : List Bool := given givenSwitch? args

/-! ## Classified arguments -/

/-- The readings of a list without an ambiguous argument before its separator. -/
inductive Reads : List String → List (String × Reading StartupOption) → Prop
  | nil : Reads [] []
  | separator (rest : List String) :
      Reads (separator :: rest) ((separator, .separator) :: rest.map fun r => (r, .plain))
  | cons {arg : String} {reading : Reading StartupOption} {rest : List String}
      {rs : List (String × Reading StartupOption)} (hsep : arg ≠ separator)
      (hreading : classify table false arg = .ok reading) (hrest : Reads rest rs) :
      Reads (arg :: rest) ((arg, reading) :: rs)

theorem isLive_cons {arg : String} (rest : List String) (h : arg ≠ separator) :
    isLive (arg :: rest) = (!isAmbiguous arg && isLive rest) := by
  simp [isLive, h]

theorem isLive_separator (rest : List String) : isLive (separator :: rest) = true := by
  simp [isLive]

/-- An argument is ambiguous, or is read in one way. -/
theorem classify_cases (arg : String) :
    (isAmbiguous arg = true ∧ ∃ f, classify table false arg = .error f) ∨
      (isAmbiguous arg = false ∧ ∃ reading, classify table false arg = .ok reading) := by
  cases hamb : isAmbiguous arg with
  | true => exact .inl ⟨rfl, classify_ambiguous hamb⟩
  | false =>
    refine .inr ⟨rfl, ?_⟩
    rcases StartupOption.mention?_cases arg with hnone | ⟨o, attached, hmention⟩
    · exact ⟨_, classify_other hamb hnone⟩
    · obtain ⟨s, hs, _⟩ := classify_mention hmention
      exact ⟨_, hs⟩

/-- One ambiguous argument before the separator spoils a list, and nothing else does. -/
theorem classifyAll_cases (args : List String) :
    (isLive args = false ∧ ∃ f, classifyAll table false args = .error f) ∨
      (isLive args = true ∧ ∃ rs, classifyAll table false args = .ok rs ∧ Reads args rs) := by
  induction args with
  | nil => exact .inr ⟨rfl, [], rfl, .nil⟩
  | cons arg rest ih =>
    by_cases hsep : arg = separator
    · subst hsep
      exact .inr ⟨isLive_separator rest, _, by simp [classifyAll], .separator rest⟩
    · rw [isLive_cons rest hsep]
      rcases classify_cases arg with ⟨hamb, f, hf⟩ | ⟨hamb, reading, hreading⟩
      · refine .inl ⟨by simp [hamb], f, ?_⟩
        simp [classifyAll, hsep, hf, bind, Except.bind]
      · rcases ih with ⟨hlive, f, hf⟩ | ⟨hlive, rs, hrs, hreads⟩
        · refine .inl ⟨by simp [hlive], f, ?_⟩
          simp [classifyAll, hsep, hreading, hf, bind, Except.bind]
        · refine .inr ⟨by simp [hamb, hlive], (arg, reading) :: rs, ?_, .cons hsep hreading hreads⟩
          simp [classifyAll, hsep, hreading, hrs, bind, Except.bind, pure, Except.pure]

theorem Reads.isLive {args : List String} {rs : List (String × Reading StartupOption)}
    (h : Reads args rs) : isLive args = true := by
  induction h with
  | nil => rfl
  | separator rest => exact isLive_separator rest
  | @cons arg reading rest rs hsep hreading _ ih =>
    rw [isLive_cons rest hsep, ih]
    rcases classify_cases arg with ⟨_, f, hf⟩ | ⟨hamb, _⟩
    · rw [hf] at hreading
      cases hreading
    · simp [hamb]

/-! ## Readings of single arguments -/

def isOption (o : StartupOption) (f : OptionForm StartupOption) : Bool := f.meaning == o

@[simp] theorem isOption_form (o o' : StartupOption) : isOption o o'.form = (o' == o) := rfl

/-- An argument is read as an option exactly if it is a mention of it. -/
theorem classify_reading {arg : String} {reading : Reading StartupOption}
    (h : classify table false arg = .ok reading) (o : StartupOption) :
    (∃ s, reading = .option s ∧ s.option = o.form ∧ o.mention? arg = some s.attached) ∨
      (o.mention? arg = none ∧ ∀ s, reading = .option s → isOption o s.option = false) := by
  cases hmention : o.mention? arg with
  | some attached =>
    obtain ⟨s, hs, hform, hatt⟩ := classify_mention hmention
    rw [hs] at h
    cases h
    exact .inl ⟨s, rfl, hform, by rw [hatt]⟩
  | none =>
    refine .inr ⟨rfl, ?_⟩
    rintro s rfl
    rcases StartupOption.mention?_cases arg with hnone | ⟨o', attached, hother⟩
    · rcases classify_cases arg with ⟨_, f, hf⟩ | ⟨hamb, _⟩
      · rw [hf] at h
        cases h
      · rw [classify_other hamb hnone] at h
        injection h with h
        split at h <;> cases h
    · obtain ⟨s', hs', hform, _⟩ := classify_mention hother
      rw [hs'] at h
      cases h
      have hne : o' ≠ o := by
        rintro rfl
        rw [hmention] at hother
        cases hother
      simp [hform, hne]

/-- The arguments that are read as values are the value-like ones. -/
theorem isPlain_eq_isValueLike {arg : String} {reading : Reading StartupOption}
    (h : classify table false arg = .ok reading) : reading.isPlain = isValueLike arg := by
  rcases StartupOption.mention?_cases arg with hnone | ⟨o, attached, hmention⟩
  · rcases classify_cases arg with ⟨_, f, hf⟩ | ⟨hamb, _⟩
    · rw [hf] at h
      cases h
    · rw [classify_other hamb hnone] at h
      injection h with h
      subst h
      cases isValueLike arg <;> rfl
  · obtain ⟨s, hs, _⟩ := classify_mention hmention
    rw [hs] at h
    cases h
    rw [isValueLike_of_mention hmention]
    rfl

theorem mention?_of_ambiguous {o : StartupOption} {arg : String} (h : isAmbiguous arg = true) :
    o.mention? arg = none := by
  by_contra hmention
  obtain ⟨attached, hmention⟩ := Option.ne_none_iff_exists'.mp hmention
  obtain ⟨s, hs, _⟩ := classify_mention hmention
  obtain ⟨f, hf⟩ := classify_ambiguous h
  rw [hs] at hf
  cases hf

theorem mention?_separator (o : StartupOption) : o.mention? separator = none := by
  cases o <;> decide

theorem Reads.head?_following {args : List String} {rs : List (String × Reading StartupOption)}
    (h : Reads args rs) : (following rs).head? = following? args := by
  cases h with
  | nil => rfl
  | separator rest =>
    rw [Options.following_cons]
    simp only [following?, Reading.isPlain, List.head?_cons, Option.filter_some,
      isValueLike_separator]
    rfl
  | cons hsep hreading hrest =>
    rw [Options.following_cons, isPlain_eq_isValueLike hreading]
    unfold following?
    simp only [List.head?_cons, Option.filter_some]
    split <;> rfl

/-! ## What one reading finds -/

theorem watched (o : StartupOption) : Watched table (isOption o) where
  takesValues := by
    intro f hf _
    obtain ⟨o', rfl⟩ := eq_form_of_mem_table hf
    cases o' <;> decide
  noLetter := by
    intro c f hf
    obtain ⟨hmem, hs⟩ := Options.find?_eq_some hf
    obtain ⟨o', rfl⟩ := eq_form_of_mem_table hmem
    exact (StartupOption.not_mem_spellings_of_short le_rfl hs).elim

/-- One of the two things that are located: what the values of its option say, and what an argument
with those after it says by itself. -/
structure Channel (β : Type) where
  option : StartupOption
  get : StartupOptions → β
  valueOf : List String → β
  give? : String → List String → Option β
  get_apply : ∀ found o,
    get (apply found o) = if isOption option o.option then valueOf o.values else get found
  /-- This holds for every table that lets the option take its values. -/
  give?_mention : ∀ {α : Type} (arg : String) (rest : List String) (rs : List (String × Reading α))
    (s : Spelled α), s.option.arity = option.arity → option.mention? arg = some s.attached →
    (following rs).head? = following? rest →
    (s.occurrence? rs).map (fun o => valueOf o.values) = give? arg rest
  give?_none : ∀ arg rest, option.mention? arg = none → give? arg rest = none
  /-- A word that is no truth word changes nothing, if no value is needed. -/
  give?_word : ∀ arg word rest value, Truth.ofWord? word = none → give? arg [] = some value →
    give? arg (word :: rest) = some value

namespace Channel

variable {β : Type} (c : Channel β)

theorem get_foldl_apply (found : StartupOptions) (os : List (Occurrence StartupOption)) :
    c.get (os.foldl apply found) =
      ((os.filter fun o => isOption c.option o.option).map fun o => c.valueOf o.values).getLastD
        (c.get found) := by
  induction os generalizing found with
  | nil => rfl
  | cons o rest ih =>
    rw [List.foldl_cons, ih, c.get_apply, List.filter_cons]
    split
    · rw [List.map_cons, List.getLastD_cons]
    · rfl

/-- The mentions among some readings are that of the first argument and those of the others. -/
theorem map_mentions_cons {arg : String} {reading : Reading StartupOption} {rest : List String}
    {rs : List (String × Reading StartupOption)} (hreading : classify table false arg = .ok reading)
    (hrest : Reads rest rs) :
    (mentions (isOption c.option) ((arg, reading) :: rs)).map (fun o => c.valueOf o.values) =
      (c.give? arg rest).toList ++
        (mentions (isOption c.option) rs).map (fun o => c.valueOf o.values) := by
  rcases classify_reading hreading c.option with ⟨s, rfl, hform, hmention⟩ | ⟨hmention, hother⟩
  · have hvalue := c.give?_mention arg rest rs s (by rw [hform]; rfl) hmention hrest.head?_following
    have hs : isOption c.option s.option = true := by simp [hform]
    rw [mentions, if_pos hs, List.map_append, ← Option.toList_map, hvalue]
  · rw [c.give?_none arg rest hmention, Options.mentions_cons_of_other rs hother]
    rfl

theorem mentions_separator (rest : List String) : mentions (isOption c.option)
    ((separator, .separator) :: rest.map fun r => (r, Reading.plain)) = [] := by
  have hplain : mentions (isOption c.option) (rest.map fun r => (r, Reading.plain)) = [] := by
    induction rest with
    | nil => rfl
    | cons r rest ih => exact ih
  exact hplain

/-- A reading finds live occurrences only, in their order. -/
theorem mentions_prefix_given {args : List String} {rs : List (String × Reading StartupOption)}
    (h : Reads args rs) :
    (mentions (isOption c.option) rs).map (fun o => c.valueOf o.values) <+: given c.give? args := by
  induction h with
  | nil => exact List.prefix_rfl
  | separator rest =>
    rw [c.mentions_separator rest]
    exact List.nil_prefix
  | cons hsep hreading hrest ih =>
    rw [given, if_pos hrest.isLive, c.map_mentions_cons hreading hrest]
    exact (List.prefix_append_right_inj _).mpr ih

/-- What one reading changes if there is nothing to be found behind its first argument. -/
theorem get_pass {arg : String} {rest : List String} (found : StartupOptions)
    (hrest : given c.give? rest = []) :
    c.get (pass found (arg :: rest)) = (given c.give? (arg :: rest)).getLastD (c.get found) := by
  rw [given, hrest, List.append_nil]
  unfold pass Options.scan
  rcases classifyAll_cases (arg :: rest) with ⟨hlive, f, hf⟩ | ⟨_, rs, hrs, hreads⟩
  · rw [hf]
    -- an ambiguous first argument gives nothing, any other one is not live
    have hgive : (if isLive rest then (c.give? arg rest).toList else []) = [] := by
      by_cases hsep : arg = separator
      · subst hsep
        rw [isLive_separator] at hlive
        cases hlive
      · rw [isLive_cons rest hsep] at hlive
        cases hamb : isAmbiguous arg with
        | true => simp [c.give?_none arg rest (mention?_of_ambiguous hamb)]
        | false => simp [hamb] at hlive; simp [hlive]
    rw [hgive]
    rfl
  · have htable := Options.fromTable_of_classifyAll hrs
    rw [hrs]
    show c.get ((collect table rs).occurrences.foldl apply found) = _
    rw [c.get_foldl_apply]
    show (((collect table rs).ofKind (isOption c.option)).map fun o =>
      c.valueOf o.values).getLastD _ = _
    cases hreads with
    | separator rest =>
      have hnone := Options.collect_prefix (watched c.option) htable
      rw [c.mentions_separator rest] at hnone
      rw [List.prefix_nil.mp hnone, c.give?_none separator rest (mention?_separator _)]
      simp
    | @cons _ reading _ rs hsep hreading hreads' =>
      have hlater : mentions (isOption c.option) rs = [] := by
        have hprefix := c.mentions_prefix_given hreads'
        rw [hrest] at hprefix
        exact List.map_eq_nil_iff.mp (List.prefix_nil.mp hprefix)
      rw [Options.collect_cons_eq_mentions (watched c.option) htable hlater,
        c.map_mentions_cons hreading hreads', hlater, if_pos hreads'.isLive, List.map_nil,
        List.append_nil]

/-- After all readings, what the last live occurrence says. -/
theorem get_passes (found : StartupOptions) (args : List String) :
    c.get (passes found args) = (given c.give? args).getLastD (c.get found) := by
  induction args generalizing found with
  | nil => rfl
  | cons arg rest ih =>
    rw [passes, ih]
    -- what this reading finds matters only if the later ones find nothing
    cases hrest : given c.give? rest with
    | nil => rw [c.get_pass found hrest, List.getLastD_nil]
    | cons v vs =>
      rw [given, hrest, List.getLastD_eq_getLast?, List.getLastD_eq_getLast?,
        List.getLast?_append_of_ne_nil _ (List.cons_ne_nil v vs)]
      rw [List.getLast?_eq_some_getLast (List.cons_ne_nil v vs)]
      rfl

end Channel

/-! ## The path and the switch -/

/-- The path of the settings file. -/
def pathChannel : Channel String where
  option := .configFile
  get := StartupOptions.configFile
  valueOf values := values.headD ""
  give? := givenPath?
  get_apply := by
    rintro found ⟨⟨spellings, arity, meaning⟩, values⟩
    cases meaning <;> rfl
  give?_mention := by
    intro _ arg rest rs s harity hmention hfollowing
    unfold givenPath? Spelled.occurrence?
    rw [hmention]
    cases s.attached with
    | some value =>
      by_cases hsep : value = separator <;> simp [attachedValues, hsep]
    | none =>
      rw [harity, ← hfollowing]
      cases following rs with
      | nil => rfl
      | cons v vs => simp [StartupOption.arity, valueCount]
  give?_none := by
    intro arg rest h
    simp [givenPath?, h]
  give?_word := by
    intro arg word rest value _ hvalue
    unfold givenPath? at hvalue ⊢
    cases hmention : StartupOption.mention? .configFile arg with
    | none => simp [hmention] at hvalue
    | some attached =>
      rw [hmention] at hvalue
      cases attached with
      | none => simp [following?] at hvalue
      | some v => exact hvalue

/-- The switch for placeholders. -/
def switchChannel : Channel Bool where
  option := .expandEnv
  get := StartupOptions.expandEnv
  valueOf values := switchState values.head?
  give? := givenSwitch?
  get_apply := by
    rintro found ⟨⟨spellings, arity, meaning⟩, values⟩
    cases meaning
    · rfl
    · cases values <;> rfl
  give?_mention := by
    intro _ arg rest rs s harity hmention hfollowing
    unfold givenSwitch? Spelled.occurrence?
    rw [hmention]
    cases s.attached with
    | some value =>
      by_cases hsep : value = separator
      · subst hsep
        rfl
      · simp [attachedValues, hsep]
    | none =>
      rw [harity, ← hfollowing]
      cases following rs with
      | nil => rfl
      | cons v vs => simp [StartupOption.arity, valueCount]
  give?_none := by
    intro arg rest h
    simp [givenSwitch?, h]
  give?_word := by
    intro arg word rest value hword hvalue
    unfold givenSwitch? at hvalue ⊢
    cases hmention : StartupOption.mention? .expandEnv arg with
    | none => simp [hmention] at hvalue
    | some attached =>
      rw [hmention] at hvalue
      cases attached with
      | some v => exact hvalue
      | none =>
        rw [← hvalue]
        cases hlike : isValueLike word <;>
          simp [following?, Option.filter, hlike, switchState, hword]

theorem locate_configFile (args : List String) :
    (locate args).configFile = (givenPaths args).getLastD "" :=
  pathChannel.get_passes ⟨"", false⟩ args

theorem locate_expandEnv (args : List String) :
    (locate args).expandEnv = (givenSwitches args).getLastD false :=
  switchChannel.get_passes ⟨"", false⟩ args

/-- **The last live occurrence counts.** The path that is located is that of the last live
occurrence of its option that has one, and the switch is that of the last live occurrence of its
option; the readings of all suffixes together make no difference to this rule. -/
theorem locate_eq_last_live (args : List String) :
    locate args = ⟨(givenPaths args).getLastD "", (givenSwitches args).getLastD false⟩ := by
  rw [← locate_configFile, ← locate_expandEnv]

-- an ambiguous argument follows the first path before the separator, and none follows the second
example : (locate ["--config.file=a", "-c", "--", "-config.fi", "b"]).configFile = "b" := by
  decide +kernel

end BootConfig.Locator
