import BootConfig.Proofs.Locator.FullTable
import BootConfig.Proofs.Locator.LastOccurrence
import BootConfig.Proofs.Options.Accepted

/-!
# The locator and the full command line

The full command line reads the startup options once more and ignores them, because they have been
located before. What it binds to them is what is located, but for one thing: it accepts shortened
spellings with two hyphens, and the locator passes over these.

* `bound`: what the full command line binds to the startup options.
* `lastInFull`: the last occurrence of an option is none of these shortened spellings.
-/

namespace BootConfig.Locator

open Options (Assignments CommandLine Complete Occurrence OptionMeaning Reading Spelled
  attachedValues classify collect following mentions separator startsWith)

/-! ## What the command line binds -/

/-- The value that the full command line binds to a startup option: that of its last occurrence. -/
def bound? (o : StartupOption) (args : List String) : Option Value :=
  match Options.scan fullTable true args with
  | .error _ => none
  | .ok s => (s.ofKind (isStartup o)).getLast?.bind fun f => (CommandLine.valueOf f).toOption

/-- The path that a value of the option for the settings file is: empty if it is no text. -/
def asPath : Option Value → String
  | some (.scalar (.text t)) => t.toString?.getD ""
  | _ => ""

/-- The state that a value of the switch for placeholders is: off if there is none. -/
def asSwitch : Option Value → Bool
  | some (.scalar (.bool b)) => b
  | _ => false

def bound (args : List String) : StartupOptions :=
  ⟨asPath (bound? .configFile args), asSwitch (bound? .expandEnv args)⟩

/-- Whether the last argument that is a startup option once it is written out stands there written
out. -/
def lastInFull (o : StartupOption) (args : List String) : Bool :=
  (args.filter fun arg => (o.mention? (writtenOut arg)).isSome).getLast?.all fun arg =>
    writtenOut arg == arg

/-! ## Truth words -/

theorem trimBoth_cons {α : Type} {p : α → Bool} {c : α} (cs : List α) (h : p c = false) :
    ∃ rest, Blank.trimBoth p (c :: cs) = c :: rest := by
  have hback : ∃ kept, (cs.reverse ++ [c]).dropWhile p = kept ++ [c] := by
    rw [List.dropWhile_append]
    split
    · exact ⟨[], by simp [h]⟩
    · exact ⟨cs.reverse.dropWhile p, rfl⟩
  obtain ⟨kept, hkept⟩ := hback
  refine ⟨kept.reverse, ?_⟩
  simp [Blank.trimBoth, h, hkept]

/-- No truth word starts with a hyphen, whatever blanks are around it. -/
theorem ofWord?_of_hyphen {s : String} (h : startsWith s "-" = true) : Truth.ofWord? s = none := by
  obtain ⟨rest, hs⟩ := Options.startsWith_iff.mp h
  have hpoints : (Text.ofString s).points = CodePoint.ofChar '-' :: rest.map CodePoint.ofChar := by
    rw [Text.ofString, ← hs]
    rfl
  obtain ⟨kept, hkept⟩ := trimBoth_cons (rest.map CodePoint.ofChar)
    (show Blank.isBlank (CodePoint.ofChar '-') = false by decide)
  have hlower : (Text.ofString s).trim.toLower.points =
      CodePoint.ofChar '-' :: Case.lowerFrom [CodePoint.ofChar '-'] kept := by
    rw [Text.toLower, Text.trim, hpoints, hkept]
    rfl
  unfold Truth.ofWord? Text.toString? Text.toChars?
  rw [hlower, List.mapM_cons, CodePoint.toChar?_ofChar]
  cases (Case.lowerFrom [CodePoint.ofChar '-'] kept).mapM CodePoint.toChar? with
  | none => rfl
  | some more =>
    have hheads : ∀ w ∈ ["1", "t", "true", "yes", "on"] ++ ["0", "f", "false", "no", "off"],
        w.toList.head? ≠ some '-' := by decide
    have hword : String.ofList ('-' :: more) ∉
        ["1", "t", "true", "yes", "on"] ++ ["0", "f", "false", "no", "off"] :=
      fun hmem => hheads _ hmem (by simp)
    rw [List.mem_append, not_or] at hword
    show (if _ then _ else if _ then _ else _) = none
    rw [if_neg (by simpa using hword.1), if_neg (by simpa using hword.2)]

/-! ## Mentions on the full command line -/

theorem watched_fullTable (o : StartupOption) : Options.Watched fullTable (isStartup o) where
  takesValues := by
    intro f hf hs
    rw [eq_entry_of_isStartup hf hs]
    cases o <;> decide
  noLetter := by
    intro c f hf
    obtain ⟨hmem, hspelled⟩ := Options.find?_eq_some hf
    by_contra hs
    rw [eq_entry_of_isStartup hmem (eq_true_of_ne_false hs)] at hspelled
    exact StartupOption.not_mem_spellings_of_short le_rfl (mem_entry_spellings.mp hspelled)

abbrev Readings (args : List String) (rs : List (String × Reading OptionMeaning)) : Prop :=
  List.Forall₂ (fun arg r => r.1 = arg ∧ classify fullTable true arg = .ok r.2) args rs

section

variable {f : String → String} (hf : ∀ arg, f arg = arg ∨ f arg = writtenOut arg)
  {args : List String} {rs : List (String × Reading OptionMeaning)}

include hf

theorem Readings.isLive (h : Readings args rs) : isLive (args.map f) = true := by
  have hnone : ∀ arg ∈ args.map f, isAmbiguous arg = false := by
    induction h with
    | nil => intro arg harg; cases harg
    | @cons arg r _ _ hr _ ih =>
      have hhead : isAmbiguous (f arg) = false := by
        have hout := not_ambiguous_of_classify hr.2
        rcases hf arg with hf | hf
        · rw [hf]
          by_contra hamb
          rw [writtenOut_of_ambiguous (eq_true_of_ne_false hamb)] at hout
          exact hamb hout
        · rw [hf, hout]
      exact List.forall_mem_cons.mpr ⟨hhead, ih⟩
  refine List.all_eq_true.mpr fun arg harg => ?_
  simp [hnone arg (List.takeWhile_subset _ harg)]

/-- The value that follows is the same for the locator, or the locator takes an option for it, which
says nothing about a switch. -/
theorem Readings.head?_following (h : Readings args rs)
    (hrs : ∀ r ∈ rs, r.2.isPlain = true ∨ ∃ s, r.2 = .option s) :
    (following rs).head? = following? (args.map f) ∨
      (following rs = [] ∧ ∃ v rest, args.map f = v :: rest ∧ Truth.ofWord? v = none) := by
  cases h with
  | nil => exact .inl rfl
  | @cons arg r rest rs' hr hrest =>
    obtain ⟨name, reading⟩ := r
    obtain ⟨hname, hreading⟩ := hr
    obtain rfl : name = arg := hname
    have hreading : classify fullTable true name = .ok reading := hreading
    rw [Options.following_cons]
    rcases hrs _ List.mem_cons_self with hplain | ⟨s, rfl⟩
    · have hclass : reading = .plain := by
        cases reading <;> simp [Reading.isPlain] at hplain ⊢
      subst hclass
      obtain ⟨hout, hvalue⟩ := classify_plain hreading
      have hsame : f name = name := (hf name).elim id fun h => h.trans hout
      refine .inl ?_
      simp [Reading.isPlain, following?, hsame, Option.filter, hvalue]
    · refine .inr ⟨rfl, f name, rest.map f, rfl, ofWord?_of_hyphen ?_⟩
      -- written out or not, an option has a hyphen in front
      have hhyphen := (Options.classify_eq_option hreading).1
      rcases hf name with hsame | hsame
      · rw [hsame, hhyphen]
      · rw [hsame]
        rcases writtenOut_cases name with ⟨o, attached, _, _, _, hout⟩ | ⟨hout, -⟩
        · rw [hout]
          exact StartupOption.startsWith_of_mention?
            (StartupOption.mention?_joined attached (full_mem_spellings o))
        · rw [hout, hhyphen]

/-- A startup option with its values on the full command line gives the locator these values. -/
theorem Channel.give?_of_occurrence {β : Type} (c : Channel β) (h : Readings args rs)
    (hrs : ∀ r ∈ rs, r.2.isPlain = true ∨ ∃ s, r.2 = .option s) {s : Spelled OptionMeaning}
    {o : Occurrence OptionMeaning} {arg : String} (hentry : s.option = c.option.entry)
    (hmention : c.option.mention? arg = some s.attached) (ho : s.occurrence? rs = some o) :
    c.give? arg (args.map f) = some (c.valueOf o.values) := by
  have harity : s.option.arity = c.option.arity := by
    rw [hentry]
    cases c.option <;> rfl
  rcases h.head?_following hf hrs with hnext | ⟨hnone, word, others, hword, hno⟩
  · rw [← c.give?_mention _ _ rs s harity hmention hnext, ho]
    rfl
  · rw [hword]
    refine c.give?_word _ word others _ hno ?_
    rw [← c.give?_mention _ [] rs s harity hmention (by rw [hnone]; rfl), ho]
    rfl

end

/-- The arguments give to the locator, once they are written out, what stands in the mentions on the
full command line. The induction is on the arguments; each has the same part in both lists. -/
theorem Channel.given_writtenOut {β : Type} (c : Channel β) {args : List String}
    {rs : List (String × Reading OptionMeaning)} (h : Readings args rs)
    (hrs : ∀ r ∈ rs, r.2.isPlain = true ∨ ∃ s, r.2 = .option s)
    (hcomplete : Complete (isStartup c.option) rs) :
    given c.give? (args.map writtenOut) =
      (mentions (isStartup c.option) rs).map fun o => c.valueOf o.values := by
  induction h with
  | nil => rfl
  | @cons arg r rest rs hr hrest ih =>
    obtain ⟨name, reading⟩ := r
    have hreading : classify fullTable true arg = .ok reading := hr.2
    have hrs' := fun r hr => hrs r (List.mem_cons_of_mem _ hr)
    have ih := ih hrs' hcomplete.tail
    have hlive : Locator.isLive (rest.map writtenOut) = true :=
      Readings.isLive (fun _ => .inr rfl) hrest
    rw [List.map_cons, given, if_pos hlive, ih]
    rcases classify_startup hreading c.option with ⟨s, rfl, hentry, hmention⟩ | ⟨hmention, hother⟩
    · have hs : isStartup c.option s.option = true := isStartup_of_eq_entry hentry
      obtain ⟨o, ho⟩ := Option.isSome_iff_exists.mp (hcomplete.1 hs)
      rw [c.give?_of_occurrence (fun _ => .inr rfl) hrest hrs' hentry hmention ho, mentions,
        if_pos hs, ho]
      rfl
    · rw [c.give?_none _ _ hmention, Options.mentions_cons_of_other rs hother]
      rfl

/-! ## The last mention -/

theorem mention?_of_writtenOut_eq_none {o : StartupOption} {arg : String}
    (h : o.mention? (writtenOut arg) = none) : o.mention? arg = none := by
  cases hmention : o.mention? arg with
  | none => rfl
  | some attached =>
    rw [writtenOut_of_mention? hmention, hmention] at h
    cases h

/-- Where no argument is the option once it is written out, nothing is given, whether the arguments
are written out or not. -/
theorem Channel.given_eq_nil {β : Type} (c : Channel β) {f : String → String}
    (hf : ∀ arg, f arg = arg ∨ f arg = writtenOut arg) {args : List String}
    (h : ∀ arg ∈ args, c.option.mention? (writtenOut arg) = none) :
    given c.give? (args.map f) = [] := by
  induction args with
  | nil => rfl
  | cons arg rest ih =>
    have hnone : c.option.mention? (f arg) = none := by
      have hout := h arg List.mem_cons_self
      rcases hf arg with hf | hf
      · rw [hf, mention?_of_writtenOut_eq_none hout]
      · rw [hf, hout]
    rw [List.map_cons, given, ih fun arg harg => h arg (List.mem_cons_of_mem _ harg),
      c.give?_none _ _ hnone]
    simp

/-- Every mention in a complete list gives something. -/
theorem Channel.mention?_of_given_eq_nil {β : Type} (c : Channel β) {args : List String}
    {rs : List (String × Reading OptionMeaning)} (h : Readings args rs)
    (hrs : ∀ r ∈ rs, r.2.isPlain = true ∨ ∃ s, r.2 = .option s)
    (hcomplete : Complete (isStartup c.option) rs)
    (hnil : given c.give? (args.map writtenOut) = []) :
    ∀ arg ∈ args, c.option.mention? (writtenOut arg) = none := by
  induction h with
  | nil => intro arg harg; cases harg
  | @cons arg r rest rs hr hrest ih =>
    obtain ⟨name, reading⟩ := r
    have hreading : classify fullTable true arg = .ok reading := hr.2
    have hrs' := fun r hr => hrs r (List.mem_cons_of_mem _ hr)
    rw [List.map_cons, given, if_pos (Readings.isLive (fun _ => .inr rfl) hrest)] at hnil
    obtain ⟨hhead, hnil⟩ := List.append_eq_nil_iff.mp hnil
    refine List.forall_mem_cons.mpr ⟨?_, ih hrs' hcomplete.tail hnil⟩
    rcases classify_startup hreading c.option with ⟨s, rfl, hentry, hmention⟩ | ⟨hmention, _⟩
    · obtain ⟨o, ho⟩ := Option.isSome_iff_exists.mp (hcomplete.1 (isStartup_of_eq_entry hentry))
      rw [c.give?_of_occurrence (fun _ => .inr rfl) hrest hrs' hentry hmention ho] at hhead
      cases hhead
    · exact hmention

/-- If the last mention is written out as it stands, the arguments end with the same gift whether
they are written out or not. The induction is on the arguments: the first one counts only if no
later one is a mention. -/
theorem Channel.getLast?_given {β : Type} (c : Channel β) {args : List String}
    {rs : List (String × Reading OptionMeaning)} (h : Readings args rs)
    (hrs : ∀ r ∈ rs, r.2.isPlain = true ∨ ∃ s, r.2 = .option s)
    (hcomplete : Complete (isStartup c.option) rs) (hlast : lastInFull c.option args = true) :
    (given c.give? args).getLast? = (given c.give? (args.map writtenOut)).getLast? := by
  induction h with
  | nil => rfl
  | @cons arg r rest rs hr hrest ih =>
    obtain ⟨name, reading⟩ := r
    have hreading : classify fullTable true arg = .ok reading := hr.2
    have hrs' := fun r hr => hrs r (List.mem_cons_of_mem _ hr)
    have hlive : Locator.isLive (rest.map id) = true :=
      Readings.isLive (fun _ => .inl rfl) hrest
    have hlive' : Locator.isLive (rest.map writtenOut) = true :=
      Readings.isLive (fun _ => .inr rfl) hrest
    rw [List.map_id] at hlive
    rw [List.map_cons, given, given, if_pos hlive, if_pos hlive', List.getLast?_append,
      List.getLast?_append]
    unfold lastInFull at hlast
    rw [List.filter_cons] at hlast
    rcases classify_startup hreading c.option with ⟨s, rfl, hentry, hmention⟩ | ⟨hmention, _⟩
    · obtain ⟨o, ho⟩ := Option.isSome_iff_exists.mp (hcomplete.1 (isStartup_of_eq_entry hentry))
      rw [hmention, Option.isSome_some, if_pos rfl] at hlast
      by_cases hnone : ∀ a ∈ rest, c.option.mention? (writtenOut a) = none
      · have hfilter : rest.filter (fun a => (c.option.mention? (writtenOut a)).isSome) = [] := by
          refine List.filter_eq_nil_iff.mpr fun a ha => ?_
          simp [hnone a ha]
        rw [hfilter] at hlast
        have hfull : writtenOut arg = arg := by simpa using hlast
        have hraw : c.option.mention? arg = some s.attached := by rw [← hfull, hmention]
        have hgive :=
          c.give?_of_occurrence (f := id) (fun _ => .inl rfl) hrest hrs' hentry hraw ho
        have hnil := c.given_eq_nil (f := id) (fun _ => .inl rfl) hnone
        rw [List.map_id] at hgive hnil
        rw [hgive, hnil, c.give?_of_occurrence (fun _ => .inr rfl) hrest hrs' hentry hmention ho,
          c.given_eq_nil (fun _ => .inr rfl) hnone]
      · -- a later mention is the last one, whatever this one is
        have hlater : given c.give? (rest.map writtenOut) ≠ [] := fun hnil =>
          hnone (c.mention?_of_given_eq_nil hrest hrs' hcomplete.tail hnil)
        have hfilter : rest.filter (fun a => (c.option.mention? (writtenOut a)).isSome) ≠ [] := by
          intro hnil
          refine hnone fun a ha => ?_
          simpa using List.filter_eq_nil_iff.mp hnil a ha
        rw [List.getLast?_cons_of_ne_nil hfilter] at hlast
        rw [ih hrs' hcomplete.tail hlast, List.getLast?_eq_some_getLast hlater]
        rfl
    · rw [hmention] at hlast
      rw [c.give?_none _ _ hmention, c.give?_none _ _ (mention?_of_writtenOut_eq_none hmention),
        ih hrs' hcomplete.tail hlast]

/-! ## The values that are bound -/

theorem mention_startup {o : StartupOption} {rs : List (String × Reading OptionMeaning)}
    (hrs : Options.FromTable fullTable rs) {f : Occurrence OptionMeaning}
    (hf : f ∈ mentions (isStartup o) rs) : f.option = o.entry ∧ f.values.length ≤ 1 := by
  obtain ⟨arg, s, rest, hmem, hs, hoccurrence⟩ := Options.mem_mentions hf
  have hentry := eq_entry_of_isStartup (hrs arg s hmem) hs
  refine ⟨by rw [Spelled.occurrence?_option hoccurrence, hentry], ?_⟩
  refine Spelled.length_values_le hoccurrence ?_
  rw [hentry]
  cases o
  · exact .inl rfl
  · exact .inr rfl

theorem asPath_value {f : Occurrence OptionMeaning} (hentry : f.option = Flags.fileOption)
    (hlen : f.values.length ≤ 1) :
    asPath (CommandLine.valueOf f).toOption = f.values.headD "" := by
  obtain ⟨option, values⟩ := f
  subst hentry
  match values, hlen with
  | [], _ => rfl
  | [w], _ =>
    show (Text.ofString w).toString?.getD "" = w
    rw [Text.toString?_ofString]
    rfl

theorem asSwitch_value {f : Occurrence OptionMeaning} {v : Value}
    (hentry : f.option = Flags.expandOption) (hlen : f.values.length ≤ 1)
    (hv : CommandLine.valueOf f = .ok v) :
    asSwitch (CommandLine.valueOf f).toOption = switchState f.values.head? := by
  obtain ⟨option, values⟩ := f
  subst hentry
  match values, hlen with
  | [], _ => rfl
  | [w], _ =>
    -- the conversion fails unless the word is a truth word
    show asSwitch (((Options.Conversion.truth.read w).map Value.scalar).toOption) =
      switchState (some w)
    have hv : (Options.Conversion.truth.read w).map Value.scalar = .ok v := hv
    unfold Options.Conversion.read at hv ⊢
    unfold switchState
    cases hword : Truth.ofWord? w with
    | none => simp [hword, Except.map] at hv
    | some b => simp [hword, Except.map, Except.toOption, asSwitch]

/-- What an accepted argument list is: all its arguments are read by themselves, no option lacks
values, and all values could be read. -/
theorem readings_of_accepts {args : List String}
    (h : Program.fullCommandLine.accepts args = true) :
    ∃ rs, Options.scan fullTable true args = .ok (collect fullTable rs) ∧
      Options.FromTable fullTable rs ∧ Readings args rs ∧
      (∀ r ∈ rs, r.2.isPlain = true ∨ ∃ s, r.2 = .option s) ∧
      (∀ o, Complete (isStartup o) rs) ∧
      (∀ o, (collect fullTable rs).ofKind (isStartup o) = mentions (isStartup o) rs) ∧
      ∀ f ∈ (collect fullTable rs).occurrences, ∃ v, CommandLine.valueOf f = .ok v := by
  obtain ⟨as, has⟩ := CommandLine.accepts_iff.mp h
  obtain ⟨s, hs, hfollow, hfault, hleft⟩ := CommandLine.scan_of_read has
  obtain ⟨rs, hclassify, rfl⟩ := Options.scan_eq_ok hs
  have htable := Options.fromTable_of_classifyAll hclassify
  have hrun := Options.collects fullTable rs
  have hrs := hrun.option_or_plain hfault hleft
  exact ⟨rs, hs, htable, Options.forall₂_of_classifyAll hclassify hrs, hrs,
    fun o => hrun.complete_of_fault_none (watched_fullTable o) htable hfault,
    fun o => Options.collect_eq_mentions (watched_fullTable o) htable hfault,
    CommandLine.follow_converts hfollow⟩

/-- What is located, once the arguments are written out, is what the last occurrence is bound to. -/
theorem Channel.getLastD_given {β : Type} (c : Channel β) {args : List String}
    (h : Program.fullCommandLine.accepts args = true) (bind : Option Value → β)
    (hbind : ∀ f v, f.option = c.option.entry → f.values.length ≤ 1 →
      CommandLine.valueOf f = .ok v → bind (CommandLine.valueOf f).toOption = c.valueOf f.values) :
    (given c.give? (args.map writtenOut)).getLastD (bind none) = bind (bound? c.option args) := by
  obtain ⟨rs, hs, htable, hreadings, hrs, hcomplete, hfound, hconverts⟩ := readings_of_accepts h
  unfold bound?
  rw [hs, c.given_writtenOut hreadings hrs (hcomplete _), List.getLastD_eq_getLast?,
    List.getLast?_map]
  show _ = bind (((collect fullTable rs).ofKind (isStartup c.option)).getLast?.bind _)
  rw [hfound]
  cases hlast : (mentions (isStartup c.option) rs).getLast? with
  | none => rfl
  | some f =>
    have hf : f ∈ mentions (isStartup c.option) rs := List.mem_of_getLast? hlast
    obtain ⟨hentry, hlen⟩ := mention_startup htable hf
    rw [← hfound] at hf
    obtain ⟨v, hv⟩ := hconverts f (List.mem_of_mem_filter hf)
    exact (hbind f v hentry hlen hv).symm

/-! ## Agreement -/

section

variable {args : List String} (h : Program.fullCommandLine.accepts args = true)

include h

theorem locate_writtenOut_configFile :
    (locate (args.map writtenOut)).configFile = (bound args).configFile :=
  (locate_configFile _).trans (pathChannel.getLastD_given h asPath fun _ _ hentry hlen _ =>
    asPath_value hentry hlen)

theorem locate_writtenOut_expandEnv :
    (locate (args.map writtenOut)).expandEnv = (bound args).expandEnv :=
  (locate_expandEnv _).trans (switchChannel.getLastD_given h asSwitch fun _ _ => asSwitch_value)

/-- What the full command line binds to the startup options is what is located once every shortened
spelling with two hyphens is written out. -/
theorem locate_writtenOut : locate (args.map writtenOut) = bound args := by
  have hconfigFile := locate_writtenOut_configFile h
  have hexpandEnv := locate_writtenOut_expandEnv h
  cases hfound : locate (args.map writtenOut) with
  | mk path state =>
    rw [hfound] at hconfigFile hexpandEnv
    exact congrArg₂ StartupOptions.mk hconfigFile hexpandEnv

theorem Channel.getLastD_given_of_lastInFull {β : Type} (c : Channel β) (start : β)
    (hlast : lastInFull c.option args = true) :
    (given c.give? args).getLastD start =
      (given c.give? (args.map writtenOut)).getLastD start := by
  obtain ⟨rs, _, _, hreadings, hrs, hcomplete, _, _⟩ := readings_of_accepts h
  rw [List.getLastD_eq_getLast?, List.getLastD_eq_getLast?,
    c.getLast?_given hreadings hrs (hcomplete _) hlast]

end

/-- **When the locator and the full command line agree.** On arguments that are accepted, the full
command line binds what is located once every shortened spelling with two hyphens is written out. So
the two agree on the arguments as they stand exactly if writing them out changes nothing for the
locator; and they agree on an option whenever its last occurrence is not such a shortened one. -/
theorem locate_eq_bound_iff {args : List String}
    (h : Program.fullCommandLine.accepts args = true) :
    locate (args.map writtenOut) = bound args ∧
      (locate args = bound args ↔ locate (args.map writtenOut) = locate args) ∧
      (lastInFull .configFile args = true → (locate args).configFile = (bound args).configFile) ∧
      (lastInFull .expandEnv args = true → (locate args).expandEnv = (bound args).expandEnv) := by
  have hbound := locate_writtenOut h
  refine ⟨hbound, ?_, fun hlast => ?_, fun hlast => ?_⟩
  · rw [hbound]
    exact eq_comm
  · rw [← hbound, locate_configFile, locate_configFile]
    exact pathChannel.getLastD_given_of_lastInFull h "" hlast
  · rw [← hbound, locate_expandEnv, locate_expandEnv]
    exact switchChannel.getLastD_given_of_lastInFull h false hlast

/-- A shortened spelling before one in full makes no difference. -/
theorem locate_eq_bound_overridden :
    let args := ["--config.fil=a.yaml", "--server.http-listen-port", "80", "-config.file", "b.yaml"]
    Program.fullCommandLine.accepts args = true ∧ lastInFull .configFile args = true ∧
      locate args = bound args ∧ (locate args).configFile = (bound args).configFile := by
  intro args
  have h : Program.fullCommandLine.accepts args = true := by decide +kernel
  have hlast : lastInFull .configFile args = true := by decide +kernel
  obtain ⟨_, hiff, hpath, _⟩ := locate_eq_bound_iff h
  exact ⟨h, hlast, hiff.mpr (by decide +kernel), hpath hlast⟩

/-- A path behind a shortened spelling is accepted and not located. -/
theorem locate_passes_over_shortened :
    Program.fullCommandLine.accepts ["--config.fil=cfg.yaml"] = true ∧
      (bound ["--config.fil=cfg.yaml"]).configFile = "cfg.yaml" ∧
      (locate ["--config.fil=cfg.yaml"]).configFile = "" := by
  refine ⟨?_, ?_, ?_⟩ <;> decide +kernel

end BootConfig.Locator
