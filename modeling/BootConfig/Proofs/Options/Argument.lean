import BootConfig.Options.Grammar
import Mathlib.Data.List.Infix
import Mathlib.Data.List.TakeWhile

/-!
# Single arguments

What the parts of `classify` say about the text of an argument: what it starts with, where its first
equals sign is, and which spellings it can be short for.
-/

namespace BootConfig.Options

variable {α : Type} {table : Table α}

/-! ## Starts of texts -/

theorem startsWith_iff {s start : String} :
    startsWith s start = true ↔ start.toList <+: s.toList :=
  List.isPrefixOf_iff_prefix

theorem startsWith_append (s t : String) : startsWith (s ++ t) s = true := by
  rw [startsWith_iff, String.toList_append]
  exact List.prefix_append _ _

theorem startsWith_trans {s t u : String} (h : startsWith s t = true) (h' : startsWith t u = true) :
    startsWith s u = true := by
  rw [startsWith_iff] at *
  exact h'.trans h

/-- The texts that a text starts with. They can be gone through, which shows what a shortened
spelling may be. -/
def starts (s : String) : List String := s.toList.inits.map String.ofList

theorem mem_starts {s start : String} : start ∈ starts s ↔ startsWith s start = true := by
  rw [startsWith_iff, starts, List.mem_map]
  constructor
  · rintro ⟨l, hl, rfl⟩
    rw [String.toList_ofList]
    exact (List.mem_inits _ _).mp hl
  · intro h
    exact ⟨start.toList, (List.mem_inits _ _).mpr h, String.ofList_toList⟩

/-! ## The first equals sign -/

theorem cutAtEquals_eq_some_iff {arg start value : String} :
    cutAtEquals arg = some (start, value) ↔ '=' ∉ start.toList ∧ arg = start ++ "=" ++ value := by
  have hcut : arg.toList.takeWhile (· != '=') ++ arg.toList.dropWhile (· != '=') = arg.toList :=
    List.takeWhile_append_dropWhile
  constructor
  · -- what is left from the cut on starts with the character that ended the first part
    intro h
    simp only [cutAtEquals] at h
    split at h
    · cases h
    · rename_i c rest hdrop
      cases h
      have hc : c = '=' := by
        have hhead := List.head?_dropWhile_not (fun x => x != '=') arg.toList
        simpa [hdrop] using hhead
      subst hc
      refine ⟨?_, ?_⟩
      · rw [String.toList_ofList]
        intro hmem
        simpa using List.mem_takeWhile_imp hmem
      · rw [← String.toList_inj]
        calc arg.toList
            = arg.toList.takeWhile (· != '=') ++ '=' :: rest := by rw [← hdrop, hcut]
          _ = _ := by simp
  · rintro ⟨hstart, rfl⟩
    have htake : ∀ c ∈ start.toList, (c != '=') = true := by
      intro c hc
      exact bne_iff_ne.mpr fun h => hstart (h ▸ hc)
    simp only [cutAtEquals, String.toList_append, List.append_assoc]
    rw [List.dropWhile_append_of_pos htake, List.takeWhile_append_of_pos htake]
    simp [String.ofList_toList]

theorem cutAtEquals_append {start : String} (value : String) (h : '=' ∉ start.toList) :
    cutAtEquals (start ++ "=" ++ value) = some (start, value) :=
  cutAtEquals_eq_some_iff.mpr ⟨h, rfl⟩

/-! ## Options by their spellings -/

theorem find?_eq_some {arg : String} {o : OptionForm α} (h : find? table arg = some o) :
    o ∈ table ∧ arg ∈ o.spellings := by
  refine ⟨List.mem_of_find?_eq_some h, ?_⟩
  simpa using List.find?_some h

theorem find?_eq_none_iff {arg : String} :
    find? table arg = none ↔ ∀ o ∈ table, arg ∉ o.spellings := by
  simp [find?]

theorem mem_spellings {s : String} {o : OptionForm α} :
    (s, o) ∈ spellings table ↔ o ∈ table ∧ s ∈ o.spellings := by
  simp only [spellings, List.mem_flatMap, List.mem_map, Prod.mk.injEq]
  constructor
  · rintro ⟨o', ho', s', hs', rfl, rfl⟩
    exact ⟨ho', hs'⟩
  · rintro ⟨ho, hs⟩
    exact ⟨o, ho, s, hs, rfl, rfl⟩

/-! ## What an argument is -/

/-- The option that an argument spells in full, possibly with a value attached to it. -/
def named? (table : Table α) (arg : String) : Option (Spelled α) :=
  match find? table arg with
  | some o => some ⟨o, arg, none⟩
  | none => (cutAtEquals arg).bind fun p =>
      (find? table p.1).map fun o => ⟨o, p.1, some p.2⟩

/-- What an argument is, with the spellings in full taken together. -/
theorem classify_eq (table : Table α) (abbreviations : Bool) (arg : String) :
    classify table abbreviations arg =
      if !startsWith arg "-" then .ok .plain
      else match named? table arg with
        | some s => .ok (.option s)
        | none =>
          if arg == "-" then .ok .plain
          else match candidates table abbreviations arg with
            | [s] => .ok (.option s)
            | [] =>
              if isNegativeNumber arg || arg.toList.contains ' ' then .ok .plain else .ok .unknown
            | several => .error (.ambiguous arg (several.map Spelled.spelling)) := by
  unfold classify named?
  split
  · rfl
  · cases hfind : find? table arg with
    | some o => rfl
    | none =>
      -- a lone hyphen is looked at before the equals sign in one form and after it in the other,
      -- but it holds none
      by_cases hdash : arg = "-"
      · subst hdash
        have hcut : cutAtEquals "-" = none := rfl
        simp [hcut]
      · have hne : ¬(arg == "-") = true := by simpa using hdash
        refine (if_neg hne).trans ?_
        cases (cutAtEquals arg).bind fun p => (find? table p.1).map fun o =>
            Spelled.mk o p.1 (some p.2) with
        | some s => rfl
        | none => exact (if_neg hne).symm

theorem classify_of_not_hyphen {abbreviations : Bool} {arg : String}
    (h : startsWith arg "-" = false) : classify table abbreviations arg = .ok .plain := by
  rw [classify_eq, h]
  rfl

theorem classify_of_named {abbreviations : Bool} {arg : String} {s : Spelled α}
    (hdash : startsWith arg "-" = true) (h : named? table arg = some s) :
    classify table abbreviations arg = .ok (.option s) := by
  simp [classify_eq, hdash, h]

/-- No spelling in a table holds an equals sign, so the two kinds of spelling in full exclude each
other. -/
def NoEquals (table : Table α) : Prop := ∀ o ∈ table, ∀ s ∈ o.spellings, '=' ∉ s.toList

instance (table : Table α) : Decidable (NoEquals table) :=
  inferInstanceAs (Decidable (∀ o ∈ table, ∀ s ∈ o.spellings, '=' ∉ s.toList))

theorem find?_eq_none_of_cut (ht : NoEquals table) {arg start value : String}
    (h : cutAtEquals arg = some (start, value)) : find? table arg = none := by
  obtain ⟨_, rfl⟩ := cutAtEquals_eq_some_iff.mp h
  refine find?_eq_none_iff.mpr fun o ho hs => ht o ho _ hs ?_
  simp [String.toList_append]

/-- An argument spells an option in full if it is one of its spellings, or one with an equals sign
and a value after it. -/
theorem named?_eq_some_iff (ht : NoEquals table) {arg : String} {s : Spelled α} :
    named? table arg = some s ↔ find? table s.spelling = some s.option ∧
      (match s.attached with
        | none => arg = s.spelling
        | some value => cutAtEquals arg = some (s.spelling, value)) := by
  obtain ⟨o, spelling, attached⟩ := s
  constructor
  · intro h
    unfold named? at h
    split at h
    · rename_i o' hfind
      cases h
      exact ⟨hfind, rfl⟩
    · obtain ⟨⟨start, value⟩, hcut, h⟩ := Option.bind_eq_some_iff.mp h
      obtain ⟨o', hfind, h⟩ := Option.map_eq_some_iff.mp h
      cases h
      exact ⟨hfind, hcut⟩
  · rintro ⟨hfind, harg⟩
    cases attached with
    | none =>
      subst harg
      simp [named?, hfind]
    | some value =>
      have hcut : cutAtEquals arg = some (spelling, value) := harg
      simp [named?, find?_eq_none_of_cut ht hcut, hcut, hfind]

/-! ## The two parts of an argument -/

/-- The parts of an argument before and after its first equals sign; without one it is all of the
first part. -/
def parts (arg : String) : String × Option String :=
  match cutAtEquals arg with
  | some (start, value) => (start, some value)
  | none => (arg, none)

def joined (start : String) : Option String → String
  | none => start
  | some value => start ++ "=" ++ value

theorem parts_joined {start : String} (attached : Option String) (h : '=' ∉ start.toList) :
    parts (joined start attached) = (start, attached) := by
  cases attached with
  | none =>
    have hcut : cutAtEquals start = none := by
      rw [Option.eq_none_iff_forall_ne_some]
      rintro ⟨s, v⟩ hcut
      obtain ⟨_, rfl⟩ := cutAtEquals_eq_some_iff.mp hcut
      simp [String.toList_append] at h
    simp [parts, joined, hcut]
  | some value => simp [parts, joined, cutAtEquals_append value h]

theorem joined_parts (arg : String) :
    '=' ∉ (parts arg).1.toList ∧ joined (parts arg).1 (parts arg).2 = arg := by
  unfold parts
  cases hcut : cutAtEquals arg with
  | some p =>
    obtain ⟨hstart, harg⟩ := cutAtEquals_eq_some_iff.mp hcut
    exact ⟨hstart, harg.symm⟩
  | none =>
    refine ⟨fun hmem => ?_, rfl⟩
    obtain ⟨start, value, hsplit, hstart⟩ := List.eq_append_cons_of_mem hmem
    have harg : arg = String.ofList start ++ "=" ++ String.ofList value := by
      rw [← String.toList_inj, hsplit]
      simp [String.toList_append]
    rw [harg, cutAtEquals_append _ (by simpa using hstart)] at hcut
    cases hcut

theorem startsWith_joined (start : String) (attached : Option String) :
    startsWith (joined start attached) start = true := by
  cases attached with
  | none => exact startsWith_iff.mpr List.prefix_rfl
  | some value =>
    rw [joined, String.append_assoc]
    exact startsWith_append _ _

/-- What an argument starts with before an equals sign, its first part starts with. -/
theorem startsWith_of_joined {start s : String} {attached : Option String} (hs : '=' ∉ s.toList)
    (h : startsWith (joined start attached) s = true) : startsWith start s = true := by
  cases attached with
  | none => exact h
  | some value =>
    rw [startsWith_iff] at *
    have hstart : start.toList <+: (joined start (some value)).toList :=
      startsWith_iff.mp (startsWith_joined _ _)
    rcases List.prefix_or_prefix_of_prefix h hstart with h' | ⟨t, ht⟩
    · exact h'
    · -- all of the first part is passed, so the next character is the equals sign
      rw [← ht, joined, String.append_assoc, String.toList_append,
        List.prefix_append_right_inj] at h
      cases t with
      | nil => rw [← ht, List.append_nil]
      | cons c t =>
        have hc : c = '=' := by
          rw [String.toList_append] at h
          exact (List.cons_prefix_cons.mp h).1
        exact (hs (by rw [← ht, hc]; simp)).elim

theorem named?_joined (ht : NoEquals table) {start : String} (attached : Option String)
    (h : '=' ∉ start.toList) :
    named? table (joined start attached) =
      (find? table start).map fun o => ⟨o, start, attached⟩ := by
  cases attached with
  | none =>
    have hparts := parts_joined none h
    unfold parts at hparts
    split at hparts
    · cases hparts
    · rename_i hcut
      show named? table start = _
      have hcut : cutAtEquals start = none := hcut
      unfold named?
      cases find? table start with
      | some o => rfl
      | none => rw [hcut]; rfl
  | some value =>
    have hcut := cutAtEquals_append value h
    unfold named? joined
    rw [find?_eq_none_of_cut ht hcut, hcut]
    rfl

/-! ## Shortened spellings -/

/-- An argument is short for an option with one hyphen in full, with a text right after its letter,
or with two hyphens up to its equals sign. -/
theorem mem_candidates {abbreviations : Bool} {arg : String} {s : Spelled α}
    (h : s ∈ candidates table abbreviations arg) :
    s.option ∈ table ∧ s.spelling ∈ s.option.spellings ∧
      ((startsWith arg separator = true ∧ abbreviations = true ∧
          startsWith s.spelling (parts arg).1 = true ∧ s.attached = (parts arg).2) ∨
        (startsWith arg separator = false ∧ startsWith s.spelling arg = true ∧
          s.attached = none) ∨
        (startsWith arg separator = false ∧
          s.spelling = String.ofList (arg.toList.take 2))) := by
  unfold candidates at h
  split at h
  · rename_i hsep
    split at h
    · rename_i habbr
      obtain ⟨⟨spelling, o⟩, hp, rfl⟩ := List.mem_map.mp h
      obtain ⟨hp, hstart⟩ := List.mem_filter.mp hp
      obtain ⟨ho, hs⟩ := mem_spellings.mp hp
      refine ⟨ho, hs, .inl ⟨hsep, habbr, ?_⟩⟩
      unfold parts
      cases hcut : cutAtEquals arg with
      | some p =>
        rw [hcut] at hstart
        exact ⟨hstart, rfl⟩
      | none =>
        rw [hcut] at hstart
        exact ⟨hstart, rfl⟩
    · cases h
  · rename_i hsep
    obtain ⟨⟨spelling, o⟩, hp, hs⟩ := List.mem_filterMap.mp h
    obtain ⟨ho, hspelled⟩ := mem_spellings.mp hp
    split at hs
    · rename_i hletter
      cases hs
      exact ⟨ho, hspelled, .inr (.inr ⟨eq_false_of_ne_true hsep, by simpa using hletter⟩)⟩
    · split at hs
      · rename_i hstart
        cases hs
        exact ⟨ho, hspelled, .inr (.inl ⟨eq_false_of_ne_true hsep, hstart, rfl⟩)⟩
      · cases hs

theorem candidates_of_separator {arg : String} (h : startsWith arg separator = true) :
    candidates table true arg = ((spellings table).filter fun p => startsWith p.1 (parts arg).1).map
      fun p => ⟨p.2, p.1, (parts arg).2⟩ := by
  unfold candidates
  rw [if_pos h]
  rfl

/-- What several spellings start with is short for the option of each of them. -/
theorem mem_candidates_of_start {arg : String} {spelling : String} {o : OptionForm α}
    (ho : o ∈ table) (hs : spelling ∈ o.spellings)
    (h : startsWith spelling (if startsWith arg separator then (parts arg).1 else arg) = true) :
    ∃ s ∈ candidates table true arg, s.option = o := by
  have hp : (spelling, o) ∈ spellings table := mem_spellings.mpr ⟨ho, hs⟩
  by_cases hsep : startsWith arg separator = true
  · rw [if_pos hsep] at h
    rw [candidates_of_separator hsep]
    exact ⟨_, List.mem_map.mpr ⟨_, List.mem_filter.mpr ⟨hp, h⟩, rfl⟩, rfl⟩
  · rw [if_neg hsep] at h
    unfold candidates
    rw [if_neg hsep]
    by_cases hletter : spelling = String.ofList (arg.toList.take 2)
    · exact ⟨_, List.mem_filterMap.mpr ⟨_, hp, by simp [hletter]; rfl⟩, rfl⟩
    · exact ⟨_, List.mem_filterMap.mpr ⟨_, hp, by simp [hletter, h]; rfl⟩, rfl⟩

theorem candidates_joined {start : String} (attached : Option String) (h : '=' ∉ start.toList)
    (hsep : startsWith start separator = true) :
    candidates table true (joined start attached) =
      ((spellings table).filter fun p => startsWith p.1 start).map fun p =>
        ⟨p.2, p.1, attached⟩ := by
  have hstart := startsWith_trans (startsWith_joined start attached) hsep
  rw [candidates_of_separator hstart, parts_joined attached h]

/-! ## Tables with options that do not matter -/

theorem candidates_append (table' : Table α) (abbreviations : Bool) (arg : String) :
    candidates (table ++ table') abbreviations arg =
      candidates table abbreviations arg ++ candidates table' abbreviations arg := by
  have hspellings : spellings (table ++ table') = spellings table ++ spellings table' :=
    List.flatMap_append
  unfold candidates
  rw [hspellings]
  split
  · split
    · simp
    · rfl
  · simp

/-- Options whose spellings have nothing to do with an argument can be left out. -/
theorem classify_append {table' : Table α} {abbreviations : Bool} {arg : String}
    (hfull : named? table arg = none) (hshort : candidates table abbreviations arg = [])
    (ht : NoEquals (table ++ table')) :
    classify (table ++ table') abbreviations arg = classify table' abbreviations arg := by
  have hnamed : named? (table ++ table') arg = named? table' arg := by
    obtain ⟨hstart, harg⟩ := joined_parts arg
    have htable : NoEquals table := fun o ho => ht o (List.mem_append_left _ ho)
    have htable' : NoEquals table' := fun o ho => ht o (List.mem_append_right _ ho)
    rw [← harg, named?_joined htable _ hstart, Option.map_eq_none_iff] at hfull
    rw [← harg, named?_joined ht _ hstart, named?_joined htable' _ hstart]
    unfold find? at hfull ⊢
    rw [List.find?_append, hfull, Option.none_or]
  rw [classify_eq, classify_eq, hnamed, candidates_append, hshort, List.nil_append]

/-! ## What is read as an option -/

/-- An argument that is an option spells it in full, or is short for it alone. -/
theorem classify_eq_option {abbreviations : Bool} {arg : String} {s : Spelled α}
    (h : classify table abbreviations arg = .ok (.option s)) :
    startsWith arg "-" = true ∧ (named? table arg = some s ∨
      (named? table arg = none ∧ candidates table abbreviations arg = [s])) := by
  rw [classify_eq] at h
  split at h
  · cases h
  · rename_i hdash
    refine ⟨by simpa using hdash, ?_⟩
    split at h
    · rename_i s' hnamed
      cases h
      exact .inl hnamed
    · rename_i hnamed
      split at h
      · cases h
      · split at h
        · rename_i s' hcand
          cases h
          exact .inr ⟨hnamed, hcand⟩
        · split at h <;> cases h
        · cases h

theorem classify_option_mem {abbreviations : Bool} {arg : String} {s : Spelled α}
    (h : classify table abbreviations arg = .ok (.option s)) : s.option ∈ table := by
  rcases (classify_eq_option h).2 with h | ⟨_, h⟩
  · unfold named? at h
    split at h
    · rename_i o hfind
      cases h
      exact (find?_eq_some hfind).1
    · obtain ⟨p, _, h⟩ := Option.bind_eq_some_iff.mp h
      obtain ⟨o, hfind, h⟩ := Option.map_eq_some_iff.mp h
      cases h
      exact (find?_eq_some hfind).1
  · exact (mem_candidates (h ▸ List.mem_singleton_self s)).1

/-! ## Negative numbers -/

theorem isUnsignedNumber_head {cs : List Char} (h : isUnsignedNumber cs = true) :
    ∃ c rest, cs = c :: rest ∧ (isDigit c = true ∨ c = '.') := by
  cases cs with
  | nil => simp [isUnsignedNumber] at h
  | cons c rest =>
    refine ⟨c, rest, rfl, ?_⟩
    by_cases hc : isDigit c = true
    · exact .inl hc
    · have hdrop : (c :: rest).dropWhile isDigit = c :: rest := by simp [hc]
      unfold isUnsignedNumber at h
      rw [hdrop] at h
      simp only [Bool.and_eq_true, beq_iff_eq] at h
      exact .inr h.1.1

/-- After the hyphen of a negative number stands a digit or a point. -/
theorem isNegativeNumber_start {arg : String} (h : isNegativeNumber arg = true) :
    ∃ c rest, arg.toList = '-' :: c :: rest ∧ (isDigit c = true ∨ c = '.') := by
  unfold isNegativeNumber at h
  split at h
  · rename_i cs hcs
    rw [hcs]
    rcases (Bool.or_eq_true _ _).mp h with h | h
    · obtain ⟨c, rest, rfl, hc⟩ := isUnsignedNumber_head h
      exact ⟨c, rest, rfl, hc⟩
    · obtain ⟨c, rest, hlast, hc⟩ := isUnsignedNumber_head ((Bool.and_eq_true _ _).mp h).2
      cases cs with
      | nil => cases hlast
      | cons d ds =>
        cases ds with
        | nil => cases hlast
        | cons e es =>
          injection hlast with hd _
          exact ⟨d, e :: es, rfl, hd ▸ hc⟩
  · cases h

theorem isNegativeNumber_eq_false {arg : String} {c : Char} {rest : List Char}
    (harg : arg.toList = '-' :: c :: rest) (hdigit : isDigit c = false) (hpoint : c ≠ '.') :
    isNegativeNumber arg = false := by
  by_contra h
  obtain ⟨d, _, hd, hc⟩ := isNegativeNumber_start (eq_true_of_ne_false h)
  have hcd : c = d := by
    rw [harg] at hd
    injection hd with _ hd
    injection hd
  subst hcd
  rcases hc with hc | hc
  · rw [hdigit] at hc
    cases hc
  · exact hpoint hc

end BootConfig.Options
