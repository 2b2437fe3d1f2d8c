import BootConfig.Proofs.Options.Argument

/-!
# Mentions of an option

`collect` goes through classified arguments from left to right, lets an option take the values that
follow it, and stops at the first fault. Here options of some kind are looked at where they stand,
each by itself:

* `mentions`: the options of a kind with the values that stand next to them;
* `collect_prefix`: what `collect` finds of them is a beginning of their mentions;
* `collect_eq_mentions`: without a fault it is all of them.

The kind has to consist of options that take values and are never reached through letters that are
attached to another option (`Watched`).
-/

namespace BootConfig.Options

variable {α : Type} {table : Table α} {P : OptionForm α → Bool}

/-! ## Values that follow -/

/-- The values that follow an option, up to the first argument that is none. -/
def following (rs : List (String × Reading α)) : List String :=
  (rs.takeWhile fun r => r.2.isPlain).map Prod.fst

@[simp] theorem following_nil : following ([] : List (String × Reading α)) = [] := rfl

theorem following_cons (r : String × Reading α) (rs : List (String × Reading α)) :
    following (r :: rs) = if r.2.isPlain then r.1 :: following rs else [] := by
  unfold following
  rw [List.takeWhile_cons]
  split <;> simp

/-- What holds behind some of the values that follow holds in front of them, if it holds with one
more value in front. -/
theorem of_drop {motive : List (String × Reading α) → Prop} {n : Nat}
    {rs : List (String × Reading α)}
    (hplain : ∀ arg rest, motive rest → motive ((arg, .plain) :: rest))
    (h : n ≤ (following rs).length) (hdrop : motive (rs.drop n)) : motive rs := by
  induction rs generalizing n with
  | nil => simpa using hdrop
  | cons r rest ih =>
    obtain ⟨arg, reading⟩ := r
    cases n with
    | zero => exact hdrop
    | succ n =>
      rw [following_cons] at h
      cases reading with
      | plain => exact hplain arg rest (ih (by simpa [Reading.isPlain] using h) hdrop)
      | separator => simp [Reading.isPlain] at h
      | unknown => simp [Reading.isPlain] at h
      | option s => simp [Reading.isPlain] at h

theorem valueCount_le {a : Arity} {available n : Nat} (h : valueCount a available = some n) :
    n ≤ available := by
  cases a <;> simp only [valueCount, Option.some.injEq] at h
  · omega
  · split at h
    · cases h
    · injection h with h
      omega
  · omega
  · split at h
    · cases h
    · injection h with h
      omega

/-! ## Mentions -/

/-- An option with the values next to it: the one attached to it, or as many as it takes of those
that follow. Nothing if they are too few. -/
def Spelled.occurrence? (s : Spelled α) (rest : List (String × Reading α)) :
    Option (Occurrence α) :=
  match s.attached with
  | some value => some ⟨s.option, attachedValues value⟩
  | none => (valueCount s.option.arity (following rest).length).map fun n =>
      ⟨s.option, (following rest).take n⟩

theorem Spelled.occurrence?_option {s : Spelled α} {rest : List (String × Reading α)}
    {o : Occurrence α} (h : s.occurrence? rest = some o) : o.option = s.option := by
  unfold Spelled.occurrence? at h
  split at h
  · cases h
    rfl
  · obtain ⟨n, _, rfl⟩ := Option.map_eq_some_iff.mp h
    rfl

theorem Spelled.length_values_le {s : Spelled α} {rest : List (String × Reading α)}
    {o : Occurrence α} (h : s.occurrence? rest = some o)
    (harity : s.option.arity = .one ∨ s.option.arity = .optional) : o.values.length ≤ 1 := by
  unfold Spelled.occurrence? at h
  split at h
  · cases h
    unfold attachedValues
    split <;> simp
  · obtain ⟨n, hn, rfl⟩ := Option.map_eq_some_iff.mp h
    have hle : n ≤ 1 := by
      rcases harity with harity | harity <;> rw [harity] at hn <;> simp only [valueCount] at hn
      · split at hn
        · cases hn
        · injection hn with hn
          omega
      · injection hn with hn
        omega
    simp only [List.length_take]
    omega

/-- The options of a kind that stand among classified arguments, each with the values next to it. -/
def mentions (P : OptionForm α → Bool) : List (String × Reading α) → List (Occurrence α)
  | [] => []
  | (_, .option s) :: rest =>
    if P s.option then (s.occurrence? rest).toList ++ mentions P rest else mentions P rest
  | _ :: rest => mentions P rest

theorem mentions_cons_of_other {arg : String} {reading : Reading α}
    (rest : List (String × Reading α)) (h : ∀ s, reading = .option s → P s.option = false) :
    mentions P ((arg, reading) :: rest) = mentions P rest := by
  cases reading with
  | option s => simp [mentions, h s rfl]
  | plain => rfl
  | separator => rfl
  | unknown => rfl

theorem mem_mentions {rs : List (String × Reading α)} {o : Occurrence α} (h : o ∈ mentions P rs) :
    ∃ arg s rest, (arg, Reading.option s) ∈ rs ∧ P s.option = true ∧
      s.occurrence? rest = some o := by
  induction rs with
  | nil => cases h
  | cons r rest ih =>
    obtain ⟨arg, reading⟩ := r
    have hrest : o ∈ mentions P rest → ∃ arg' s rest',
        (arg', Reading.option s) ∈ (arg, reading) :: rest ∧ P s.option = true ∧
          s.occurrence? rest' = some o := by
      intro h
      obtain ⟨arg', s, rest', hmem, hs⟩ := ih h
      exact ⟨arg', s, rest', List.mem_cons_of_mem _ hmem, hs⟩
    by_cases hother : ∀ s, reading = .option s → P s.option = false
    · rw [mentions_cons_of_other rest hother] at h
      exact hrest h
    · obtain ⟨s, rfl, hs⟩ : ∃ s, reading = .option s ∧ P s.option = true := by simpa using hother
      rw [mentions, if_pos hs] at h
      rcases List.mem_append.mp h with h | h
      · exact ⟨arg, s, rest, List.mem_cons_self, hs, by simpa using h⟩
      · exact hrest h

/-- Values are no options, so leaving out some that follow leaves out no mention. -/
theorem mentions_drop {n : Nat} {rs : List (String × Reading α)} (h : n ≤ (following rs).length) :
    mentions P (rs.drop n) = mentions P rs :=
  of_drop (motive := fun rs' => mentions P (rs.drop n) = mentions P rs') (fun _ _ heq => heq) h rfl

/-! ## The first steps of `collect` -/

/-- What an option gives before it takes the values that follow: the occurrences that a text
attached to it makes, and the option that still needs values. -/
def Spelled.start (table : Table α) (s : Spelled α) :
    Except GrammarFault (List (Occurrence α) × Option (OptionForm α)) :=
  match s.attached with
  | some value => cluster table s.option (!startsWith s.spelling separator) value.toList
  | none => .ok ([], some s.option)

/-- An option of the kind takes values, and no letter stands for it. -/
structure Watched (table : Table α) (P : OptionForm α → Bool) : Prop where
  takesValues : ∀ o ∈ table, P o = true → o.arity ≠ .none
  noLetter : ∀ c o, find? table (String.ofList ['-', c]) = some o → P o = false

/-- All options that arguments were read as are options of the table. -/
def FromTable (table : Table α) (rs : List (String × Reading α)) : Prop :=
  ∀ arg s, (arg, .option s) ∈ rs → s.option ∈ table

theorem FromTable.tail {r : String × Reading α} {rs : List (String × Reading α)}
    (h : FromTable table (r :: rs)) : FromTable table rs :=
  fun arg s hs => h arg s (List.mem_cons_of_mem _ hs)

theorem FromTable.drop {rs : List (String × Reading α)} (h : FromTable table rs) (n : Nat) :
    FromTable table (rs.drop n) :=
  fun arg s hs => h arg s (List.mem_of_mem_drop hs)

section

variable {abbreviations : Bool} {arg : String} {args : List String} {rs : List (String × Reading α)}

/-- The first argument of a list without fault is the separator, or is read by itself. -/
theorem classifyAll_cons_eq_ok (h : classifyAll table abbreviations (arg :: args) = .ok rs) :
    rs = (arg, .separator) :: args.map (fun r => (r, .plain)) ∨
      ∃ reading rest, arg ≠ separator ∧ classify table abbreviations arg = .ok reading ∧
        classifyAll table abbreviations args = .ok rest ∧ rs = (arg, reading) :: rest := by
  unfold classifyAll at h
  split at h
  · cases h
    exact .inl rfl
  · rename_i hsep
    cases hreading : classify table abbreviations arg with
    | error f =>
      rw [hreading] at h
      cases h
    | ok reading =>
      cases hrest : classifyAll table abbreviations args with
      | error f =>
        rw [hreading, hrest] at h
        cases h
      | ok rest =>
        rw [hreading, hrest] at h
        cases h
        exact .inr ⟨reading, rest, by simpa using hsep, rfl, rfl, rfl⟩

theorem fromTable_of_classifyAll (h : classifyAll table abbreviations args = .ok rs) :
    FromTable table rs := by
  induction args generalizing rs with
  | nil =>
    cases h
    intro arg s hs
    cases hs
  | cons first rest ih =>
    intro arg s hs
    rcases classifyAll_cons_eq_ok h with rfl | ⟨reading, rs', -, hreading, hrest, rfl⟩
    · rcases List.mem_cons.mp hs with hs | hs
      · cases hs
      · obtain ⟨r, _, hr⟩ := List.mem_map.mp hs
        cases hr
    · rcases List.mem_cons.mp hs with hs | hs
      · cases hs
        exact classify_option_mem hreading
      · exact ih hrest arg s hs

end

theorem cluster_of_takesValues {o : OptionForm α} (singleHyphen : Bool) (cs : List Char)
    (h : o.arity ≠ .none) :
    cluster table o singleHyphen cs = .ok ([⟨o, attachedValues (String.ofList cs)⟩], none) := by
  cases cs with
  | nil => simp [cluster, h]
  | cons c rest => simp [cluster, h]

/-- An option of another kind leads to no option of this kind. -/
theorem cluster_unwatched (hw : Watched table P) {o : OptionForm α} {singleHyphen : Bool}
    {cs : List Char} {done : List (Occurrence α)} {last : Option (OptionForm α)}
    (ho : P o = false) (h : cluster table o singleHyphen cs = .ok (done, last)) :
    (∀ d ∈ done, P d.option = false) ∧ ∀ next, last = some next → P next = false := by
  induction o, singleHyphen, cs using cluster.induct table generalizing done last with
  | case1 o singleHyphen ha =>
    rw [cluster, if_pos ha] at h
    cases h
    exact ⟨by simpa using ho, by simp⟩
  | case2 o singleHyphen ha =>
    rw [cluster, if_neg ha] at h
    cases h
  | case3 o singleHyphen c rest ha =>
    simp only [cluster, ha, if_true] at h
    cases h
    exact ⟨by simpa using ho, by simp⟩
  | case4 o c rest ha next hn hr =>
    -- the next letter is an option of its own, which is of another kind as well
    simp only [cluster, ha, hn, hr, if_true] at h
    cases h
    exact ⟨by simpa using ho, by simpa using hw.noLetter c next hn⟩
  | case5 o c rest ha next hn hr ih =>
    simp only [cluster, ha, hn, hr] at h
    cases hc : cluster table next true rest with
    | error f => simp [hc, Except.map] at h
    | ok p =>
      simp only [hc, Except.map] at h
      cases h
      obtain ⟨hdone, hlast⟩ := ih (hw.noLetter c next hn) hc
      exact ⟨by simpa using ⟨ho, hdone⟩, hlast⟩
  | case6 o singleHyphen c rest ha hn =>
    rw [cluster, if_neg ha] at h
    · cases h
    · exact hn

theorem start_watched (hw : Watched table P) {s : Spelled α} (hmem : s.option ∈ table)
    (hs : P s.option = true) :
    s.start table = match s.attached with
      | some value => .ok ([⟨s.option, attachedValues value⟩], none)
      | none => .ok ([], some s.option) := by
  unfold Spelled.start
  split
  · rw [cluster_of_takesValues _ _ (hw.takesValues _ hmem hs), String.ofList_toList]
  · rfl

theorem start_unwatched (hw : Watched table P) {s : Spelled α} (hs : P s.option = false)
    {done : List (Occurrence α)} {last : Option (OptionForm α)}
    (h : s.start table = .ok (done, last)) :
    (∀ d ∈ done, P d.option = false) ∧ ∀ next, last = some next → P next = false := by
  unfold Spelled.start at h
  split at h
  · exact cluster_unwatched hw hs h
  · cases h
    exact ⟨by simp, by simpa using hs⟩

/-! ## What `collect` finds -/

/-- The occurrences of a kind among those that a scan has found. -/
def Scan.ofKind (P : OptionForm α → Bool) (s : Scan α) : List (Occurrence α) :=
  s.occurrences.filter fun o => P o.option

theorem Scan.ofKind_after (s : Scan α) (os : List (Occurrence α)) :
    (s.after os).ofKind P = os.filter (fun o => P o.option) ++ s.ofKind P := by
  simp [Scan.ofKind, Scan.after]

@[simp] theorem Scan.ofKind_leaving (s : Scan α) (arg : String) :
    (s.leaving arg).ofKind P = s.ofKind P := rfl

@[simp] theorem Scan.ofKind_stop (f : GrammarFault) : (Scan.stop f : Scan α).ofKind P = [] := rfl

@[simp] theorem Scan.fault_after (s : Scan α) (os : List (Occurrence α)) :
    (s.after os).fault = s.fault := rfl

@[simp] theorem Scan.fault_leaving (s : Scan α) (arg : String) :
    (s.leaving arg).fault = s.fault := rfl

@[simp] theorem Scan.fault_stop (f : GrammarFault) : (Scan.stop f : Scan α).fault = some f := rfl

/-- One step of `collect`, at an option: a fault, an option that is complete, or one that takes the
values that follow. -/
theorem collect_option (arg : String) (s : Spelled α) (rest : List (String × Reading α)) :
    collect table ((arg, .option s) :: rest) = match s.start table with
      | .error f => .stop f
      | .ok (done, none) => (collect table rest).after done
      | .ok (done, some o) => match valueCount o.arity (following rest).length with
        | none => .stop (.missingValue o.spellings o.arity)
        | some n =>
          (collect table (rest.drop n)).after (done ++ [⟨o, (following rest).take n⟩]) := by
  rw [collect]
  rfl

theorem collect_other {arg : String} {reading : Reading α} (rest : List (String × Reading α))
    (h : ∀ s, reading = .option s → False) :
    collect table ((arg, reading) :: rest) = (collect table rest).leaving arg := by
  rw [collect]
  exact h

/-- The scans that the steps of `collect` lead to. -/
inductive Collects (table : Table α) : List (String × Reading α) → Scan α → Prop
  | nil : Collects table [] ⟨[], [], none⟩
  | fault {arg : String} {s : Spelled α} {rest : List (String × Reading α)} {f : GrammarFault}
      (hstart : s.start table = .error f) : Collects table ((arg, .option s) :: rest) (.stop f)
  | complete {arg : String} {s : Spelled α} {rest : List (String × Reading α)}
      {done : List (Occurrence α)} {scan : Scan α} (hstart : s.start table = .ok (done, none))
      (hrest : Collects table rest scan) :
      Collects table ((arg, .option s) :: rest) (scan.after done)
  | missing {arg : String} {s : Spelled α} {rest : List (String × Reading α)}
      {done : List (Occurrence α)} {o : OptionForm α} (hstart : s.start table = .ok (done, some o))
      (hcount : valueCount o.arity (following rest).length = none) :
      Collects table ((arg, .option s) :: rest) (.stop (.missingValue o.spellings o.arity))
  | takes {arg : String} {s : Spelled α} {rest : List (String × Reading α)}
      {done : List (Occurrence α)} {o : OptionForm α} {n : Nat} {scan : Scan α}
      (hstart : s.start table = .ok (done, some o))
      (hcount : valueCount o.arity (following rest).length = some n)
      (hrest : Collects table (rest.drop n) scan) :
      Collects table ((arg, .option s) :: rest)
        (scan.after (done ++ [⟨o, (following rest).take n⟩]))
  | other {arg : String} {reading : Reading α} {rest : List (String × Reading α)} {scan : Scan α}
      (hother : ∀ s, reading = .option s → False) (hrest : Collects table rest scan) :
      Collects table ((arg, reading) :: rest) (scan.leaving arg)

theorem collects (table : Table α) (rs : List (String × Reading α)) :
    Collects table rs (collect table rs) := by
  induction rs using collect.induct table with
  | case1 =>
    rw [collect]
    exact .nil
  | case2 arg rest s start f hstart =>
    have hstart : s.start table = .error f := hstart
    rw [collect_option, hstart]
    exact .fault hstart
  | case3 arg rest s start done hstart ih =>
    have hstart : s.start table = .ok (done, none) := hstart
    rw [collect_option, hstart]
    exact .complete hstart ih
  | case4 arg rest s start done o hstart followers hcount =>
    have hstart : s.start table = .ok (done, some o) := hstart
    have hcount : valueCount o.arity (following rest).length = none := hcount
    rw [collect_option, hstart]
    simp only [hcount]
    exact .missing hstart hcount
  | case5 arg rest s start done o hstart followers n hcount ih =>
    have hstart : s.start table = .ok (done, some o) := hstart
    have hcount : valueCount o.arity (following rest).length = some n := hcount
    rw [collect_option, hstart]
    simp only [hcount]
    exact .takes hstart hcount ih
  | case6 arg reading rest hother ih =>
    rw [collect_other rest hother]
    exact .other hother ih

/-- A step that misses nothing at its own place misses what the rest of the arguments miss. -/
theorem mentions_step {rs rest : List (String × Reading α)} (found : List (Occurrence α))
    {s : Scan α} (hm : mentions P rs = found ++ mentions P rest)
    (ih : ∃ missed, mentions P rest = s.ofKind P ++ missed ∧ (s.fault = none → missed = []))
    {os : List (Occurrence α)} (hos : os.filter (fun o => P o.option) = found) :
    ∃ missed, mentions P rs = (s.after os).ofKind P ++ missed ∧
      ((s.after os).fault = none → missed = []) := by
  obtain ⟨missed, hrest, hnone⟩ := ih
  refine ⟨missed, ?_, by simpa using hnone⟩
  rw [hm, hrest, Scan.ofKind_after, hos, List.append_assoc]

/-- What a scan finds of a kind is a beginning of its mentions, and all of them unless there is a
fault. The induction is on the steps of `collect`: each skips values only. -/
theorem Collects.mentions_eq_append (hw : Watched table P) {rs : List (String × Reading α)}
    {scan : Scan α} (h : Collects table rs scan) (hrs : FromTable table rs) :
    ∃ missed, mentions P rs = scan.ofKind P ++ missed ∧ (scan.fault = none → missed = []) := by
  induction h with
  | nil => exact ⟨[], by simp [mentions, Scan.ofKind], fun _ => rfl⟩
  | @fault arg s rest f _ =>
    -- nothing is found from here on, so all mentions are missed
    exact ⟨mentions P ((arg, .option s) :: rest), by simp, by simp⟩
  | @complete arg s rest done scan hstart _ ih =>
    have ih := ih hrs.tail
    cases hs : P s.option with
    | true =>
      rw [start_watched hw (hrs arg s List.mem_cons_self) hs] at hstart
      split at hstart
      · rename_i value hatt
        cases hstart
        refine mentions_step [⟨s.option, attachedValues value⟩] ?_ ih (by simp [hs])
        simp [mentions, hs, Spelled.occurrence?, hatt]
      · cases hstart
    | false =>
      have hdone := (start_unwatched hw hs hstart).1
      refine mentions_step [] (by simp [mentions, hs]) ih ?_
      exact List.filter_eq_nil_iff.mpr fun d hd => by simp [hdone d hd]
  | @missing arg s rest done o _ _ =>
    exact ⟨mentions P ((arg, .option s) :: rest), by simp, by simp⟩
  | @takes arg s rest done o n scan hstart hcount _ ih =>
    -- the run goes on behind the values, where the same mentions are left
    have ih := ih (hrs.tail.drop n)
    rw [mentions_drop (valueCount_le hcount)] at ih
    cases hs : P s.option with
    | true =>
      rw [start_watched hw (hrs arg s List.mem_cons_self) hs] at hstart
      split at hstart
      · cases hstart
      · rename_i hatt
        cases hstart
        refine mentions_step [⟨s.option, (following rest).take n⟩] ?_ ih (by simp [hs])
        simp [mentions, hs, Spelled.occurrence?, hatt, hcount]
    | false =>
      obtain ⟨hdone, hlast⟩ := start_unwatched hw hs hstart
      refine mentions_step [] (by simp [mentions, hs]) ih ?_
      refine List.filter_eq_nil_iff.mpr fun d hd => ?_
      rcases List.mem_append.mp hd with hd | hd
      · simp [hdone d hd]
      · rw [List.mem_singleton.mp hd]
        simp [hlast o rfl]
  | @other arg reading rest scan hother _ ih =>
    rw [mentions_cons_of_other rest fun s hs => (hother s hs).elim]
    simpa using ih hrs.tail

theorem collect_prefix (hw : Watched table P) {rs : List (String × Reading α)}
    (hrs : FromTable table rs) : (collect table rs).ofKind P <+: mentions P rs := by
  obtain ⟨missed, h, _⟩ := (collects table rs).mentions_eq_append hw hrs
  exact ⟨missed, h.symm⟩

/-- A complete option that stands first is found, whatever follows it. -/
theorem collect_head (hw : Watched table P) (arg : String) {s : Spelled α}
    {rest : List (String × Reading α)} {o : Occurrence α} (hmem : s.option ∈ table)
    (hs : P s.option = true) (ho : s.occurrence? rest = some o) :
    ∃ later, (collect table ((arg, .option s) :: rest)).ofKind P = o :: later := by
  rw [collect_option, start_watched hw hmem hs]
  unfold Spelled.occurrence? at ho
  split at ho
  · rename_i value hatt
    cases ho
    refine ⟨(collect table rest).ofKind P, ?_⟩
    simp [Scan.ofKind_after, hs]
  · rename_i hatt
    obtain ⟨n, hcount, rfl⟩ := Option.map_eq_some_iff.mp ho
    refine ⟨(collect table (rest.drop n)).ofKind P, ?_⟩
    simp [hcount, Scan.ofKind_after, hs]

/-- A mention with none behind it is found if it stands first. -/
theorem collect_cons_eq_mentions (hw : Watched table P) {r : String × Reading α}
    {rest : List (String × Reading α)} (hrs : FromTable table (r :: rest))
    (hrest : mentions P rest = []) :
    (collect table (r :: rest)).ofKind P = mentions P (r :: rest) := by
  have hprefix := collect_prefix hw hrs
  obtain ⟨arg, reading⟩ := r
  by_cases hother : ∀ s, reading = .option s → False
  · rw [mentions_cons_of_other rest fun s hs => (hother s hs).elim, hrest] at hprefix ⊢
    exact List.prefix_nil.mp hprefix
  · obtain ⟨s, rfl⟩ : ∃ s, reading = .option s := by simpa using hother
    rw [mentions, hrest] at hprefix ⊢
    split
    · rename_i hs
      rw [if_pos hs] at hprefix
      cases ho : s.occurrence? rest with
      | none =>
        rw [ho] at hprefix
        exact List.prefix_nil.mp hprefix
      | some o =>
        obtain ⟨later, hlater⟩ := collect_head hw arg (hrs arg s List.mem_cons_self) hs ho
        rw [hlater, ho] at hprefix
        obtain ⟨_, hnil⟩ := List.cons_prefix_cons.mp hprefix
        rw [hlater, List.prefix_nil.mp hnil]
        rfl
    · rename_i hs
      rw [if_neg hs] at hprefix
      exact List.prefix_nil.mp hprefix

/-- Without a fault `collect` finds all mentions of a kind. -/
theorem collect_eq_mentions (hw : Watched table P) {rs : List (String × Reading α)}
    (hrs : FromTable table rs) (h : (collect table rs).fault = none) :
    (collect table rs).ofKind P = mentions P rs := by
  obtain ⟨missed, hm, hnone⟩ := (collects table rs).mentions_eq_append hw hrs
  rw [hm, hnone h, List.append_nil]

/-- Nothing but options of the table is found: the kind of all others has no mention. -/
theorem Collects.mem_table {rs : List (String × Reading α)} {scan : Scan α}
    (h : Collects table rs scan) (hrs : FromTable table rs) :
    ∀ o ∈ scan.occurrences, o.option ∈ table := by
  classical
  have hw : Watched table fun o => decide (o ∉ table) := by
    refine ⟨fun o ho hother => ?_, fun c o ho => ?_⟩
    · exact absurd ho (of_decide_eq_true hother)
    · simpa using (find?_eq_some ho).1
  obtain ⟨missed, hm, _⟩ := h.mentions_eq_append hw hrs
  intro o ho
  by_contra hother
  have hmention : o ∈ mentions (fun o => decide (o ∉ table)) rs := by
    rw [hm]
    exact List.mem_append_left _ (List.mem_filter.mpr ⟨ho, decide_eq_true hother⟩)
  obtain ⟨arg, s, _, hmem, hs, _⟩ := mem_mentions hmention
  exact of_decide_eq_true hs (hrs arg s hmem)

/-! ## Arguments that are accepted -/

/-- Every option of a kind has the values that it takes. -/
def Complete (P : OptionForm α → Bool) : List (String × Reading α) → Prop
  | [] => True
  | (_, .option s) :: rest =>
    (P s.option = true → (s.occurrence? rest).isSome = true) ∧ Complete P rest
  | _ :: rest => Complete P rest

theorem Complete.tail {r : String × Reading α} {rest : List (String × Reading α)}
    (h : Complete P (r :: rest)) : Complete P rest := by
  obtain ⟨arg, reading⟩ := r
  cases reading with
  | option s => exact h.2
  | plain => exact h
  | separator => exact h
  | unknown => exact h

theorem Collects.complete_of_fault_none (hw : Watched table P) {rs : List (String × Reading α)}
    {scan : Scan α} (h : Collects table rs scan) (hrs : FromTable table rs)
    (hfault : scan.fault = none) : Complete P rs := by
  induction h with
  | nil => trivial
  | fault hstart => cases hfault
  | @complete arg s rest done scan hstart _ ih =>
    refine ⟨fun hs => ?_, ih hrs.tail hfault⟩
    rw [start_watched hw (hrs arg s List.mem_cons_self) hs] at hstart
    split at hstart
    · rename_i value hatt
      simp [Spelled.occurrence?, hatt]
    · cases hstart
  | missing hstart hcount => cases hfault
  | @takes arg s rest done o n scan hstart hcount _ ih =>
    refine ⟨fun hs => ?_,
      of_drop (fun _ _ h => h) (valueCount_le hcount) (ih (hrs.tail.drop n) hfault)⟩
    rw [start_watched hw (hrs arg s List.mem_cons_self) hs] at hstart
    split at hstart
    · cases hstart
    · rename_i hatt
      cases hstart
      simp [Spelled.occurrence?, hatt, hcount]
  | @other arg reading rest scan hother _ ih =>
    have hrest := ih hrs.tail hfault
    cases reading with
    | option s => exact (hother s rfl).elim
    | plain => exact hrest
    | separator => exact hrest
    | unknown => exact hrest

/-- If nothing is left over and there is no fault, every argument is an option or a value. -/
theorem Collects.option_or_plain {rs : List (String × Reading α)} {scan : Scan α}
    (h : Collects table rs scan) (hfault : scan.fault = none) (hleft : scan.leftover = []) :
    ∀ r ∈ rs, r.2.isPlain = true ∨ ∃ s, r.2 = .option s := by
  induction h with
  | nil => intro r hr; cases hr
  | fault hstart => cases hfault
  | @complete arg s rest done scan hstart _ ih =>
    exact List.forall_mem_cons.mpr ⟨.inr ⟨s, rfl⟩, ih hfault hleft⟩
  | missing hstart hcount => cases hfault
  | @takes arg s rest done o n scan hstart hcount _ ih =>
    -- between the option and the next argument that is gone through there are values only
    have hrest : ∀ r ∈ rest, r.2.isPlain = true ∨ ∃ s, r.2 = .option s := by
      refine of_drop (motive := fun rs => ∀ r ∈ rs, r.2.isPlain = true ∨ ∃ s, r.2 = .option s)
        (fun arg rest hrest => ?_) (valueCount_le hcount) (ih hfault hleft)
      exact List.forall_mem_cons.mpr ⟨.inl rfl, hrest⟩
    exact List.forall_mem_cons.mpr ⟨.inr ⟨s, rfl⟩, hrest⟩
  | other hother _ ih => cases hleft

end BootConfig.Options
