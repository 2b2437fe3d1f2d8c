import BootConfig.Proofs.Options.Accepted

/-!
# Groups of arguments

An argument list that is accepted falls into groups: an option together with the arguments behind it
that are its values. What is found in one group does not depend on the others.

* `OptionGroup.Full`: a group whose option has the values that it takes.
* `groups`: the groups of classified arguments.
* `scan_groups`: the arguments of full groups, one group after the other, are scanned to the
  occurrences of the groups.
* `Collects.eq_groups`: what is scanned without a fault and leaves nothing over is such a list.
-/

namespace BootConfig.Options

variable {α : Type} {table : Table α}

/-! ## Groups -/

/-- An option among the arguments, with the values behind it. -/
structure OptionGroup (α : Type) where
  arg : String
  spelled : Spelled α
  values : List String

namespace OptionGroup

/-- The arguments of a group. -/
def args (g : OptionGroup α) : List String := g.arg :: g.values

/-- What the arguments of a group are read as. -/
def readings (g : OptionGroup α) : List (String × Reading α) :=
  (g.arg, .option g.spelled) :: g.values.map fun v => (v, .plain)

/-- The option of a group with its values; an attached value counts as the only one. -/
def occurrence (g : OptionGroup α) : Occurrence α where
  option := g.spelled.option
  values := match g.spelled.attached with
    | some value => attachedValues value
    | none => g.values

/-- The option of a group takes values, and those of the group are as many as it takes. -/
structure Full (g : OptionGroup α) : Prop where
  takesValues : g.spelled.option.arity ≠ .none
  values : match g.spelled.attached with
    | some _ => g.values = []
    | none => valueCount g.spelled.option.arity g.values.length = some g.values.length

/-- Each argument of a group is read as the group says, and none of them is a separator. -/
def Stands (table : Table α) (abbreviations : Bool) (g : OptionGroup α) : Prop :=
  ∀ r ∈ g.readings, r.1 ≠ separator ∧ classify table abbreviations r.1 = .ok r.2

end OptionGroup

theorem map_fst_readings (gs : List (OptionGroup α)) :
    (gs.flatMap OptionGroup.readings).map Prod.fst = gs.flatMap OptionGroup.args := by
  induction gs with
  | nil => rfl
  | cons g rest ih =>
    have hvalues : (g.values.map fun v => (v, Reading.plain (α := α))).map Prod.fst = g.values := by
      rw [List.map_map]
      exact List.map_id _
    rw [List.flatMap_cons, List.flatMap_cons, List.map_append, ih, OptionGroup.readings,
      List.map_cons, hvalues]
    rfl

theorem plain_or_option (gs : List (OptionGroup α)) :
    ∀ r ∈ gs.flatMap OptionGroup.readings, r.2.isPlain = true ∨ ∃ s, r.2 = .option s := by
  intro r hr
  obtain ⟨g, _, hr⟩ := List.mem_flatMap.mp hr
  rcases List.mem_cons.mp hr with rfl | hr
  · exact .inr ⟨_, rfl⟩
  · obtain ⟨v, _, rfl⟩ := List.mem_map.mp hr
    exact .inl rfl

/-! ## Groups one after the other -/

theorem following_append (values : List String) (rest : List (String × Reading α)) :
    following ((values.map fun v => (v, .plain)) ++ rest) = values ++ following rest := by
  induction values with
  | nil => rfl
  | cons v vs ih =>
    rw [List.map_cons, List.cons_append, following_cons, ih]
    rfl

/-- No value stands in front of groups. -/
theorem following_readings (gs : List (OptionGroup α)) :
    following (gs.flatMap OptionGroup.readings) = [] := by
  cases gs with
  | nil => rfl
  | cons g rest =>
    rw [List.flatMap_cons, OptionGroup.readings, List.cons_append, following_cons]
    rfl

theorem start_of_takesValues {s : Spelled α} (h : s.option.arity ≠ .none) :
    s.start table = match s.attached with
      | some value => .ok ([⟨s.option, attachedValues value⟩], none)
      | none => .ok ([], some s.option) := by
  unfold Spelled.start
  cases s.attached with
  | none => rfl
  | some value =>
    dsimp only
    rw [cluster_of_takesValues _ _ h, String.ofList_toList]

namespace OptionGroup

variable {g : OptionGroup α} {rest : List (String × Reading α)}

theorem Full.occurrence? (h : g.Full) (hrest : following rest = []) :
    g.spelled.occurrence? ((g.values.map fun v => (v, .plain)) ++ rest) = some g.occurrence := by
  obtain ⟨arg, ⟨option, spelling, attached⟩, values⟩ := g
  cases attached with
  | some value => rfl
  | none =>
    have hcount : valueCount option.arity values.length = some values.length := h.values
    unfold Spelled.occurrence?
    rw [following_append, hrest, List.append_nil]
    simp only [hcount, Option.map_some, List.take_length]
    rfl

/-- A full group in front of others gives its own occurrence. -/
theorem Full.collect (h : g.Full) (hrest : following rest = []) :
    Options.collect table (g.readings ++ rest) =
      (Options.collect table rest).after [g.occurrence] := by
  obtain ⟨arg, ⟨option, spelling, attached⟩, values⟩ := g
  rw [readings, List.cons_append, collect_option, start_of_takesValues h.takesValues]
  cases attached with
  | some value =>
    have hnil : values = [] := h.values
    subst hnil
    rfl
  | none =>
    have hcount : valueCount option.arity values.length = some values.length := h.values
    have hdrop : ((values.map fun v => (v, Reading.plain)) ++ rest).drop values.length = rest :=
      List.drop_left' (List.length_map _)
    dsimp only
    rw [following_append, hrest, List.append_nil]
    simp only [hcount]
    rw [hdrop, List.take_length]
    rfl

end OptionGroup

theorem collect_groups {gs : List (OptionGroup α)} (h : ∀ g ∈ gs, g.Full) :
    collect table (gs.flatMap OptionGroup.readings) =
      ⟨gs.map OptionGroup.occurrence, [], none⟩ := by
  induction gs with
  | nil => exact collect.eq_1 table
  | cons g rest ih =>
    obtain ⟨hg, hrest⟩ := List.forall_mem_cons.mp h
    rw [List.flatMap_cons, hg.collect (following_readings rest), ih hrest]
    rfl

theorem classifyAll_of_forall {abbreviations : Bool} {rs : List (String × Reading α)}
    (h : ∀ r ∈ rs, r.1 ≠ separator ∧ classify table abbreviations r.1 = .ok r.2) :
    classifyAll table abbreviations (rs.map Prod.fst) = .ok rs := by
  induction rs with
  | nil => rfl
  | cons r rest ih =>
    obtain ⟨⟨hsep, hreading⟩, hrest⟩ := List.forall_mem_cons.mp h
    rw [List.map_cons, classifyAll, if_neg (by simpa using hsep), hreading, ih hrest]
    rfl

/-- If all arguments are options or values, each one is read by itself, and none is a separator. -/
theorem readings_of_classifyAll {abbreviations : Bool} {args : List String}
    {rs : List (String × Reading α)} (h : classifyAll table abbreviations args = .ok rs)
    (hrs : ∀ r ∈ rs, r.2.isPlain = true ∨ ∃ s, r.2 = .option s) :
    rs.map Prod.fst = args ∧
      ∀ r ∈ rs, r.1 ≠ separator ∧ classify table abbreviations r.1 = .ok r.2 := by
  induction args generalizing rs with
  | nil =>
    cases h
    exact ⟨rfl, fun r hr => nomatch hr⟩
  | cons arg rest ih =>
    rcases classifyAll_cons_eq_ok h with rfl | ⟨reading, rs', hsep, hreading, hrest, rfl⟩
    · -- a separator is no value
      rcases hrs _ List.mem_cons_self with hplain | ⟨s, hs⟩
      · cases hplain
      · cases hs
    · obtain ⟨hargs, hreadings⟩ := ih hrest fun r hr => hrs r (List.mem_cons_of_mem _ hr)
      exact ⟨congrArg (List.cons arg) hargs,
        List.forall_mem_cons.mpr ⟨⟨hsep, hreading⟩, hreadings⟩⟩

/-- The arguments of full groups, one group after the other, have no fault, leave nothing over, and
are scanned to the occurrences of the groups. -/
theorem scan_groups {abbreviations : Bool} {gs : List (OptionGroup α)} (hfull : ∀ g ∈ gs, g.Full)
    (hstands : ∀ g ∈ gs, g.Stands table abbreviations) :
    scan table abbreviations (gs.flatMap OptionGroup.args) =
      .ok ⟨gs.map OptionGroup.occurrence, [], none⟩ := by
  have hreadings : ∀ r ∈ gs.flatMap OptionGroup.readings,
      r.1 ≠ separator ∧ classify table abbreviations r.1 = .ok r.2 := by
    intro r hr
    obtain ⟨g, hg, hr⟩ := List.mem_flatMap.mp hr
    exact hstands g hg r hr
  have hclassify := classifyAll_of_forall hreadings
  rw [map_fst_readings] at hclassify
  unfold scan
  rw [hclassify]
  exact congrArg Except.ok (collect_groups hfull)

/-! ## The groups of arguments -/

/-- The groups of classified arguments: each option with all values behind it. -/
def groups : List (String × Reading α) → List (OptionGroup α)
  | [] => []
  | (arg, .option s) :: rest => ⟨arg, s, following rest⟩ :: groups rest
  | _ :: rest => groups rest

/-- Values are no options, so leaving out some that follow leaves out no group. -/
theorem groups_drop {n : Nat} {rs : List (String × Reading α)} (h : n ≤ (following rs).length) :
    groups (rs.drop n) = groups rs :=
  of_drop (motive := fun rs' => groups (rs.drop n) = groups rs') (fun _ _ heq => heq) h rfl

theorem eq_following_append (rs : List (String × Reading α)) :
    rs = ((following rs).map fun v => (v, .plain)) ++ rs.drop (following rs).length := by
  induction rs with
  | nil => rfl
  | cons r rest ih =>
    obtain ⟨arg, reading⟩ := r
    rw [following_cons]
    cases reading with
    | plain =>
      show (arg, .plain) :: rest = (arg, .plain) :: _
      exact congrArg (List.cons _) ih
    | separator => rfl
    | unknown => rfl
    | option s => rfl

/-- A text attached to an option makes an occurrence of that option, if it has no fault. -/
theorem option_of_cluster {o : OptionForm α} {singleHyphen : Bool} {cs : List Char}
    {done : List (Occurrence α)} {last : Option (OptionForm α)}
    (h : cluster table o singleHyphen cs = .ok (done, last)) : ∃ d ∈ done, d.option = o := by
  induction o, singleHyphen, cs using cluster.induct table generalizing done last with
  | case1 o singleHyphen ha =>
    rw [cluster, if_pos ha] at h
    cases h
    exact ⟨_, List.mem_cons_self, rfl⟩
  | case2 o singleHyphen ha =>
    rw [cluster, if_neg ha] at h
    cases h
  | case3 o singleHyphen c rest ha =>
    simp only [cluster, ha, if_true] at h
    cases h
    exact ⟨_, List.mem_cons_self, rfl⟩
  | case4 o c rest ha next hn hr =>
    simp only [cluster, ha, hn, hr, if_true] at h
    cases h
    exact ⟨_, List.mem_cons_self, rfl⟩
  | case5 o c rest ha next hn hr _ =>
    simp only [cluster, ha, hn, hr] at h
    cases hc : cluster table next true rest with
    | error f => simp [hc, Except.map] at h
    | ok p =>
      simp only [hc, Except.map] at h
      cases h
      exact ⟨_, List.mem_cons_self, rfl⟩
  | case6 o singleHyphen c rest ha hn =>
    rw [cluster, if_neg ha] at h
    · cases h
    · exact hn

/-- What an option starts with is an occurrence of it, or the option itself with its values to
come. -/
theorem option_of_start {s : Spelled α} {done : List (Occurrence α)}
    {last : Option (OptionForm α)} (h : s.start table = .ok (done, last)) :
    (∃ o ∈ done, o.option = s.option) ∨ last = some s.option := by
  unfold Spelled.start at h
  split at h
  · exact .inl (option_of_cluster h)
  · cases h
    exact .inr rfl

/-- An option in front of groups, with the values between, is one group more. -/
theorem cons_eq_groups (arg : String) (s : Spelled α) {rest : List (String × Reading α)} {n : Nat}
    (hn : n ≤ (following rest).length)
    (hrest : rest.drop n = (groups (rest.drop n)).flatMap OptionGroup.readings) :
    n = (following rest).length ∧ (arg, .option s) :: rest =
      (groups ((arg, .option s) :: rest)).flatMap OptionGroup.readings := by
  have hlength : n = (following rest).length := by
    -- behind the first `n` values no value follows
    have hsplit := eq_following_append rest
    have hnone : following (rest.drop n) = [] := by
      rw [hrest]
      exact following_readings _
    rw [hsplit, List.drop_append, ← List.map_drop, following_append,
      List.append_eq_nil_iff, List.drop_eq_nil_iff] at hnone
    omega
  refine ⟨hlength, ?_⟩
  rw [groups, List.flatMap_cons, ← groups_drop hn, ← hrest, hlength, OptionGroup.readings,
    List.cons_append, ← eq_following_append]

/-- Arguments that are scanned without a fault, that leave nothing over and whose options all take
values are the arguments of full groups, one group after the other. The induction is on the steps of
`collect`: each of them takes one group. -/
theorem Collects.eq_groups {rs : List (String × Reading α)} {scan : Scan α}
    (h : Collects table rs scan) (hfault : scan.fault = none) (hleft : scan.leftover = [])
    (hvalues : ∀ o ∈ scan.occurrences, o.option.arity ≠ .none) :
    rs = (groups rs).flatMap OptionGroup.readings ∧
      scan.occurrences = (groups rs).map OptionGroup.occurrence ∧
      ∀ g ∈ groups rs, g.Full := by
  induction h with
  | nil => exact ⟨rfl, rfl, fun g hg => nomatch hg⟩
  | fault hstart => cases hfault
  | @complete arg s rest done scan hstart _ ih =>
    obtain ⟨hrest, hoccurrences, hfull⟩ := ih hfault hleft fun o ho =>
      hvalues o (List.mem_append_right _ ho)
    have htakes : s.option.arity ≠ .none := by
      rcases option_of_start hstart with ⟨o, ho, hoption⟩ | hlast
      · exact hoption ▸ hvalues o (List.mem_append_left _ ho)
      · cases hlast
    obtain ⟨hlength, heq⟩ := cons_eq_groups arg s (Nat.zero_le _) hrest
    have hnil : following rest = [] := List.eq_nil_of_length_eq_zero hlength.symm
    rw [start_of_takesValues htakes] at hstart
    split at hstart
    · rename_i value hattached
      cases hstart
      have hg : (⟨arg, s, following rest⟩ : OptionGroup α).Full :=
        ⟨htakes, by rw [hattached]; exact hnil⟩
      refine ⟨heq, ?_, by rw [groups]; exact List.forall_mem_cons.mpr ⟨hg, hfull⟩⟩
      rw [groups, List.map_cons, ← hoccurrences, OptionGroup.occurrence, hattached]
      rfl
    · cases hstart
  | missing hstart hcount => cases hfault
  | @takes arg s rest done o n scan hstart hcount _ ih =>
    obtain ⟨hrest, hoccurrences, hfull⟩ := ih hfault hleft fun o ho =>
      hvalues o (List.mem_append_right _ ho)
    have htakes : s.option.arity ≠ .none := by
      rcases option_of_start hstart with ⟨o', ho', hoption⟩ | hlast
      · exact hoption ▸ hvalues o' (List.mem_append_left _ (List.mem_append_left _ ho'))
      · cases hlast
        exact hvalues _ (List.mem_append_left _ (List.mem_append_right _
          (List.mem_singleton_self _)))
    have hn := valueCount_le hcount
    obtain ⟨hlength, heq⟩ := cons_eq_groups arg s hn hrest
    rw [groups_drop hn] at hoccurrences hfull
    rw [start_of_takesValues htakes] at hstart
    split at hstart
    · cases hstart
    · rename_i hattached
      cases hstart
      have hg : (⟨arg, s, following rest⟩ : OptionGroup α).Full :=
        ⟨htakes, by rw [hattached, hcount, hlength]⟩
      refine ⟨heq, ?_, by rw [groups]; exact List.forall_mem_cons.mpr ⟨hg, hfull⟩⟩
      rw [groups, List.map_cons, ← hoccurrences, OptionGroup.occurrence, hattached, hlength,
        List.take_length]
      rfl
  | other hother _ ih => cases hleft

end BootConfig.Options
