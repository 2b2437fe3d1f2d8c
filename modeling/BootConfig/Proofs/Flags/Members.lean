import BootConfig.Proofs.Data.KeyIdentity
import BootConfig.Proofs.Flags.Single

/-!
# Members named by flags

The flag of a choice takes a word in any letter case. A member is named by its own text, but if
members have the same text up to case, then only the last one of them can be named.

* `Scalar.text?`, `Scalar.SameWord`: the texts of members.
* `Enumeration.named?_eq_some`: the member that a word names.
* `Schema.read_member`: what the flag of a choice makes of a text.
-/

namespace BootConfig

open Options (Arity CommandLine CommandOption Conversion NoEquals find?)

/-! ## Words -/

namespace Scalar

/-- The text of a member: a text itself, and a number as it is written. There is none for an integer
that is too long, and none for other values, which are no members. -/
def text? : Scalar → Option Text
  | .text t => some t
  | .int n => (Numeral.intText? n).map Text.ofString
  | .double d => some (Text.ofString d.text)
  | _ => none

/-- Members whose texts differ in letter case at most. -/
def SameWord (m m' : Scalar) : Prop := m.text?.map Text.toLower = m'.text?.map Text.toLower

instance : DecidableRel SameWord := fun _ _ => inferInstanceAs (Decidable (_ = _))

variable {m m' : Scalar} {word : Text}

/-- What a word is compared with is the text of a member. -/
theorem plain_of_text? (h : m.text? = some word) : m.plain = word := by
  cases m with
  | text t => exact Option.some.inj h
  | int n =>
    simp only [text?, Option.map_eq_some_iff] at h
    obtain ⟨s, hs, rfl⟩ := h
    simp only [plain, quoted?, hs, Option.getD_some]
  | double d => exact Option.some.inj h
  | _ => cases h

theorem text?_eq_some (h : m.text?.isSome = true) : m.text? = some m.plain := by
  obtain ⟨word, hword⟩ := Option.isSome_iff_exists.mp h
  rw [hword, plain_of_text? hword]

theorem sameWord_iff (h : m.text?.isSome = true) (h' : m'.text?.isSome = true) :
    m.SameWord m' ↔ m.plain.toLower = m'.plain.toLower := by
  rw [SameWord, text?_eq_some h, text?_eq_some h', Option.map_some, Option.map_some,
    Option.some.injEq]

end Scalar

/-! ## Named members -/

namespace Enumeration

variable {e : Enumeration} {m : Scalar} {word : Text}

/-- A word names the last member whose text it is up to case. -/
theorem named?_eq_some : e.named? word = some m ↔ m.plain.toLower = word.toLower ∧
    ∃ earlier later, e.members = earlier ++ m :: later ∧
      ∀ m' ∈ later, m'.plain.toLower ≠ word.toLower := by
  rw [named?, List.find?_eq_some_iff_append, beq_iff_eq]
  refine and_congr_right fun _ => ?_
  constructor
  · rintro ⟨later, earlier, hsplit, hlater⟩
    refine ⟨earlier.reverse, later.reverse, ?_, fun m' hm' => ?_⟩
    · rw [← List.reverse_reverse e.members, hsplit, List.reverse_append, List.reverse_cons,
        List.append_assoc, List.singleton_append]
    · simpa using hlater m' (List.mem_reverse.mp hm')
  · rintro ⟨earlier, later, hsplit, hlater⟩
    refine ⟨later.reverse, earlier.reverse, ?_, fun m' hm' => ?_⟩
    · rw [hsplit, List.reverse_append, List.reverse_cons, List.append_assoc,
        List.singleton_append]
    · simpa using hlater m' (List.mem_reverse.mp hm')

theorem named?_eq_none : e.named? word = none ↔
    ∀ m ∈ e.members, m.plain.toLower ≠ word.toLower := by
  simp [named?]

/-- The text of a member names the last one that has the same text up to case. -/
theorem named?_text (htexts : ∀ m ∈ e.members, m.text?.isSome = true) (hm : m ∈ e.members)
    (hword : m.text? = some word) : ∃ earlier chosen later,
      e.members = earlier ++ chosen :: later ∧ chosen.SameWord m ∧
        (∀ m' ∈ later, ¬ m'.SameWord m) ∧ e.named? word = some chosen := by
  have hplain := Scalar.plain_of_text? hword
  cases hnamed : e.named? word with
  | none => exact (named?_eq_none.mp hnamed m hm (by rw [hplain])).elim
  | some chosen =>
    obtain ⟨hsame, earlier, later, hsplit, hlater⟩ := named?_eq_some.mp hnamed
    have hmembers : ∀ m' ∈ chosen :: later, m'.text?.isSome = true := fun m' hm' =>
      htexts m' (by rw [hsplit]; exact List.mem_append_right _ hm')
    refine ⟨earlier, chosen, later, hsplit, ?_, fun m' hm' hword' => hlater m' hm' ?_, rfl⟩
    · rw [Scalar.sameWord_iff (hmembers _ List.mem_cons_self) (htexts m hm), hplain, hsame]
    · rwa [Scalar.sameWord_iff (hmembers _ (List.mem_cons_of_mem _ hm')) (htexts m hm),
        hplain] at hword'

/-- Of unequal members one is named by its text exactly if no other one behind it has the same text
up to case. -/
theorem named?_text_iff (htexts : ∀ m ∈ e.members, m.text?.isSome = true)
    (hdistinct : e.members.Pairwise fun m m' => m.sameKey m' = false)
    {earlier later : List Scalar} (hsplit : e.members = earlier ++ m :: later)
    (hword : m.text? = some word) :
    e.named? word = some m ↔ ∀ m' ∈ later, ¬ m'.SameWord m := by
  have hplain := Scalar.plain_of_text? hword
  have hm : m.text?.isSome = true := by rw [hword]; rfl
  have hlater : (∀ m' ∈ later, ¬ m'.SameWord m) ↔
      ∀ m' ∈ later, m'.plain.toLower ≠ word.toLower := by
    refine forall₂_congr fun m' hm' => not_congr ?_
    rw [Scalar.sameWord_iff (htexts m' (by simp [hsplit, hm'])) hm, hplain]
  rw [hlater, named?_eq_some]
  refine ⟨fun ⟨_, earlier', later', hsplit', hnone⟩ => ?_,
    fun hnone => ⟨by rw [hplain], earlier, later, hsplit, hnone⟩⟩
  -- there is but one place where the members can be split
  rw [hsplit, List.pairwise_append, List.pairwise_cons] at hdistinct
  obtain ⟨_, ⟨hbehind, _⟩, hbefore⟩ := hdistinct
  have hself := Scalar.sameKey_self m
  have hearlier : m ∉ earlier := fun hmem => by
    rw [hbefore m hmem m List.mem_cons_self] at hself
    cases hself
  have hafter : m ∉ later := fun hmem => by
    rw [hbehind m hmem] at hself
    cases hself
  obtain ⟨_, _, rfl⟩ :=
    (List.append_cons_inj_of_notMem hearlier hafter).mp (hsplit.symm.trans hsplit')
  exact hnone

/-- If no two members have the same text up to case, each one is named by its text in any case. -/
theorem named?_iff_of_distinct (h : (e.members.map fun m => m.plain.toLower).Nodup) :
    e.named? word = some m ↔ m ∈ e.members ∧ m.plain.toLower = word.toLower := by
  rw [named?_eq_some, and_comm]
  refine and_congr_left fun hword => ⟨?_, fun hm => ?_⟩
  · rintro ⟨earlier, later, hsplit, _⟩
    simp [hsplit]
  · obtain ⟨earlier, later, hsplit⟩ := List.append_of_mem hm
    refine ⟨earlier, later, hsplit, fun m' hm' hsame => ?_⟩
    rw [hsplit, List.map_append, List.map_cons] at h
    refine (List.nodup_cons.mp h.of_append_right).1 (List.mem_map.mpr ⟨m', hm', ?_⟩)
    exact hsame.trans hword.symm

end Enumeration

/-! ## The flag of a choice -/

theorem FieldType.arity_of_member {t : FieldType} {a : Arity} {e : Enumeration}
    (h : t.flagForm? = some (a, .member e)) : a = .one := by
  fun_induction flagForm? t with
  | case5 item =>
    rcases item with _ | item
    · cases h
    · cases item <;> cases h
  | case6 => exact (congrArg Prod.fst (Option.some.inj h)).symm
  | case7 style nullable t ih => exact ih h
  | _ => cases h

/-- A flag that takes a member takes one of them, for the path of its field. -/
theorem Schema.of_mem_flags_member {s : Schema} {o : CommandOption} {e : Enumeration}
    (ho : o ∈ s.flags) (he : o.meaning.conversion = .member e) :
    o.arity = .one ∧ ∃ path, o.meaning.purpose = .setting path := by
  obtain ⟨p, _, _, hflag⟩ := Schema.mem_flags.mp ho
  obtain ⟨⟨a, conversion⟩, hform, rfl⟩ := Option.map_eq_some_iff.mp hflag
  cases (show conversion = .member e from he)
  exact ⟨FieldType.arity_of_member hform, Flags.dotted p.1, rfl⟩

namespace Options.CommandLine

variable {c : CommandLine} {o : CommandOption} {e : Enumeration} {args : List String}
  {path word : String}

/-- The arguments for a choice with one text give the member that the text names. -/
theorem Presents.read_named (h : c.Presents args o [word])
    (hpath : o.meaning.purpose = .setting path) (harity : o.arity = .one)
    (he : o.meaning.conversion = .member e) :
    c.read args = match e.named? (Text.ofString word) with
      | some m => .settings [(path, .scalar m)]
      | none => .refused (.value o.spellings (.noMember e word)) := by
  rw [h.read hpath, harity, he, Conversion.readAll, Conversion.read]
  cases e.named? (Text.ofString word) <;> rfl

end Options.CommandLine

/-- **A choice takes the last member that has the given text up to case.** Let a flag of some schema
take one of several members, each of which is a text or a number that can be written, and let the
flag be given a text on any command line that has it. If it is the text of a member, then it is
accepted, and gives a member with the same text up to case, behind which there is no other one. Of
members that are unequal it gives exactly the one whose text it is if and only if no member behind
that one has the same text up to case. And any text whatsoever is refused, or gives a member whose
text it is up to case. -/
theorem Schema.read_member {s : Schema} {o : CommandOption} (ho : o ∈ s.flags) {e : Enumeration}
    (he : o.meaning.conversion = .member e) (htexts : ∀ m ∈ e.members, m.text?.isSome = true)
    (c : CommandLine) :
    ∃ path, o.meaning.purpose = .setting path ∧
      (∀ m ∈ e.members, ∀ args word, m.text? = some (Text.ofString word) →
        c.Presents args o [word] → ∃ earlier chosen later,
          e.members = earlier ++ chosen :: later ∧ chosen.SameWord m ∧
          (∀ m' ∈ later, ¬ m'.SameWord m) ∧ c.read args = .settings [(path, .scalar chosen)]) ∧
      ((e.members.Pairwise fun m m' => m.sameKey m' = false) → ∀ earlier m later,
        e.members = earlier ++ m :: later → ∀ args word, m.text? = some (Text.ofString word) →
        c.Presents args o [word] →
          (c.read args = .settings [(path, .scalar m)] ↔ ∀ m' ∈ later, ¬ m'.SameWord m)) ∧
      ∀ args word, c.Presents args o [word] →
        c.read args = .refused (.value o.spellings (.noMember e word)) ∨
        ∃ m ∈ e.members, c.read args = .settings [(path, .scalar m)] ∧
          m.text?.map Text.toLower = some (Text.ofString word).toLower := by
  obtain ⟨harity, path, hpath⟩ := Schema.of_mem_flags_member ho he
  refine ⟨path, hpath, ?_, ?_, ?_⟩
  · intro m hm args word hword hpresents
    obtain ⟨earlier, chosen, later, hsplit, hsame, hlater, hnamed⟩ :=
      Enumeration.named?_text htexts hm hword
    refine ⟨earlier, chosen, later, hsplit, hsame, hlater, ?_⟩
    rw [hpresents.read_named hpath harity he, hnamed]
  · intro hdistinct earlier m later hsplit args word hword hpresents
    rw [← Enumeration.named?_text_iff htexts hdistinct hsplit hword,
      hpresents.read_named hpath harity he]
    cases e.named? (Text.ofString word) <;> simp
  · intro args word hpresents
    rw [hpresents.read_named hpath harity he]
    cases hnamed : e.named? (Text.ofString word) with
    | none => exact .inl rfl
    | some m =>
      obtain ⟨hsame, earlier, later, hsplit, _⟩ := Enumeration.named?_eq_some.mp hnamed
      have hm : m ∈ e.members := by simp [hsplit]
      refine .inr ⟨m, hm, rfl, ?_⟩
      rw [Scalar.text?_eq_some (htexts m hm), Option.map_some, hsame]

/-- Two texts that differ in case, and a number between them that looks like an option. -/
theorem Schema.read_member_mixed :
    let text := fun word => Scalar.text (Text.ofString word)
    let e : Enumeration := ⟨"Mode", [text "Fast", .int (-3), text "FAST"], false⟩
    let run := FieldType.group "Run" [(⟨"mode", none, none, false, none⟩, .enumeration e)]
    let s : Schema :=
      ⟨"Model", [(⟨"run", some .null, none, false, none⟩, .union .choice true [run])]⟩
    ∃ c o, (CommandLine.new "prog" none).declareAll s.flags = .ok c ∧ o ∈ s.flags ∧
      o.meaning.conversion = .member e ∧ (∀ m ∈ e.members, m.text?.isSome = true) ∧
      (e.members.Pairwise fun m m' => m.sameKey m' = false) ∧
      c.read ["--run.mode=-3"] = .settings [("run.mode", .int (-3))] ∧
      c.read ["--run.mode", "Fast"] ≠ .settings [("run.mode", .string "Fast")] := by
  intro text e run s
  let c : CommandLine := ⟨"prog", none, Options.helpOption :: s.flags⟩
  let o : CommandOption := Flags.option "run.mode" none .one (.member e)
  have hflags : s.flags = [o] := rfl
  have hdeclare : (CommandLine.new "prog" none).declareAll s.flags = .ok c :=
    CommandLine.declareAll_of_not_spelled (by decide +kernel) (by decide +kernel)
  have htexts : ∀ m ∈ e.members, m.text?.isSome = true := by decide +kernel
  have hdistinct : e.members.Pairwise fun m m' => m.sameKey m' = false := by decide +kernel
  have hequals : NoEquals c.options := by decide +kernel
  have ho : find? c.options "--run.mode" = some o := rfl
  have hnumber : c.Presents ["--run.mode=-3"] o ["-3"] :=
    CommandLine.presents_attached hequals ho (by decide) (by decide) "-3"
  have hword : c.Presents ["--run.mode", "Fast"] o ["Fast"] :=
    CommandLine.presents_following hequals ho (by decide) (by decide) (by decide) rfl
      (List.forall_mem_singleton.mpr ⟨by decide, Options.classify_of_not_hyphen (by decide)⟩)
  have hmember : o.meaning.conversion = .member e := rfl
  obtain ⟨path, hpath, _, hexact, _⟩ :=
    read_member (hflags ▸ List.mem_singleton_self o) hmember htexts c
  cases (show Options.Purpose.setting "run.mode" = .setting path from hpath)
  refine ⟨c, o, hdeclare, hflags ▸ List.mem_singleton_self o, rfl, htexts, hdistinct, ?_, ?_⟩
  · exact (hexact hdistinct [text "Fast"] (.int (-3)) [text "FAST"] rfl _ "-3" (by decide +kernel)
      hnumber).mpr (by decide +kernel)
  · refine mt (hexact hdistinct [] (text "Fast") [.int (-3), text "FAST"] rfl _ "Fast"
      (by decide +kernel) hword).mp (by decide +kernel)

/-- Two letters that differ in case: the first one cannot be chosen. -/
theorem Schema.read_member_otherCase :
    let e : Enumeration :=
      ⟨"Letter", [.text (Text.ofString "a"), .text (Text.ofString "A")], false⟩
    let s : Schema := ⟨"Model", [(⟨"x", some (.string "a"), none, false, none⟩, .enumeration e)]⟩
    ∃ c o, (CommandLine.new "prog" none).declareAll s.flags = .ok c ∧ o ∈ s.flags ∧
      o.meaning.conversion = .member e ∧ (e.members.Pairwise fun m m' => m.sameKey m' = false) ∧
      c.Presents ["--x=a"] o ["a"] ∧ c.read ["--x=a"] = .settings [("x", .string "A")] := by
  intro e s
  let c : CommandLine := ⟨"prog", none, Options.helpOption :: s.flags⟩
  let o : CommandOption := Flags.option "x" none .one (.member e)
  have hflags : s.flags = [o] := rfl
  have hequals : NoEquals c.options := by decide +kernel
  have hpresents : c.Presents ["--x=a"] o ["a"] :=
    CommandLine.presents_attached (x := "--x") hequals rfl (by decide) (by decide) "a"
  have hnamed : e.named? (Text.ofString "a") = some (.text (Text.ofString "A")) := by
    decide +kernel
  refine ⟨c, o, CommandLine.declareAll_of_not_spelled (by decide +kernel) (by decide +kernel),
    hflags ▸ List.mem_singleton_self o, rfl, by decide +kernel, hpresents, ?_⟩
  rw [hpresents.read_named rfl rfl rfl, hnamed]
  rfl

end BootConfig
