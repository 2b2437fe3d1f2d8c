import BootConfig.Proofs.Flags.Declared
import BootConfig.Proofs.Flags.Places
import BootConfig.Proofs.Failing

/-!
# Given flags

Flags that a command line accepts, laid over settings that have just been checked. Each one is
refused, or its value is held afterwards where its path leads to; but a flag of a section that is
unset is passed over, and nothing says so.

* `Schema.Proper.reaches_check`: a path through checked settings leads to its field, or on from
  something that is unset.
* `Schema.KeepsLeaves`, `Schema.Proper.foreseen_given`: what becomes of flags is known beforehand.
* `Schema.Proper.applyFlags_given`: what all of them come to.
-/

namespace BootConfig

open Options (Assignments CommandLine)

/-! ## Checked settings -/

/-- A value is prepared to be a value. -/
theorem FieldInfo.prepare_value (info : FieldInfo) (w : Value) :
    ∃ w', info.prepare (.value w) = .value w' := by
  unfold prepare
  split
  · exact ⟨_, rfl⟩
  · exact ⟨w, rfl⟩

namespace Schema

variable {s : Schema} {config : Setting} {path : List String} {f : Field}

/-- A path through checked settings leads to its field, or on from something that is unset. The
induction is on the path: a section on the way has itself been checked against its own schema. -/
theorem Proper.reaches_check (hs : s.Proper) {v : Value}
    (h : s.toType.check (.value v) = .ok config) (hf : s.fieldAt? path = some f) :
    config.isUnsetOn path = true ∨ s.Reaches config path f := by
  induction path generalizing s v config with
  | nil => cases hf
  | cons name path ih =>
    obtain ⟨es, _, hnil, rfl⟩ := check_group h
    have hheld : ∀ g, s.field? name = some g → ∃ w st, g.check (.value w) = .ok st ∧
        (Setting.group s.name (checkFields s.fields es).2).get? name = some st := by
      intro g hg
      have htells : ∀ f ∈ s.fields, ∀ input, (f.check input).TellsFault := fun f hf =>
        Field.tellsFault (hs.type f hf).tellsFault
      obtain ⟨w, st, _, hst, hlookup⟩ :=
        lookup_checkFields htells hs.distinct hnil g (List.mem_of_find?_eq_some hg)
      rw [name_of_field? hg] at hlookup
      exact ⟨w, st, hst, hlookup⟩
    obtain ⟨_, hpath, hf⟩ | ⟨_, below, g, inner, hpath, hne, hg, hinner, hbelow⟩ :=
      fieldAt?_cases hf
    · cases hpath
      obtain ⟨_, st, _, hget⟩ := hheld f hf
      exact .inr (.here hf hget)
    · cases hpath
      obtain ⟨w, st, hst, hget⟩ := hheld g hg
      obtain ⟨w', hw'⟩ := g.1.prepare_value w
      have hsection := (Field.check_eq_ok hst).1
      rw [hw'] at hsection
      have hunset : (st.isNull || st.isUnsetOn path) = true →
          (Setting.group s.name (checkFields s.fields es).2).isUnsetOn (name :: path) = true := by
        intro hunset
        rw [Setting.isUnsetOn, hget, Option.any_some, hunset]
        simpa using hne
      rcases FieldType.check_section hinner hsection with hnull | hgroup
      · exact .inl (hunset (by rw [hnull]; rfl))
      · rcases ih ((hs.type g (List.mem_of_find?_eq_some hg)).section hinner) hgroup hbelow with
          hbelow | hreaches
        · exact .inl (hunset (by rw [hbelow, Bool.or_true]))
        · obtain ⟨_, _, _, rfl⟩ := check_group hgroup
          exact .inr (.inside hg hget (FieldType.groupNamed?_of_section hinner) hreaches)

/-! ## Values at leaves -/

/-- Whether a path leads to a field that is no section. -/
def IsLeafAt (s : Schema) (path : List String) : Prop :=
  ∃ f, s.fieldAt? path = some f ∧ f.2.section? = none

/-- Paths to leaves do not go on from one another. -/
theorem IsLeafAt.eq_of_prefix {p q : List String} (hp : s.IsLeafAt p) (hq : s.IsLeafAt q)
    (h : p <+: q) : p = q := by
  obtain ⟨rest, rfl⟩ := h
  obtain ⟨f, hf, hleaf⟩ := hp
  obtain ⟨g, hg, _⟩ := hq
  rw [eq_nil_of_fieldAt?_append hf hleaf hg, List.append_nil]

theorem IsLeafAt.apart {p q : List String} (hp : s.IsLeafAt p) (hq : s.IsLeafAt q) (h : p ≠ q) :
    PathsApart p q :=
  ⟨fun hpq => h (hp.eq_of_prefix hq hpq), fun hqp => h (hq.eq_of_prefix hp hqp).symm⟩

/-- Settings in which the same sections are unset as in others on the way to leaves, and all other
leaves are there. -/
def KeepsLeaves (s : Schema) (config config' : Setting) : Prop :=
  ∀ path f, s.fieldAt? path = some f → f.2.section? = none →
    config'.isUnsetOn path = config.isUnsetOn path ∧
      (config.isUnsetOn path = true ∨ s.Reaches config' path f)

/-- What is put in the place of a leaf keeps the leaves. -/
theorem KeepsLeaves.putAt {config' : Setting} (h : s.KeepsLeaves config config')
    (hpath : s.IsLeafAt path) (new : Setting) : s.KeepsLeaves config (config'.putAt path new) := by
  intro q g hg hleaf
  have hprefix : path <+: q → path = q := hpath.eq_of_prefix ⟨g, hg, hleaf⟩
  obtain ⟨hunset, hreaches⟩ := h q g hg hleaf
  exact ⟨(Setting.isUnsetOn_putAt hprefix).trans hunset,
    hreaches.imp_right fun hreaches => hreaches.putAt hprefix⟩

/-- What becomes of a value that is given for a leaf: it is passed over if its path leads on from
something unset, and else checked. -/
def judgeGiven (s : Schema) (config : Setting) (a : String × Value) : Option (Checked Setting) :=
  if config.isUnsetOn (Flags.names a.1) then none else s.checkAt? (Flags.names a.1) a.2

/-- What becomes of values for leaves depends on the unset sections alone. -/
theorem foreseen_given {as : Assignments} (has : ∀ a ∈ as, s.IsLeafAt (Flags.names a.1)) :
    Flags.Foreseen s (s.KeepsLeaves config) (s.judgeGiven config) as where
  effect a ha config' hconfig := by
    obtain ⟨f, hf, hleaf⟩ := has a ha
    obtain ⟨hunset, hreaches⟩ := hconfig _ f hf hleaf
    unfold judgeGiven
    cases hpath : config.isUnsetOn (Flags.names a.1) with
    | true => exact applyAt_of_isUnsetOn a.2 (hunset.trans hpath)
    | false =>
      have hreaches := hreaches.resolve_left (by rw [hpath]; exact Bool.false_ne_true)
      rw [hreaches.applyAt, checkAt?, hf]
      rfl
  keeps a ha _ new hconfig _ := hconfig.putAt (has a ha) new

/-- The values that are judged are those whose paths do not lead on from something unset. -/
theorem isSome_judgeGiven (config : Setting) {a : String × Value}
    (ha : s.IsLeafAt (Flags.names a.1)) :
    (s.judgeGiven config a).isSome = !config.isUnsetOn (Flags.names a.1) := by
  obtain ⟨f, hf, _⟩ := ha
  unfold judgeGiven
  cases config.isUnsetOn (Flags.names a.1) with
  | true => rfl
  | false =>
    rw [checkAt?, hf]
    rfl

theorem checkAt?_of_judgeGiven {a : String × Value} {result : Checked Setting}
    (h : s.judgeGiven config a = some result) :
    s.checkAt? (Flags.names a.1) a.2 = some result := by
  unfold judgeGiven at h
  split at h
  · cases h
  · exact h

/-- Of values for different leaves each one that is accepted is held in the end. -/
theorem at?_putAll_accepted {as : Assignments} (hdistinct : as.Distinct)
    (has : ∀ a ∈ as, s.IsLeafAt (Flags.names a.1)) (hkeeps : s.KeepsLeaves config config)
    {a : String × Value} (ha : a ∈ as) {new : Setting}
    (hnew : s.judgeGiven config a = some (.ok new)) :
    (config.putAll (Flags.accepted (s.judgeGiven config) as)).at? (Flags.names a.1) =
      some new := by
  obtain ⟨before, after, rfl⟩ := List.append_of_mem ha
  have hapart : ∀ bs : Assignments, (∀ b ∈ bs, b ∈ before ++ a :: after ∧ b.1 ≠ a.1) →
      ∀ g ∈ Flags.accepted (s.judgeGiven config) bs, PathsApart g.1 (Flags.names a.1) := by
    intro bs hbs g hg
    obtain ⟨b, hb, hname, _⟩ := Flags.mem_accepted.mp hg
    obtain ⟨hmem, hne⟩ := hbs b hb
    rw [← hname]
    refine (has b hmem).apart (has a ha) fun heq => hne ?_
    rw [← Flags.dotted_names b.1, heq, Flags.dotted_names]
  have hnames : (before.map Prod.fst ++ a.1 :: after.map Prod.fst).Nodup := by
    rw [← List.map_cons, ← List.map_append]
    exact hdistinct
  have hbefore := hapart before fun b hb => ⟨List.mem_append_left _ hb, fun heq => by
    exact List.disjoint_of_nodup_append hnames (List.mem_map_of_mem hb) (by simp [heq])⟩
  have hafter := hapart after fun b hb => ⟨by simp [hb], fun heq => by
    exact (List.nodup_cons.mp hnames.of_append_right).1 (heq ▸ List.mem_map_of_mem hb)⟩
  -- nothing that is put before it is on the way
  have hheld : ((config.putAll (Flags.accepted (s.judgeGiven config) before)).at?
      (Flags.names a.1)).isSome = true := by
    obtain ⟨f, hf, hleaf⟩ := has a ha
    have hset : config.isUnsetOn (Flags.names a.1) = false := by
      have hjudged := isSome_judgeGiven config (has a ha)
      rw [hnew] at hjudged
      simpa using hjudged
    rw [Setting.at?_putAll_of_apart hbefore]
    exact ((hkeeps _ f hf hleaf).2.resolve_left (by simp [hset])).isSome_at?
  rw [Flags.accepted_append, Flags.accepted_cons hnew]
  have hlast : (config.putAll _).at? (Flags.names a.1 ++ []) = new.at? [] :=
    Setting.at?_putAll hheld (by simpa using hafter)
  rw [List.append_nil] at hlast
  exact hlast

/-! ## All flags -/

/-- The flags that are given set leaves, each of them once. -/
theorem Proper.isLeafAt_of_read (hs : s.Proper) {program : String} {description : Option String}
    {c : CommandLine} (hdeclare : (CommandLine.new program description).declareAll s.flags = .ok c)
    {args : List String} {as : Assignments} (hread : c.read args = .settings as) :
    as.Distinct ∧ ∀ a ∈ as, s.IsLeafAt (Flags.names a.1) := by
  obtain ⟨hdistinct, hpaths⟩ := CommandLine.paths_of_read hread
  refine ⟨hdistinct, fun a ha => ?_⟩
  obtain ⟨o, ho, hpurpose⟩ := hpaths a.1 (List.mem_map_of_mem ha)
  rw [CommandLine.options_declareAll hdeclare] at ho
  rcases List.mem_cons.mp ho with rfl | ho
  · cases hpurpose
  · exact hs.of_mem_flags ho hpurpose

/-- **A flag that is given is refused or takes effect, unless its section is unset.** Let a fresh
command line have the flags of a schema, accept an argument list, and let the values that it gives
be laid over settings that have just been checked. If one of them is refused, the application stops
with its faults. Else it does not stop; the flags that are applied are those whose paths do not lead
on from something unset, in the order of the paths, and so are all that have been given exactly if
no path does. At the path of each one that is applied the settings then hold what the check of its
field has made of the value. -/
theorem Proper.applyFlags_given (hs : s.Proper) {program : String} {description : Option String}
    {c : CommandLine} (hdeclare : (CommandLine.new program description).declareAll s.flags = .ok c)
    {v : Value} (hconfig : s.check v = .ok config) {args : List String} {as : Assignments}
    (hread : c.read args = .settings as) :
    let r := s.applyFlags config as
    (∃ a ∈ as, ∃ issues, s.checkAt? (Flags.names a.1) a.2 = some (.error issues) ∧
      r.stop = some (.refused issues)) ∨
    (r.stop = none ∧
      r.applied = (Flags.sorted as).filter (fun a => !config.isUnsetOn (Flags.names a.1)) ∧
      (r.applied.Perm as ↔ ∀ a ∈ as, config.isUnsetOn (Flags.names a.1) = false) ∧
      ∀ a ∈ r.applied, ∃ new, s.checkAt? (Flags.names a.1) a.2 = some (.ok new) ∧
        r.config.at? (Flags.names a.1) = some new) := by
  intro r
  obtain ⟨hdistinct, hleaves⟩ := hs.isLeafAt_of_read hdeclare hread
  have hkeeps : s.KeepsLeaves config config := fun path f hf _ =>
    ⟨rfl, hs.reaches_check hconfig hf⟩
  have hperm := Flags.sorted_perm as
  have hleaves : ∀ a ∈ Flags.sorted as, s.IsLeafAt (Flags.names a.1) := fun a ha =>
    hleaves a (hperm.mem_iff.mp ha)
  rcases (foreseen_given hleaves).run hkeeps with
    ⟨before, a, after, issues, hsorted, hrefused, _, _, hrun⟩ | ⟨hnone, _, hrun⟩
  · have ha : a ∈ as := hperm.mem_iff.mp (by simp [hsorted])
    refine .inl ⟨a, ha, issues, checkAt?_of_judgeGiven hrefused, ?_⟩
    show (Flags.applyEach s config [] (Flags.sorted as)).stop = _
    rw [hrun]
  · have hfilter : ((Flags.sorted as).filter fun a => (s.judgeGiven config a).isSome) =
        (Flags.sorted as).filter fun a => !config.isUnsetOn (Flags.names a.1) :=
      List.filter_congr fun a ha => isSome_judgeGiven config (hleaves a ha)
    have hr : r = ⟨config.putAll (Flags.accepted (s.judgeGiven config) (Flags.sorted as)),
        (Flags.sorted as).filter fun a => !config.isUnsetOn (Flags.names a.1), none⟩ := by
      rw [← hfilter]
      exact hrun
    rw [hr]
    refine .inr ⟨rfl, rfl, ?_, fun a ha => ?_⟩
    · constructor
      · intro hall a ha
        simpa using (List.mem_filter.mp (hall.mem_iff.mpr ha)).2
      · intro hset
        have hself : (Flags.sorted as).filter (fun a => !config.isUnsetOn (Flags.names a.1)) =
            Flags.sorted as :=
          List.filter_eq_self.mpr fun a ha => by rw [hset a (hperm.mem_iff.mp ha)]; rfl
        rw [hself]
        exact hperm
    · obtain ⟨ha, hset⟩ := List.mem_filter.mp ha
      rw [← isSome_judgeGiven config (hleaves a ha)] at hset
      obtain ⟨result, hjudge⟩ := Option.isSome_iff_exists.mp hset
      cases result with
      | error issues => exact (hnone a ha issues hjudge).elim
      | ok new =>
        have hdistinct : (Flags.sorted as).Distinct :=
          (hperm.map Prod.fst).nodup_iff.mpr hdistinct
        exact ⟨new, checkAt?_of_judgeGiven hjudge,
          at?_putAll_accepted hdistinct hleaves hkeeps ha hjudge⟩

/-- Two sections of one type, of which the second one is unset. -/
theorem applyFlags_given_unset :
    let field : String → Value → FieldType → Field := fun name default t =>
      (⟨name, some default, none, false, none⟩, t)
    let pool := FieldType.union .choice true [.group "Pool" [field "size" (.int 4) (.scalar .int)]]
    let s : Schema := ⟨"App", [field "name" (.string "a") (.scalar .text),
      field "main" (.map []) pool, field "spare" .null pool]⟩
    let args := ["--spare.size=9", "--name=b", "--main.size=8"]
    ∃ c config as, s.Proper ∧ (CommandLine.new "app" none).declareAll s.flags = .ok c ∧
      s.check (.map []) = .ok config ∧ c.read args = .settings as ∧
      (as.map fun a => (a.1, config.isUnsetOn (Flags.names a.1))) =
        [("spare.size", true), ("name", false), ("main.size", false)] ∧
      let r := s.applyFlags config as
      r.stop = none ∧
        r.applied = (Flags.sorted as).filter (fun a => !config.isUnsetOn (Flags.names a.1)) ∧
        (r.applied.Perm as ↔ ∀ a ∈ as, config.isUnsetOn (Flags.names a.1) = false) ∧
        ∀ a ∈ r.applied, ∃ new, s.checkAt? (Flags.names a.1) a.2 = some (.ok new) ∧
          r.config.at? (Flags.names a.1) = some new := by
  intro field pool s args
  have hpool : pool.Proper := by
    refine .union (by simp) (List.forall_mem_singleton.mpr (.group (by decide) (by decide) ?_))
    exact List.forall_mem_singleton.mpr (.scalar _)
  have hs : s.Proper := by
    refine .group (by decide) (by decide) ?_
    simp only [List.forall_mem_cons, s, field]
    exact ⟨.scalar _, hpool, hpool, by simp⟩
  let c : CommandLine := ⟨"app", none, Options.helpOption :: s.flags⟩
  have hdeclare : (CommandLine.new "app" none).declareAll s.flags = .ok c :=
    CommandLine.declareAll_of_not_spelled (by decide +kernel) (by decide +kernel)
  have hchecked : ((s.check (.map [])).toOption.any fun config =>
      (c.read args).settings?.any fun as =>
        (as.map fun a => (a.1, config.isUnsetOn (Flags.names a.1))) ==
            [("spare.size", true), ("name", false), ("main.size", false)] &&
          as.all fun a => !((s.checkAt? (Flags.names a.1) a.2).bind Checked.issues?).isSome) =
            true := by
    decide +kernel
  simp only [Option.any_eq_true, Bool.and_eq_true, beq_iff_eq, List.all_eq_true] at hchecked
  obtain ⟨config, hconfig, as, has, hnames, haccepted⟩ := hchecked
  have hconfig := eq_ok_of_toOption hconfig
  have has := Options.Request.settings?_eq_some has
  refine ⟨c, config, as, hs, hdeclare, hconfig, has, hnames, ?_⟩
  rcases hs.applyFlags_given hdeclare hconfig has with ⟨a, ha, issues, hrefused, _⟩ | hall
  · have haccepted := haccepted a ha
    rw [Flags.isSome_issues?.mpr ⟨issues, hrefused⟩] at haccepted
    cases haccepted
  · exact hall

/-- A flag for a section that is unset by default is accepted, and neither refused nor applied. -/
theorem applyFlags_drops :
    let sub := FieldType.group "Sub" [(⟨"x", some (.int 0), none, false, none⟩, .scalar .int)]
    let s : Schema :=
      ⟨"Model", [(⟨"sub", some .null, none, false, none⟩, .union .choice true [sub])]⟩
    ∃ c config as, (CommandLine.new "prog" none).declareAll s.flags = .ok c ∧
      s.defaults = .ok config ∧ c.read ["--sub.x=1"] = .settings as ∧
      as.map Prod.fst = ["sub.x"] ∧ (s.applyFlags config as).stop = none ∧
      (s.applyFlags config as).applied = [] := by
  intro sub s
  let c : CommandLine := ⟨"prog", none, Options.helpOption :: s.flags⟩
  have hdeclare : (CommandLine.new "prog" none).declareAll s.flags = .ok c :=
    CommandLine.declareAll_of_not_spelled (by decide +kernel) (by decide +kernel)
  have hchecked : (s.defaults.toOption.any fun config =>
      (c.read ["--sub.x=1"]).settings?.any fun as => as.map Prod.fst == ["sub.x"] &&
        (s.applyFlags config as).stop.isNone && (s.applyFlags config as).applied.isEmpty) =
          true := by
    decide +kernel
  simp only [Option.any_eq_true, Bool.and_eq_true, beq_iff_eq, Option.isNone_iff_eq_none,
    List.isEmpty_iff] at hchecked
  obtain ⟨config, hconfig, as, has, ⟨hnames, hstop⟩, happlied⟩ := hchecked
  exact ⟨c, config, as, hdeclare, eq_ok_of_toOption hconfig,
    Options.Request.settings?_eq_some has, hnames, hstop, happlied⟩

end Schema

end BootConfig
