import BootConfig.Proofs.Placeholder.Split

/-!
# Cutting a document

Where a document may be cut so that its parts can be expanded one by one. What is read depends on
the bytes that follow in two ways: a name goes on as long as name bytes follow, and a dollar sign
waits for a name or for braces that close. A cut is safe if neither reaches over it.

* `LeftOpen`, `Closed`: documents in which no `${` is left open.
* `Standing`: pieces that are read as they are in front of given bytes; `Standing.splits` reads
  them.
* `split_append`: the pieces of a document that is cut safely are those of its parts.
* `expand_cut`: so is its expansion; documents are expanded line by line.
-/

namespace BootConfig.Placeholder

variable {as bs : Bytes} {b : UInt8} {p : Piece} {ps qs : List Piece} {env : Environment}

/-- A `${` is left open: a dollar sign and a brace behind it are read as literal bytes. -/
def LeftOpen (ps : List Piece) : Prop := [.literal dollar, .literal openBrace] <:+: ps

theorem LeftOpen.cons (h : LeftOpen ps) : LeftOpen (p :: ps) :=
  h.trans (List.suffix_cons _ _).isInfix

/-- No `${` of a document is left open. -/
def Closed (config : Bytes) : Prop := ¬ LeftOpen (split config)

instance : DecidablePred Closed := fun config =>
  inferInstanceAs (Decidable (¬ [Piece.literal dollar, .literal openBrace] <:+: split config))

/-! ## Pieces and the bytes behind them -/

/-- What a piece of a document looks like: braces end at the first closing one, and a name is not
empty and has name bytes only. -/
def Piece.Legible : Piece → Prop
  | .literal _ => True
  | .braced token => closeBrace ∉ token
  | .bare name => name ≠ [] ∧ ∀ b ∈ name, isNameByte b = true

/-- Whether a piece ends where another byte follows, or nothing: a dollar sign does not if a name or
a brace follows, and a name does not if it goes on. -/
def Piece.EndsBefore (next : Option UInt8) : Piece → Prop
  | .literal b => b = dollar → ∀ c ∈ next, c ≠ openBrace ∧ isNameByte c = false
  | .braced _ => True
  | .bare _ => ∀ c ∈ next, isNameByte c = false

/-- Every piece ends in front of a byte that is neither a brace nor a name byte, and at the end. -/
theorem Piece.endsBefore_of_forall {next : Option UInt8}
    (h : ∀ c ∈ next, c ≠ openBrace ∧ isNameByte c = false) (p : Piece) : p.EndsBefore next := by
  cases p with
  | literal b => exact fun _ => h
  | braced _ => trivial
  | bare _ => exact fun c hc => (h c hc).2

theorem Piece.source_ne_nil (p : Piece) : p.source ≠ [] := by
  cases p <;> simp [Piece.source]

theorem Splits.legible (h : Splits bs ps) : ∀ p ∈ ps, p.Legible := by
  induction h with
  | nil => exact fun p hp => nomatch hp
  | placeholder hstarts _ ih =>
    refine List.forall_mem_cons.mpr ⟨?_, ih⟩
    cases hstarts with
    | braced hclosed => exact hclosed
    | bare hname hbytes _ => exact ⟨hname, hbytes⟩
  | literal _ _ ih => exact List.forall_mem_cons.mpr ⟨trivial, ih⟩

/-- Nothing is read from no bytes. -/
theorem Splits.eq_nil (h : Splits [] ps) : ps = [] := h.unique .nil

/-- Behind the dollar sign of a placeholder stands a brace or the first byte of a name. -/
theorem Starts.second {after : Bytes} (h : Starts (dollar :: bs) p after) :
    ∃ c ∈ bs.head?, c = openBrace ∨ isNameByte c = true := by
  generalize hbytes : dollar :: bs = bytes at h
  cases h with
  | braced _ =>
    cases hbytes
    exact ⟨openBrace, rfl, .inl rfl⟩
  | @bare name _ hname hname' _ =>
    cases hbytes
    obtain ⟨c, name, rfl⟩ := List.exists_cons_of_ne_nil hname
    exact ⟨c, rfl, .inr (hname' c List.mem_cons_self)⟩

/-- A name starts behind a dollar sign that a name byte follows. -/
theorem starts_bare (hb : isNameByte b = true) :
    Starts (dollar :: b :: bs) (.bare (b :: bs.takeWhile isNameByte))
      (bs.dropWhile isNameByte) := by
  have hopen : (b == openBrace) = false := by
    refine beq_false_of_ne ?_
    rintro rfl
    exact absurd hb (by decide)
  refine afterDollar_eq_some_iff.mp ?_
  rw [afterDollar, hopen, hb]
  rfl

/-- A byte that is no dollar sign is a piece by itself. -/
theorem Splits.literal_of_ne (hb : b ≠ dollar) (h : Splits bs ps) :
    Splits (b :: bs) (.literal b :: ps) := by
  refine .literal (fun p after hstarts => ?_) h
  obtain ⟨_, hdollar⟩ := hstarts.exists_cons
  exact hb (List.cons_eq_cons.mp hdollar).1

/-- A piece in front of bytes where it ends is read as it is. -/
theorem Piece.EndsBefore.splits (hends : p.EndsBefore bs.head?) (hp : p.Legible)
    (h : Splits bs ps) : Splits (p.source ++ bs) (p :: ps) := by
  cases p with
  | literal b =>
    by_cases hb : b = dollar
    · subst hb
      refine .literal (fun q after hstarts => ?_) h
      obtain ⟨c, hc, hsecond⟩ := hstarts.second
      obtain ⟨hopen, hname⟩ := hends rfl c hc
      rcases hsecond with rfl | hsecond
      · exact hopen rfl
      · rw [hname] at hsecond
        cases hsecond
    · exact h.literal_of_ne hb
  | braced token =>
    have hsource : (Piece.braced token).source ++ bs =
        dollar :: openBrace :: (token ++ closeBrace :: bs) := by simp [Piece.source]
    rw [hsource]
    exact .placeholder (.braced hp) h
  | bare name => exact .placeholder (.bare hp.1 hp.2 hends) h

/-! ## Pieces that stand in front of bytes -/

/-- Pieces that look like pieces of a document and end where the next one starts, the last one where
`bs` starts. -/
inductive Standing (bs : Bytes) : List Piece → Prop
  | nil : Standing bs []
  | cons {p : Piece} {ps : List Piece} (hp : p.Legible)
      (hends : p.EndsBefore (ps.flatMap Piece.source ++ bs).head?) (hps : Standing bs ps) :
      Standing bs (p :: ps)

/-- Pieces that stand in front of bytes are read as they are. -/
theorem Standing.splits (h : Standing bs ps) (hbs : Splits bs qs) :
    Splits (ps.flatMap Piece.source ++ bs) (ps ++ qs) := by
  induction h with
  | nil => exact hbs
  | cons hp hends _ ih =>
    rw [List.flatMap_cons, List.append_assoc]
    exact hends.splits hp ih

/-- A dollar sign that starts no placeholder is at the end, or an open `${` starts with it, or
another byte follows. -/
theorem Splits.endsBefore_of_literal
    (hnone : ∀ p after, ¬ Starts (b :: bs) p after) (h : Splits bs ps)
    (hclosed : ¬ LeftOpen (.literal b :: ps)) :
    (Piece.literal b).EndsBefore bs.head? := by
  rintro rfl c hc
  obtain ⟨bs, rfl⟩ : ∃ bs', bs = c :: bs' := ⟨_, List.eq_cons_of_mem_head? hc⟩
  constructor
  · rintro rfl
    cases h with
    | placeholder hstarts _ =>
      obtain ⟨_, hdollar⟩ := hstarts.exists_cons
      exact absurd (List.cons_eq_cons.mp hdollar).1 (by decide)
    | literal _ _ => exact hclosed ⟨[], _, rfl⟩
  · refine Bool.eq_false_iff.mpr fun hname => ?_
    exact hnone _ _ (starts_bare hname)

/-- The bytes behind a placeholder do not belong to it. -/
theorem Starts.endsBefore {rest : Bytes} (h : Starts as p rest) : p.EndsBefore rest.head? := by
  cases h with
  | braced _ => trivial
  | bare _ _ hrest => exact hrest

/-- A piece ends where what is left of the document starts, or else it is the last one. -/
theorem Splits.endsBefore_behind {rest : Bytes} (hrest : Splits rest ps)
    (hends : p.EndsBefore rest.head?) (hlast : ∀ q ∈ (p :: ps).getLast?, q.EndsBefore bs.head?) :
    p.EndsBefore (ps.flatMap Piece.source ++ bs).head? := by
  rw [hrest.flatMap_source]
  cases rest with
  | nil =>
    obtain rfl := hrest.eq_nil
    exact hlast p rfl
  | cons c rest => exact hends

theorem endsBefore_last {next : Option UInt8} (h : ∀ q ∈ (p :: ps).getLast?, q.EndsBefore next) :
    ∀ q ∈ ps.getLast?, q.EndsBefore next := by
  intro q hq
  refine h q ?_
  rw [List.getLast?_cons, Option.mem_def.mp hq]
  rfl

/-- The pieces of a document in which no `${` is left open stand in front of all bytes where the
last one ends. -/
theorem Splits.standing (h : Splits as ps) (hclosed : ¬ LeftOpen ps)
    (hlast : ∀ p ∈ ps.getLast?, p.EndsBefore bs.head?) : Standing bs ps := by
  induction h with
  | nil => exact .nil
  | placeholder hstarts hrest ih =>
    have hlegible := (Splits.placeholder hstarts hrest).legible _ List.mem_cons_self
    have hends := hrest.endsBefore_behind hstarts.endsBefore hlast
    exact .cons hlegible hends (ih (mt LeftOpen.cons hclosed) (endsBefore_last hlast))
  | literal hnone hrest ih =>
    have hends := hrest.endsBefore_of_literal hnone hclosed
    exact .cons trivial (hrest.endsBefore_behind hends hlast)
      (ih (mt LeftOpen.cons hclosed) (endsBefore_last hlast))

/-! ## Safe cuts -/

/-- The pieces of two documents put together are those of the one and of the other, if no `${` is
left open in the first one and its last piece ends where the second one starts. -/
theorem split_append (hclosed : Closed as)
    (hlast : ∀ p ∈ (split as).getLast?, p.EndsBefore bs.head?) :
    split (as ++ bs) = split as ++ split bs := by
  have hstanding := (splits_split as).standing hclosed hlast
  have hsplits := hstanding.splits (splits_split bs)
  rw [(splits_split as).flatMap_source] at hsplits
  exact splits_iff.mp hsplits

/-- Documents whose pieces are put together have their expansions put together. -/
theorem expand_of_split {config : Bytes} (h : split config = split as ++ split bs)
    (env : Environment) : expand env config = do
      let before ← expand env as
      let after ← expand env bs
      return before ++ after := by
  simp [expand, h, List.mapM_append, List.flatten_append]

/-- The last byte of a document is the last one of its last piece. -/
theorem getLast?_of_literal (h : (split as).getLast? = some (.literal b)) :
    as.getLast? = some b := by
  obtain ⟨before, hbefore⟩ := List.getLast?_eq_some_iff.mp h
  rw [← (splits_split as).flatMap_source, hbefore, List.flatMap_append]
  exact List.getLast?_concat

/-- A document may be cut behind any byte but a dollar sign, unless a name goes on. -/
theorem endsBefore_of_cut (hdollar : as.getLast? ≠ some dollar)
    (hbare : ¬ ((∃ name, (split as).getLast? = some (.bare name)) ∧
      ∃ c ∈ bs.head?, isNameByte c = true)) :
    ∀ p ∈ (split as).getLast?, p.EndsBefore bs.head? := by
  intro p hp
  cases p with
  | literal b =>
    rintro rfl
    exact absurd (getLast?_of_literal hp) hdollar
  | braced _ => trivial
  | bare name =>
    intro c hc
    exact Bool.eq_false_iff.mpr fun hname => hbare ⟨⟨name, hp⟩, c, hc, hname⟩

/-! ## Lines -/

def newline : UInt8 := 0x0A

/-- Every piece ends where a line does. -/
theorem Piece.endsBefore_newline (p : Piece) : p.EndsBefore (newline :: bs).head? := by
  refine p.endsBefore_of_forall fun c hc => ?_
  cases hc
  decide

/-- A line that leaves no `${` open is expanded by itself. -/
theorem expand_line (env : Environment) (hclosed : Closed as) (bs : Bytes) :
    expand env (as ++ newline :: bs) = do
      let line ← expand env as
      let after ← expand env bs
      return line ++ newline :: after := by
  have hsplit : split (as ++ newline :: bs) = split as ++ .literal newline :: split bs := by
    have hnewline := (splits_split bs).literal_of_ne (b := newline) (by decide)
    rw [split_append hclosed fun p _ => p.endsBefore_newline, splits_iff.mp hnewline]
  simp only [expand, hsplit, List.mapM_append, List.mapM_cons, Piece.replacement, bind_assoc,
    pure_bind, List.flatten_append, List.flatten_cons]
  rfl

/-- Lines that leave no `${` open are expanded one by one. -/
theorem expand_intercalate (env : Environment) {lines : List Bytes} (hne : lines ≠ [])
    (h : ∀ line ∈ lines, Closed line) :
    expand env ([newline].intercalate lines) = do
      let parts ← lines.mapM (expand env)
      return [newline].intercalate parts := by
  induction lines with
  | nil => exact absurd rfl hne
  | cons line rest ih =>
    obtain ⟨hline, hrest⟩ := List.forall_mem_cons.mp h
    cases rest with
    | nil => simp [List.intercalate_singleton]
    | cons line' rest =>
      rw [List.intercalate_cons_cons, List.append_assoc, List.singleton_append,
        expand_line env hline, ih (List.cons_ne_nil _ _) hrest]
      simp [List.intercalate_cons_cons]

/-- **Expansion and safe cuts.** A document is cut safely if the first part leaves no `${` open,
does not end with a dollar sign, and does not end with a name that the second part goes on with.
Then its expansion is that of the two parts, put together, and fails as one of them does. In
particular a document whose lines leave no `${` open is expanded line by line. -/
theorem expand_cut (env : Environment) :
    (∀ as bs, Closed as → as.getLast? ≠ some dollar →
      ¬ ((∃ name, (split as).getLast? = some (.bare name)) ∧
        ∃ c ∈ bs.head?, isNameByte c = true) →
      expand env (as ++ bs) = do
        let before ← expand env as
        let after ← expand env bs
        return before ++ after) ∧
    ∀ config, (∀ line ∈ config.splitOn newline, Closed line) →
      expand env config = do
        let parts ← (config.splitOn newline).mapM (expand env)
        return [newline].intercalate parts := by
  constructor
  · intro as bs hclosed hdollar hbare
    have hlast := endsBefore_of_cut hdollar hbare
    exact expand_of_split (split_append hclosed hlast) env
  · intro config hlines
    have hexpand := expand_intercalate env (List.splitOn_ne_nil newline config) hlines
    rwa [List.intercalate_splitOn] at hexpand

/-- A cut behind a name and in front of a brace that stays open, and a document of two lines of
which the first one ends with a dollar sign. -/
theorem expand_cut_openBehind :
    let env : Environment :=
      ⟨[(Text.ofString "A", Text.ofString "$\x7b"), (Text.ofString "B", .empty)]⟩
    let before := Utf8.ofString "$\x7bB:$\x7d$A"
    let after := Utf8.ofString "-$\x7bA"
    let config := Utf8.ofString "$B$\n$A"
    Closed before ∧ before.getLast? ≠ some dollar ∧
      ¬ ((∃ name, (split before).getLast? = some (.bare name)) ∧
        ∃ c ∈ after.head?, isNameByte c = true) ∧
      expand env (before ++ after) = .ok (Utf8.ofString "$$\x7b-$\x7bA") ∧
      (∀ line ∈ config.splitOn newline, Closed line) ∧
      expand env config = .ok (Utf8.ofString "$\n$\x7b") := by
  intro env before after config
  obtain ⟨hcut, hlines⟩ := expand_cut env
  have hclosed : Closed before := by decide +kernel
  have hdollar : before.getLast? ≠ some dollar := by decide +kernel
  have hbare : ¬ ((∃ name, (split before).getLast? = some (.bare name)) ∧
      ∃ c ∈ after.head?, isNameByte c = true) := by
    rintro ⟨-, hname⟩
    revert hname
    decide +kernel
  have hlineClosed : ∀ line ∈ config.splitOn newline, Closed line := by decide +kernel
  refine ⟨hclosed, hdollar, hbare, ?_, hlineClosed, ?_⟩
  · rw [hcut before after hclosed hdollar hbare]
    exact eq_ok_of_toOption (by decide +kernel)
  · rw [hlines config hlineClosed]
    exact eq_ok_of_toOption (by decide +kernel)

end BootConfig.Placeholder
