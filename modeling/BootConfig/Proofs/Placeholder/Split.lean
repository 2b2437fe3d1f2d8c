import BootConfig.Proofs.Failing
import BootConfig.Proofs.Load.Typed
import Mathlib.Data.List.Forall2
import Mathlib.Data.List.TakeWhile

/-!
# The pieces of a document

What the pieces of a raw document are, said without the functions that find them, and what each of
them is replaced by. Every document has its pieces in exactly one way.

* `Starts`: a placeholder at the front of bytes, and the bytes behind it.
* `Splits`, `splits_iff`: the pieces of a document from left to right are those that `split` finds.
* `Replaces`: what a piece is replaced by.
* `expand_eq_replacements`: the expansion is the replacements of the pieces, one after the other.
-/

namespace BootConfig.Placeholder

variable {bs rest after token name : Bytes} {p : Piece} {ps : List Piece} {env : Environment}

/-! ## Placeholders at the front -/

/-- A placeholder at the front of bytes, and the bytes behind it: in braces, up to the first closing
one, or all name bytes behind the dollar sign, one at least. -/
inductive Starts : Bytes → Piece → Bytes → Prop
  | braced {token rest : Bytes} (hclosed : closeBrace ∉ token) :
      Starts (dollar :: openBrace :: (token ++ closeBrace :: rest)) (.braced token) rest
  | bare {name rest : Bytes} (hname : name ≠ []) (hbytes : ∀ b ∈ name, isNameByte b = true)
      (hrest : ∀ b ∈ rest.head?, isNameByte b = false) :
      Starts (dollar :: (name ++ rest)) (.bare name) rest

theorem upToBrace_eq_some_iff :
    upToBrace bs = some (token, rest) ↔ closeBrace ∉ token ∧ bs = token ++ closeBrace :: rest := by
  induction bs generalizing token with
  | nil => simp [upToBrace]
  | cons b bs ih =>
    rw [upToBrace]
    by_cases hb : b = closeBrace
    · subst hb
      rw [if_pos (beq_self_eq_true _), Option.some.injEq, Prod.mk.injEq]
      constructor
      · rintro ⟨rfl, rfl⟩
        exact ⟨List.not_mem_nil, rfl⟩
      · rintro ⟨hclosed, heq⟩
        -- a token that is not empty would start with the brace
        cases token with
        | nil => exact ⟨rfl, (List.cons_eq_cons.mp heq).2⟩
        | cons c token =>
          have hc : closeBrace = c := (List.cons_eq_cons.mp heq).1
          exact (hclosed (hc ▸ List.mem_cons_self)).elim
    · rw [if_neg (mt eq_of_beq hb), Option.map_eq_some_iff]
      constructor
      · rintro ⟨⟨token', rest'⟩, hfound, heq⟩
        cases heq
        obtain ⟨hclosed, rfl⟩ := ih.mp hfound
        exact ⟨List.not_mem_cons_of_ne_of_not_mem (Ne.symm hb) hclosed, rfl⟩
      · rintro ⟨hclosed, heq⟩
        cases token with
        | nil => exact (hb (List.cons_eq_cons.mp heq).1).elim
        | cons c token =>
          obtain ⟨rfl, rfl⟩ := List.cons_eq_cons.mp heq
          exact ⟨(token, rest), ih.mpr ⟨mt (List.mem_cons_of_mem _) hclosed, rfl⟩, rfl⟩

/-- All name bytes at the front, and a rest that does not start with one. -/
theorem takeWhile_isNameByte (hbytes : ∀ b ∈ name, isNameByte b = true)
    (hrest : ∀ b ∈ rest.head?, isNameByte b = false) :
    (name ++ rest).takeWhile isNameByte = name ∧ (name ++ rest).dropWhile isNameByte = rest := by
  rw [List.takeWhile_append_of_pos hbytes, List.dropWhile_append_of_pos hbytes]
  cases rest with
  | nil => exact ⟨List.append_nil name, rfl⟩
  | cons b rest =>
    have hb : isNameByte b = false := hrest b rfl
    rw [List.takeWhile_cons_of_neg (by simp [hb]), List.dropWhile_cons_of_neg (by simp [hb])]
    exact ⟨List.append_nil name, rfl⟩

/-- What follows a dollar sign is the placeholder that starts with it. -/
theorem afterDollar_eq_some_iff :
    afterDollar bs = some (p, rest) ↔ Starts (dollar :: bs) p rest := by
  constructor
  · intro h
    cases bs with
    | nil => cases h
    | cons b bs =>
      rw [afterDollar] at h
      split at h
      · rename_i hopen
        obtain ⟨⟨token, rest'⟩, hfound, heq⟩ := Option.map_eq_some_iff.mp h
        cases heq
        obtain ⟨hclosed, rfl⟩ := upToBrace_eq_some_iff.mp hfound
        rw [eq_of_beq hopen]
        exact .braced hclosed
      · split at h
        · rename_i hb
          cases h
          have hparts : b :: bs = b :: bs.takeWhile isNameByte ++ bs.dropWhile isNameByte :=
            congrArg (List.cons b) List.takeWhile_append_dropWhile.symm
          rw [hparts]
          refine .bare (List.cons_ne_nil _ _) (List.forall_mem_cons.mpr ⟨hb, fun c hc => ?_⟩) ?_
          · exact List.mem_takeWhile_imp hc
          · intro c hc
            have hhead := List.head?_dropWhile_not isNameByte bs
            rw [Option.mem_def.mp hc] at hhead
            simpa using hhead
        · cases h
  · intro h
    generalize hbs : dollar :: bs = front at h
    cases h with
    | @braced token _ hclosed =>
      obtain rfl := (List.cons_eq_cons.mp hbs).2
      have hfound : upToBrace (token ++ closeBrace :: rest) = some (token, rest) :=
        upToBrace_eq_some_iff.mpr ⟨hclosed, rfl⟩
      rw [afterDollar, if_pos (beq_self_eq_true _), hfound]
      rfl
    | @bare name _ hname hbytes hrest =>
      obtain rfl := (List.cons_eq_cons.mp hbs).2
      obtain ⟨b, name, rfl⟩ := List.exists_cons_of_ne_nil hname
      obtain ⟨hb, hbytes⟩ := List.forall_mem_cons.mp hbytes
      obtain ⟨htake, hdrop⟩ := takeWhile_isNameByte hbytes hrest
      have hopen : (b == openBrace) = false := by
        refine beq_false_of_ne ?_
        rintro rfl
        exact absurd hb (by decide)
      rw [List.cons_append, afterDollar, hopen, htake, hdrop, hb]
      rfl

theorem Starts.exists_cons (h : Starts bs p rest) : ∃ bs', bs = dollar :: bs' := by
  cases h <;> exact ⟨_, rfl⟩

/-- One placeholder at most stands at the front. -/
theorem Starts.unique {p' : Piece} {rest' : Bytes} (h : Starts bs p rest)
    (h' : Starts bs p' rest') : p = p' ∧ rest = rest' := by
  obtain ⟨bs', rfl⟩ := h.exists_cons
  have hfound := afterDollar_eq_some_iff.mpr h
  rw [afterDollar_eq_some_iff.mpr h'] at hfound
  cases hfound
  exact ⟨rfl, rfl⟩

theorem Starts.source_append (h : Starts bs p rest) : p.source ++ rest = bs := by
  cases h <;> simp [Piece.source]

/-! ## Pieces from left to right -/

/-- The pieces of a document, from left to right: a placeholder wherever one stands at the front of
what is left, and else the byte that stands there. -/
inductive Splits : Bytes → List Piece → Prop
  | nil : Splits [] []
  | placeholder {bs rest : Bytes} {p : Piece} {ps : List Piece} (hstarts : Starts bs p rest)
      (hrest : Splits rest ps) : Splits bs (p :: ps)
  | literal {b : UInt8} {rest : Bytes} {ps : List Piece}
      (hnone : ∀ p after, ¬ Starts (b :: rest) p after) (hrest : Splits rest ps) :
      Splits (b :: rest) (.literal b :: ps)

theorem splits_split (bs : Bytes) : Splits bs (split bs) := by
  fun_induction split bs with
  | case1 => exact .nil
  | case2 b rest hb p rest' hfound _ ih =>
    rw [eq_of_beq hb]
    exact .placeholder (afterDollar_eq_some_iff.mp hfound) ih
  | case3 b rest hb hnone ih =>
    refine .literal (fun p after hstarts => ?_) ih
    rw [eq_of_beq hb, ← afterDollar_eq_some_iff, hnone] at hstarts
    cases hstarts
  | case4 b rest hb ih =>
    refine .literal (fun p after hstarts => ?_) ih
    obtain ⟨_, hdollar⟩ := hstarts.exists_cons
    exact hb (beq_iff_eq.mpr (List.cons_eq_cons.mp hdollar).1)

theorem Splits.unique {ps' : List Piece} (h : Splits bs ps) (h' : Splits bs ps') : ps = ps' := by
  induction h generalizing ps' with
  | nil =>
    cases h' with
    | nil => rfl
    | placeholder hstarts _ =>
      obtain ⟨_, hbs⟩ := hstarts.exists_cons
      cases hbs
  | placeholder hstarts _ ih =>
    cases h' with
    | nil =>
      obtain ⟨_, hbs⟩ := hstarts.exists_cons
      cases hbs
    | placeholder hstarts' hrest' =>
      obtain ⟨rfl, rfl⟩ := hstarts.unique hstarts'
      rw [ih hrest']
    | literal hnone _ => exact (hnone _ _ hstarts).elim
  | literal hnone _ ih =>
    cases h' with
    | placeholder hstarts _ => exact (hnone _ _ hstarts).elim
    | literal _ hrest' => rw [ih hrest']

/-- The pieces of a document are those that `split` finds. -/
theorem splits_iff : Splits bs ps ↔ split bs = ps :=
  ⟨fun h => (splits_split bs).unique h, fun h => h ▸ splits_split bs⟩

/-- The pieces as they are written make up the document. -/
theorem Splits.flatMap_source (h : Splits bs ps) : ps.flatMap Piece.source = bs := by
  induction h with
  | nil => rfl
  | placeholder hstarts _ ih => rw [List.flatMap_cons, ih, hstarts.source_append]
  | literal _ _ ih =>
    rw [List.flatMap_cons, ih]
    rfl

/-! ## Replacements -/

/-- The name in a token and the default behind its first colon, if it has one. -/
inductive Names : Bytes → Bytes → Option Bytes → Prop
  | alone {name : Bytes} (hname : colon ∉ name) : Names name name none
  | withDefault {name fallback : Bytes} (hname : colon ∉ name) :
      Names (name ++ colon :: fallback) name (some fallback)

/-- The bytes of a variable that is set and not empty. -/
def Holds (env : Environment) (name value : Bytes) : Prop :=
  ∃ text, env.get? (Utf8.decodeEscaped name) = some text ∧ text ≠ Text.empty ∧
    Utf8.encodeEscaped text = some value

/-- What stands between the braces of a placeholder, or behind its dollar sign. -/
def Piece.token? : Piece → Option Bytes
  | .literal _ => none
  | .braced token => some token
  | .bare name => some name

/-- What a piece is replaced by: a literal byte and empty braces by themselves; any other
placeholder by the value of its variable if that is set and not empty, and else by its default, or
by nothing if it has none. -/
inductive Replaces (env : Environment) : Piece → Bytes → Prop
  | literal (b : UInt8) : Replaces env (.literal b) [b]
  | empty : Replaces env (.braced []) [dollar, openBrace, closeBrace]
  | value {p : Piece} {token name value : Bytes} {fallback : Option Bytes}
      (htoken : p.token? = some token) (hne : token ≠ []) (hnames : Names token name fallback)
      (hholds : Holds env name value) : Replaces env p value
  | fallback {p : Piece} {token name : Bytes} {fallback : Option Bytes}
      (htoken : p.token? = some token) (hne : token ≠ []) (hnames : Names token name fallback)
      (hnone : ∀ value, ¬ Holds env name value) : Replaces env p (fallback.getD [])

theorem names_iff {fallback : Option Bytes} :
    Names token name fallback ↔ nameAndDefault token = (name, fallback) := by
  have hbefore : ∀ {bytes : Bytes}, colon ∉ bytes → ∀ b ∈ bytes, (b != colon) = true :=
    fun hnot b hb => bne_iff_ne.mpr fun h => hnot (h ▸ hb)
  constructor
  · rintro (hname | hname)
    · have hbefore := hbefore hname
      rw [nameAndDefault, List.takeWhile_eq_self_iff.mpr hbefore,
        List.dropWhile_eq_nil_iff.mpr hbefore]
    · have hbefore := hbefore hname
      simp only [nameAndDefault, List.takeWhile_append_of_pos hbefore,
        List.dropWhile_append_of_pos hbefore]
      simp
  · intro h
    have hname : colon ∉ token.takeWhile (· != colon) := fun hmem => by
      simpa using List.mem_takeWhile_imp hmem
    have hparts : token.takeWhile (· != colon) ++ token.dropWhile (· != colon) = token :=
      List.takeWhile_append_dropWhile
    rw [nameAndDefault] at h
    split at h
    · rename_i hdrop
      cases h
      rw [hdrop, List.append_nil] at hparts
      rw [hparts] at hname ⊢
      exact .alone hname
    · rename_i c fallback hdrop
      cases h
      have hc : c = colon := by
        have hhead := List.head?_dropWhile_not (fun b => b != colon) token
        simpa [hdrop] using hhead
      rw [hdrop, hc] at hparts
      have hnames : Names _ (token.takeWhile (· != colon)) (some fallback) := .withDefault hname
      rwa [hparts] at hnames

theorem lookup_eq_ok {found : Option Bytes} (h : lookup env name = .ok found) :
    match found with
    | some value => Holds env name value
    | none => ∀ value, ¬ Holds env name value := by
  unfold lookup at h
  split at h
  · rename_i hget
    cases h
    rintro value ⟨text, htext, _, _⟩
    rw [hget] at htext
    cases htext
  · rename_i text hget
    split at h
    · rename_i hempty
      cases h
      rintro value ⟨text', htext', hne, _⟩
      rw [hget] at htext'
      cases htext'
      -- a text without code points is the empty one
      obtain ⟨points⟩ := text
      exact hne (congrArg Text.mk (List.isEmpty_iff.mp hempty))
    · rename_i hempty
      split at h
      · rename_i bytes hbytes
        cases h
        refine ⟨text, hget, ?_, hbytes⟩
        rintro rfl
        exact hempty rfl
      · cases h

theorem Holds.unique {value value' : Bytes} (h : Holds env name value)
    (h' : Holds env name value') : value = value' := by
  obtain ⟨text, hget, _, hbytes⟩ := h
  obtain ⟨text', hget', _, hbytes'⟩ := h'
  rw [hget] at hget'
  cases hget'
  rw [hbytes] at hbytes'
  exact Option.some.inj hbytes'

/-- What a variable gives or else its default, for a token that is not empty. -/
theorem replaces_of_lookup {fallback : Option Bytes} {found : Option Bytes}
    (htoken : p.token? = some token) (hne : token ≠ []) (hnames : Names token name fallback)
    (hfound : lookup env name = .ok found) :
    Replaces env p (found.getD (fallback.getD [])) := by
  have hfound := lookup_eq_ok hfound
  cases found with
  | some value => exact .value htoken hne hnames hfound
  | none => exact .fallback htoken hne hnames hfound

/-- A name behind a dollar sign is not empty and has no colon in it. -/
def Piece.Proper : Piece → Prop
  | .bare name => name ≠ [] ∧ colon ∉ name
  | _ => True

theorem Splits.proper (h : Splits bs ps) : ∀ p ∈ ps, p.Proper := by
  induction h with
  | nil => exact fun p hp => nomatch hp
  | placeholder hstarts _ ih =>
    refine List.forall_mem_cons.mpr ⟨?_, ih⟩
    cases hstarts with
    | braced _ => trivial
    | bare hname hbytes _ => exact ⟨hname, fun hcolon => absurd (hbytes _ hcolon) (by decide)⟩
  | literal _ _ ih => exact List.forall_mem_cons.mpr ⟨trivial, ih⟩

theorem replaces_of_replacement {bytes : Bytes} (hp : p.Proper)
    (h : p.replacement env = .ok bytes) : Replaces env p bytes := by
  cases p with
  | literal b =>
    cases h
    exact .literal b
  | bare name =>
    obtain ⟨hne, hcolon⟩ := hp
    obtain ⟨found, hfound, hbytes⟩ := bind_eq_ok.mp h
    cases hbytes
    exact replaces_of_lookup rfl hne (.alone hcolon) hfound
  | braced token =>
    rw [Piece.replacement] at h
    split at h
    · rename_i hempty
      cases h
      rw [List.isEmpty_iff.mp hempty]
      exact .empty
    · rename_i hne
      obtain ⟨found, hfound, hbytes⟩ := bind_eq_ok.mp h
      cases hbytes
      exact replaces_of_lookup rfl (mt List.isEmpty_iff.mpr hne) (names_iff.mpr rfl) hfound

/-- A piece is replaced in one way. -/
theorem Replaces.unique {bytes bytes' : Bytes} (h : Replaces env p bytes)
    (h' : Replaces env p bytes') : bytes = bytes' := by
  have hsame : ∀ {token token' name name' : Bytes} {fallback fallback' : Option Bytes},
      p.token? = some token → Names token name fallback → p.token? = some token' →
        Names token' name' fallback' → name = name' ∧ fallback = fallback' := by
    intro token token' name name' fallback fallback' htoken hnames htoken' hnames'
    rw [htoken] at htoken'
    cases htoken'
    have hboth := (names_iff.mp hnames).symm.trans (names_iff.mp hnames')
    cases hboth
    exact ⟨rfl, rfl⟩
  cases h with
  | literal b =>
    cases h' with
    | literal => rfl
    | value htoken => cases htoken
    | fallback htoken => cases htoken
  | empty =>
    cases h' with
    | empty => rfl
    | value htoken hne =>
      cases htoken
      exact (hne rfl).elim
    | fallback htoken hne =>
      cases htoken
      exact (hne rfl).elim
  | value htoken hne hnames hholds =>
    cases h' with
    | literal => cases htoken
    | empty =>
      cases htoken
      exact (hne rfl).elim
    | value htoken' _ hnames' hholds' =>
      obtain ⟨rfl, -⟩ := hsame htoken hnames htoken' hnames'
      exact hholds.unique hholds'
    | fallback htoken' _ hnames' hnone =>
      obtain ⟨rfl, -⟩ := hsame htoken hnames htoken' hnames'
      exact (hnone _ hholds).elim
  | fallback htoken hne hnames hnone =>
    cases h' with
    | literal => cases htoken
    | empty =>
      cases htoken
      exact (hne rfl).elim
    | value htoken' _ hnames' hholds =>
      obtain ⟨rfl, -⟩ := hsame htoken hnames htoken' hnames'
      exact (hnone _ hholds).elim
    | fallback htoken' _ hnames' _ =>
      obtain ⟨-, rfl⟩ := hsame htoken hnames htoken' hnames'
      rfl

/-! ## Expansion -/

theorem forall₂_of_mapM {parts : List Bytes} (hps : ∀ p ∈ ps, p.Proper)
    (h : ps.mapM (Piece.replacement env) = .ok parts) : List.Forall₂ (Replaces env) ps parts := by
  induction ps generalizing parts with
  | nil =>
    cases h
    exact .nil
  | cons p ps ih =>
    obtain ⟨hp, hps⟩ := List.forall_mem_cons.mp hps
    rw [List.mapM_cons] at h
    obtain ⟨bytes, hbytes, h⟩ := bind_eq_ok.mp h
    obtain ⟨rest, hrest, h⟩ := bind_eq_ok.mp h
    cases h
    exact .cons (replaces_of_replacement hp hbytes) (ih hps hrest)

/-- **Expansion replaces the pieces of a document.** Every document has its pieces in exactly one
way: read from left to right, a placeholder is taken wherever one stands, and every other byte is a
literal. In an environment whose values can be written the expansion is the replacements of the
pieces, one after the other; each piece has one replacement, and as it is one of a piece of the
document, what is inserted is never split again. -/
theorem expand_eq_replacements (henv : Load.Writable env) (config : Bytes) :
    (∃! ps, Splits config ps) ∧ ∀ ps, Splits config ps →
      ps.flatMap Piece.source = config ∧ ∃ parts, List.Forall₂ (Replaces env) ps parts ∧
        (∀ parts', List.Forall₂ (Replaces env) ps parts' → parts' = parts) ∧
        expand env config = .ok parts.flatten := by
  refine ⟨⟨_, splits_split config, fun ps hps => hps.unique (splits_split config)⟩,
    fun ps hps => ⟨hps.flatMap_source, ?_⟩⟩
  obtain ⟨bytes, hbytes⟩ := henv.expand config
  have hexpand := hbytes
  unfold expand at hbytes
  obtain ⟨parts, hparts, hflatten⟩ := bind_eq_ok.mp hbytes
  cases hflatten
  rw [splits_iff.mp hps] at hparts
  have hreplaces := forall₂_of_mapM hps.proper hparts
  refine ⟨parts, hreplaces, fun parts' hparts' => ?_, hexpand⟩
  have hright : Relator.RightUnique (Replaces env) := fun _ _ _ h h' => h.unique h'
  exact hright.forall₂ hparts' hreplaces

/-- An environment can be written if the values of all its bindings can. -/
theorem writable_of_bindings (h : ∀ b ∈ env.bindings, (Utf8.encodeEscaped b.2).isSome = true) :
    Load.Writable env := by
  intro name value hget
  obtain ⟨before, later, hbindings, _⟩ := List.lookup_eq_some_iff.mp hget
  have hmem : (name, value) ∈ env.bindings :=
    hbindings ▸ List.mem_append_right _ List.mem_cons_self
  exact Option.isSome_iff_exists.mp (h _ hmem)

/-- A default and a value that hold dollar signs themselves, a variable that is empty, empty braces,
and braces that are not closed. -/
theorem expand_eq_replacements_dollars :
    let env : Environment := ⟨[(Text.ofString "A", .empty), (Text.ofString "B", Text.ofString "$A")]⟩
    let config := Utf8.ofString "$\x7bA:$B\x7d$B $\x7b\x7d $$\x7b$B"
    Load.Writable env ∧ (∃! ps, Splits config ps) ∧ ∃ ps parts, Splits config ps ∧
      ps.flatMap Piece.source = config ∧ List.Forall₂ (Replaces env) ps parts ∧
      expand env config = .ok parts.flatten ∧
      parts.flatten = Utf8.ofString "$B$A $\x7b\x7d $$\x7b$A" := by
  intro env config
  have hwritable : Load.Writable env := writable_of_bindings (by decide)
  obtain ⟨hunique, hexpand⟩ := expand_eq_replacements hwritable config
  have hps := splits_split config
  obtain ⟨hsource, parts, hparts, -, hok⟩ := hexpand _ hps
  have hresult : (expand env config).toOption = some (Utf8.ofString "$B$A $\x7b\x7d $$\x7b$A") := by
    decide +kernel
  have hresult := eq_ok_of_toOption hresult
  rw [hok] at hresult
  exact ⟨hwritable, hunique, _, parts, hps, hsource, hparts, hok, Except.ok.inj hresult⟩

end BootConfig.Placeholder
