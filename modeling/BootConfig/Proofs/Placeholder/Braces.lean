import BootConfig.Proofs.Placeholder.Cut

/-!
# Names with and without braces

`$NAME` and `${NAME}` are replaced alike, and the braces may be put around any names of a document:
all other pieces are read as before. Only an open `${` must not stand in it, which a brace behind it
would close.

* `Rebraced`: a piece and the same piece, where a name may have got braces.
* `Standing.rebraced`: pieces that stand in front of bytes do so with braces.
* `expand_rebraced`: braces around names do not change the expansion.
-/

namespace BootConfig.Placeholder

variable {bs config : Bytes} {p q : Piece} {ps qs : List Piece} {env : Environment}

/-- The same piece, or a name that is written with braces instead. -/
inductive Rebraced : Piece → Piece → Prop
  | same (p : Piece) : Rebraced p p
  | name (name : Bytes) : Rebraced (.bare name) (.braced name)

/-- Both start with the same byte, so that the piece in front ends as before. -/
theorem Rebraced.head?_source (h : Rebraced p q) : q.source.head? = p.source.head? := by
  cases h <;> rfl

theorem head?_rebraced (h : List.Forall₂ Rebraced ps qs) (bs : Bytes) :
    (qs.flatMap Piece.source ++ bs).head? = (ps.flatMap Piece.source ++ bs).head? := by
  cases h with
  | nil => rfl
  | @cons p q ps qs hp _ =>
    simp only [List.flatMap_cons, List.append_assoc]
    rw [List.head?_append_of_ne_nil _ q.source_ne_nil,
      List.head?_append_of_ne_nil _ p.source_ne_nil, hp.head?_source]

theorem Rebraced.legible (h : Rebraced p q) (hp : p.Legible) : q.Legible := by
  cases h with
  | same => exact hp
  | name name => exact fun hclose => absurd (hp.2 _ hclose) (by decide)

theorem Rebraced.endsBefore (h : Rebraced p q) {next : Option UInt8} (hp : p.EndsBefore next) :
    q.EndsBefore next := by
  cases h with
  | same => exact hp
  | name => trivial

/-- Pieces that stand in front of bytes do so with braces around names. -/
theorem Standing.rebraced (hstanding : Standing bs ps) (h : List.Forall₂ Rebraced ps qs) :
    Standing bs qs := by
  induction h with
  | nil => exact .nil
  | cons hp hps ih =>
    cases hstanding with
    | cons hlegible hends hrest =>
      refine .cons (hp.legible hlegible) ?_ (ih hrest)
      rw [head?_rebraced hps]
      exact hp.endsBefore hends

/-- A name is replaced alike with braces, as it is not empty and holds no colon. -/
theorem Rebraced.replacement (h : Rebraced p q) (hp : p.Legible) :
    q.replacement env = p.replacement env := by
  cases h with
  | same => rfl
  | name name =>
    obtain ⟨hne, hbytes⟩ := hp
    have hcolon : colon ∉ name := fun hmem => absurd (hbytes _ hmem) (by decide)
    have hname : nameAndDefault name = (name, none) := names_iff.mp (.alone hcolon)
    simp only [Piece.replacement, hname, List.isEmpty_iff, hne, if_false]
    rfl

theorem mapM_rebraced (h : List.Forall₂ Rebraced ps qs) (hps : ∀ p ∈ ps, p.Legible) :
    qs.mapM (Piece.replacement env) = ps.mapM (Piece.replacement env) := by
  induction h with
  | nil => rfl
  | cons hp _ ih =>
    obtain ⟨hlegible, hps⟩ := List.forall_mem_cons.mp hps
    rw [List.mapM_cons, List.mapM_cons, hp.replacement hlegible, ih hps]

/-- **Braces around names.** In a document that leaves no `${` open, braces may be put around any of
the names that are read behind a dollar sign: what the document expands to, or the fault, stays the
same in every environment. -/
theorem expand_rebraced (env : Environment) (hclosed : Closed config)
    (h : List.Forall₂ Rebraced (split config) qs) :
    expand env (qs.flatMap Piece.source) = expand env config := by
  have hsplits := splits_split config
  have hstanding : Standing [] (split config) :=
    hsplits.standing hclosed fun p _ => p.endsBefore_of_forall (by simp)
  have hread := (hstanding.rebraced h).splits .nil
  rw [List.append_nil, List.append_nil] at hread
  rw [expand, expand, splits_iff.mp hread, mapM_rebraced h hsplits.legible]

/-- Braces around the second of four names, between a dollar sign and a brace that closes nothing;
the third one is a default. -/
theorem expand_rebraced_second :
    let env : Environment :=
      ⟨[(Text.ofString "A", Text.ofString "1"), (Text.ofString "B", .empty)]⟩
    let config := Utf8.ofString "$A$$B\x7d$\x7bC:$A\x7d$A"
    let before : List Piece := [.bare (Utf8.ofString "A"), .literal dollar]
    let after : List Piece :=
      [.literal closeBrace, .braced (Utf8.ofString "C:$A"), .bare (Utf8.ofString "A")]
    let braced := before ++ .braced (Utf8.ofString "B") :: after
    Closed config ∧ List.Forall₂ Rebraced (split config) braced ∧
      braced.flatMap Piece.source = Utf8.ofString "$A$$\x7bB\x7d\x7d$\x7bC:$A\x7d$A" ∧
      expand env (braced.flatMap Piece.source) = expand env config := by
  intro env config before after braced
  have hclosed : Closed config := by decide +kernel
  have hsplit : split config = before ++ .bare (Utf8.ofString "B") :: after := by decide +kernel
  have hsame : ∀ ps : List Piece, List.Forall₂ Rebraced ps ps :=
    fun ps => List.forall₂_same.mpr fun p _ => .same p
  have hpieces : List.Forall₂ Rebraced (split config) braced := by
    rw [hsplit]
    exact List.rel_append (hsame before) (.cons (.name _) (hsame after))
  exact ⟨hclosed, hpieces, by decide +kernel, expand_rebraced env hclosed hpieces⟩

end BootConfig.Placeholder
