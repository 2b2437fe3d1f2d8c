import BootConfig.Placeholder
import BootConfig.Proofs.Data.Table
import BootConfig.Proofs.Text.Escaped

/-!
# Expansion in a raw environment

A raw environment binds bytes to bytes. Its snapshot is made of texts, yet expansion in the snapshot
works on the bytes as they were given: names are the same if their bytes are, and the bytes of a
value are inserted unchanged, whether they are UTF-8 or not.

* `Environment.get?_ofRaw`: lookups in the snapshot are lookups in the raw bindings.
* `expandRaw`: expansion that never leaves the bytes.
* `expand_ofRaw`: expansion in the snapshot of a raw environment.
-/

namespace BootConfig

/-! ## Lookups in a snapshot -/

theorem lookup_map_of_injective {κ κ' α β : Type} [BEq κ] [LawfulBEq κ] [BEq κ'] [LawfulBEq κ']
    {name : κ → κ'} (hname : Function.Injective name) (value : α → β) (table : List (κ × α))
    (key : κ) : (table.map fun p => (name p.1, value p.2)).lookup (name key) =
      (table.lookup key).map value := by
  induction table with
  | nil => rfl
  | cons p rest ih =>
    obtain ⟨other, a⟩ := p
    by_cases hkey : key = other
    · subst hkey
      simp
    · have hne : name key ≠ name other := fun h => hkey (hname h)
      rw [List.map_cons, lookup_cons_of_ne hne, lookup_cons_of_ne hkey, ih]

namespace Environment

variable {env : Environment} {key name value : Text} {bindings : List (Text × Text)}
  {vars : List (Bytes × Bytes)}

theorem get?_insert_self : (env.insert name value).get? name = some value := by
  simp [get?, insert]

theorem get?_insert_of_ne (h : key ≠ name) : (env.insert name value).get? key = env.get? key := by
  unfold get? insert erase
  rw [lookup_cons_of_ne h, lookup_filter_of_ne h]

/-- Distinct names that are bound one after the other keep their values. -/
theorem get?_foldl_insert (hnodup : (bindings.map Prod.fst).Nodup) :
    (bindings.foldl (fun env p => env.insert p.1 p.2) env).get? key =
      (bindings.lookup key).or (env.get? key) := by
  induction bindings generalizing env with
  | nil => rfl
  | cons p rest ih =>
    obtain ⟨name, value⟩ := p
    obtain ⟨hnot, hrest⟩ := List.nodup_cons.mp hnodup
    rw [List.foldl_cons, ih hrest]
    by_cases hkey : key = name
    · subst hkey
      have hnone : rest.lookup key = none := by
        refine List.lookup_eq_none_iff.mpr fun q hq => ?_
        have hne : key ≠ q.1 := fun heq => hnot (List.mem_map.mpr ⟨q, hq, heq.symm⟩)
        simpa using hne
      rw [hnone, get?_insert_self]
      simp
    · rw [get?_insert_of_ne hkey, lookup_cons_of_ne hkey]

/-- What the snapshot of a raw environment binds to a name is the text of what the environment binds
to the bytes of the name. -/
theorem get?_ofRaw (hnodup : (vars.map Prod.fst).Nodup) (bytes : Bytes) :
    (ofRaw vars).get? (Utf8.decodeEscaped bytes) = (vars.lookup bytes).map Utf8.decodeEscaped := by
  have hnames : ((vars.map fun p => (Utf8.decodeEscaped p.1, Utf8.decodeEscaped p.2)).map
      Prod.fst).Nodup := by
    have hmapped := hnodup.map Utf8.decodeEscaped_injective
    rwa [List.map_map] at hmapped ⊢
  rw [ofRaw, ofList, get?_foldl_insert hnames,
    lookup_map_of_injective Utf8.decodeEscaped_injective]
  exact Option.or_none

end Environment

namespace Placeholder

variable {vars : List (Bytes × Bytes)}

/-! ## Expansion of bytes by bytes -/

/-- The bytes that are bound to exactly these bytes as their name; nothing for a variable that is
unset or empty. -/
def rawValue? (vars : List (Bytes × Bytes)) (name : Bytes) : Option Bytes :=
  (vars.lookup name).filter (· ≠ [])

/-- What a piece is replaced by, without a text in between. -/
def Piece.rawReplacement (vars : List (Bytes × Bytes)) : Piece → Bytes
  | .literal b => [b]
  | .bare name => (rawValue? vars name).getD []
  | .braced [] => [dollar, openBrace, closeBrace]
  | .braced token =>
    let (name, fallback) := nameAndDefault token
    (rawValue? vars name).getD (fallback.getD [])

/-- The document with every placeholder replaced, without a text in between. -/
def expandRaw (vars : List (Bytes × Bytes)) (config : Bytes) : Bytes :=
  (split config).flatMap (Piece.rawReplacement vars)

theorem lookup_ofRaw (hnodup : (vars.map Prod.fst).Nodup) (name : Bytes) :
    lookup (Environment.ofRaw vars) name = .ok (rawValue? vars name) := by
  rw [lookup, Environment.get?_ofRaw hnodup, rawValue?]
  cases vars.lookup name with
  | none => rfl
  | some value =>
    rw [Option.map_some]
    by_cases hvalue : value = []
    · rw [Utf8.decodeEscaped_eq_empty.mpr hvalue, hvalue]
      rfl
    · have hne : (Utf8.decodeEscaped value).isEmpty = false := by
        refine Bool.eq_false_iff.mpr fun hempty => hvalue (Utf8.decodeEscaped_eq_empty.mp ?_)
        exact congrArg Text.mk (List.isEmpty_iff.mp hempty)
      simp [hne, hvalue, Utf8.encodeEscaped_decodeEscaped, Option.filter]

theorem replacement_ofRaw (hnodup : (vars.map Prod.fst).Nodup) (p : Piece) :
    p.replacement (Environment.ofRaw vars) = .ok (p.rawReplacement vars) := by
  cases p with
  | literal b => rfl
  | bare name =>
    rw [Piece.replacement, lookup_ofRaw hnodup]
    rfl
  | braced token =>
    cases token with
    | nil => rfl
    | cons b token =>
      rw [Piece.replacement, if_neg (by simp)]
      simp only [lookup_ofRaw hnodup]
      rfl

/-- **Expansion keeps bytes.** In the snapshot of a raw environment, whose names are distinct,
expansion never fails, and it is the expansion that compares the bytes of names and inserts the
bytes of values. -/
theorem expand_ofRaw (hnodup : (vars.map Prod.fst).Nodup) (config : Bytes) :
    expand (Environment.ofRaw vars) config = .ok (expandRaw vars config) := by
  have hpieces : Piece.replacement (Environment.ofRaw vars) =
      fun p => pure (p.rawReplacement vars) := funext (replacement_ofRaw hnodup)
  rw [expand, hpieces, List.mapM_pure, expandRaw, List.flatMap_def]
  rfl

/-- A name and values that are not UTF-8: a lone continuation byte, an overlong form, the form of a
surrogate and the start of a character that does not go on. -/
theorem expand_ofRaw_notUtf8 :
    let vars : List (Bytes × Bytes) :=
      [([0x80], [0xC0, 0x80]), ([0x80, 0x80], [0xED, 0xB2, 0x80]), ([0x41], [0xE2, 0x82])]
    let config : Bytes := [0x24, 0x7B, 0x80, 0x7D, 0x24, 0x7B, 0x80, 0x80, 0x7D, 0x24, 0x41]
    (vars.map Prod.fst).Nodup ∧ expand (Environment.ofRaw vars) config =
      .ok [0xC0, 0x80, 0xED, 0xB2, 0x80, 0xE2, 0x82] := by
  intro vars config
  have hnodup : (vars.map Prod.fst).Nodup := by decide
  have hraw : expandRaw vars config = [0xC0, 0x80, 0xED, 0xB2, 0x80, 0xE2, 0x82] := by
    decide +kernel
  refine ⟨hnodup, ?_⟩
  rw [expand_ofRaw hnodup, hraw]

end Placeholder

end BootConfig
