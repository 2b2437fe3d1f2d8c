import BootConfig.Environment
import BootConfig.Text.Unwritable

/-!
# Placeholders

A raw document may refer to environment variables as `$NAME` or `${NAME}`, with a default as
`${NAME:default}`. Expansion splits the document into pieces from left to right and replaces each
placeholder once; what was inserted is not looked at again.

* `Piece`: a literal byte or a placeholder.
* `split`: the pieces of a document.
* `expand`: the pieces' replacements, one after the other.
-/

namespace BootConfig.Placeholder

/-- A part of a raw document. -/
inductive Piece where
  /-- A byte that stands for itself. -/
  | literal (b : UInt8)
  /-- What stands between `${` and the next `}`. -/
  | braced (token : Bytes)
  /-- The name after `$`. -/
  | bare (name : Bytes)
deriving DecidableEq

/-- ASCII letters, digits and the underscore. A name may start with a digit. -/
def isNameByte (b : UInt8) : Bool :=
  (0x41 ≤ b && b ≤ 0x5A) || (0x61 ≤ b && b ≤ 0x7A) || (0x30 ≤ b && b ≤ 0x39) || b == 0x5F

def dollar : UInt8 := 0x24
def openBrace : UInt8 := 0x7B
def closeBrace : UInt8 := 0x7D
def colon : UInt8 := 0x3A

/-- The bytes before the first closing brace and those after it, if there is one. -/
def upToBrace : Bytes → Option (Bytes × Bytes)
  | [] => none
  | b :: rest =>
    if b == closeBrace then some ([], rest)
    else (upToBrace rest).map fun p => (b :: p.1, p.2)

theorem upToBrace_length {bs token rest : Bytes} (h : upToBrace bs = some (token, rest)) :
    rest.length < bs.length := by
  induction bs generalizing token rest with
  | nil => simp [upToBrace] at h
  | cons b bs ih =>
    simp only [upToBrace] at h
    split at h
    · cases h; simp
    · cases hb : upToBrace bs with
      | none => simp [hb] at h
      | some p =>
        simp only [hb, Option.map_some, Option.some.injEq, Prod.mk.injEq] at h
        have := @ih p.1 p.2 (by rw [hb])
        rw [← h.2]
        simp only [List.length_cons]
        omega

/-- The placeholder that follows a dollar sign, and the bytes after it. -/
def afterDollar (bs : Bytes) : Option (Piece × Bytes) :=
  match bs with
  | [] => none
  | b :: rest =>
    if b == openBrace then (upToBrace rest).map fun p => (.braced p.1, p.2)
    else if isNameByte b then some (.bare (b :: rest.takeWhile isNameByte), rest.dropWhile isNameByte)
    else none

theorem afterDollar_length {bs rest : Bytes} {p : Piece} (h : afterDollar bs = some (p, rest)) :
    rest.length < bs.length := by
  cases bs with
  | nil => simp [afterDollar] at h
  | cons b bs =>
    simp only [afterDollar] at h
    split at h
    · cases hb : upToBrace bs with
      | none => simp [hb] at h
      | some q =>
        simp only [hb, Option.map_some, Option.some.injEq, Prod.mk.injEq] at h
        have := @upToBrace_length bs q.1 q.2 (by rw [hb])
        rw [← h.2]
        simp only [List.length_cons]
        omega
    · split at h
      · simp only [Option.some.injEq, Prod.mk.injEq] at h
        rw [← h.2]
        have := (List.dropWhile_sublist isNameByte (l := bs)).length_le
        simp only [List.length_cons]
        omega
      · cases h

/-- The pieces of a document, from left to right. A dollar sign that starts no placeholder is a
literal byte. -/
def split (bs : Bytes) : List Piece :=
  match bs with
  | [] => []
  | b :: rest =>
    if b == dollar then
      match h : afterDollar rest with
      | some (p, rest') =>
        have := afterDollar_length h
        p :: split rest'
      | none => .literal b :: split rest
    else .literal b :: split rest
termination_by bs.length
decreasing_by all_goals simp only [List.length_cons]; omega

/-- A piece as it is written. -/
def Piece.source : Piece → Bytes
  | .literal b => [b]
  | .braced token => dollar :: openBrace :: token ++ [closeBrace]
  | .bare name => dollar :: name

/-- The bytes of a variable's value; nothing for a variable that is unset or empty. -/
def lookup (env : Environment) (name : Bytes) : Except Unwritable (Option Bytes) :=
  match env.get? (Utf8.decodeEscaped name) with
  | none => .ok none
  | some value =>
    if value.isEmpty then .ok none
    else match Utf8.encodeEscaped value with
      | some bytes => .ok (some bytes)
      | none => .error ⟨value⟩

/-- The name and the default of a token, cut at its first colon. -/
def nameAndDefault (token : Bytes) : Bytes × Option Bytes :=
  let name := token.takeWhile (· != colon)
  match token.dropWhile (· != colon) with
  | [] => (name, none)
  | _ :: fallback => (name, some fallback)

/-- What a piece is replaced by: a variable's value if it is set and not empty, else the default if
there is one, else nothing. Empty braces stand for themselves. -/
def Piece.replacement (env : Environment) : Piece → Except Unwritable Bytes
  | .literal b => .ok [b]
  | .bare name => return (← lookup env name).getD []
  | .braced token =>
    if token.isEmpty then .ok (Piece.braced token).source
    else
      let (name, fallback) := nameAndDefault token
      return (← lookup env name).getD (fallback.getD [])

/-- The document with every placeholder replaced. -/
def expand (env : Environment) (config : Bytes) : Except Unwritable Bytes :=
  return (← (split config).mapM (Piece.replacement env)).flatten

end BootConfig.Placeholder
