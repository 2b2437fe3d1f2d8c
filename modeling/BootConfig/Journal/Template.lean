import BootConfig.Data.Value

/-!
# Message templates

A message may be given as a template with places for values: `%s` for a value as it is, `%r` for a
value in quotes, `%d` for an integer, and `%%` for a percent sign.
-/

namespace BootConfig.Template

/-- A piece of a template. -/
inductive Piece where
  | char (c : Char)
  | place (kind : Char)
deriving DecidableEq

/-- The pieces of a template; none for a percent sign at the end. -/
def pieces? : List Char → Option (List Piece)
  | [] => some []
  | ['%'] => none
  | '%' :: '%' :: cs => (pieces? cs).map (.char '%' :: ·)
  | '%' :: kind :: cs => (pieces? cs).map (.place kind :: ·)
  | c :: cs => (pieces? cs).map (.char c :: ·)

/-- A value in a place. -/
def shown? (kind : Char) (s : Scalar) : Option String :=
  match kind, s with
  | 's', .text t => some t.lossy
  | 's', s | 'r', s => s.quoted?
  | 'd', s | 'i', s => match s with
    | .double d => d.toInt?.bind Numeral.intText?
    | s => s.asInt?.bind Numeral.intText?
  | _, _ => none

/-- Fills places with values, one after the other; every value has to be used. -/
def fillPieces : List Piece → List Scalar → Option String
  | [], [] => some ""
  | [], _ :: _ => none
  | .char c :: ps, vs => (fillPieces ps vs).map fun rest => String.singleton c ++ rest
  | .place _ :: _, [] => none
  | .place kind :: ps, v :: vs => match shown? kind v, fillPieces ps vs with
    | some s, some rest => some (s ++ rest)
    | _, _ => none

/-- The message that a template gives for values. Without values a template is a message itself. -/
def fill (template : String) (values : List Scalar) : Option String :=
  if values.isEmpty then some template
  else (pieces? template.toList).bind fun ps => fillPieces ps values

end BootConfig.Template
