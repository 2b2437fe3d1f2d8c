import BootConfig.Data.Value

/-!
# Overlay

Laying a mapping over another one: where both hold mappings under a key these are overlaid in turn,
and elsewhere the upper value takes the place of the lower one. Only the lower mapping is descended,
so an upper mapping may contain itself; what is taken over from it stays as it is. The lower mapping
is made of settings that have been dumped, so it is a tree.

* `Value.overlay`: one value over another.
* `Entries.overlay`: the entries of one mapping over those of another.
-/

namespace BootConfig

mutual

/-- The value that results from laying `upper` over `lower`. A graph below counts as one value; a
merge of objects would go on in it, but no part of dumped settings is one. -/
def Value.overlay (lower upper : Value) : Value :=
  match lower with
  | .map base =>
    match upper.entries? with
    | some upper => .map (overlayBound base upper ++ Entries.unbound base upper)
    | none => upper
  | _ => upper

/-- The lower entries, each with what the upper ones make of it. -/
def overlayBound (base upper : List (Scalar × Value)) : List (Scalar × Value) :=
  match base with
  | [] => []
  | (key, v) :: rest =>
    (match Entries.get? upper key with
    | some w => (key, Value.overlay v w)
    | none => (key, v)) :: overlayBound rest upper

end

/-- The entries of one mapping laid over those of another: the lower keys keep their places, and
the upper keys that are new follow in their order. -/
def Entries.overlay (base upper : Entries) : Entries :=
  overlayBound base upper ++ Entries.unbound base upper

end BootConfig
