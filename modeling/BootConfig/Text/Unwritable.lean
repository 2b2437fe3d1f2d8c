import BootConfig.Text.Quoted

/-!
# Texts that cannot be written

A surrogate in a text is written as the byte that it stands for. Only those above U+DC7F and below
U+DD00 stand for one; a text with another surrogate cannot be written.
-/

namespace BootConfig

/-- Whether a code point is a surrogate that stands for no byte. -/
def CodePoint.isUnwritable (c : CodePoint) : Bool := c.isSurrogate && (Utf8.escaped? c).isNone

def Text.isUnwritable (t : Text) : Bool := t.points.any CodePoint.isUnwritable

/-- A text that cannot be written, where it should be. -/
structure Unwritable where
  text : Text
deriving DecidableEq, Inhabited

/-- The complaint about the surrogates that cannot be written, and those right after them. -/
def Unwritable.message (u : Unwritable) : String :=
  let start := (u.text.points.takeWhile fun c => !c.isUnwritable).length
  let run := (u.text.points.drop start).takeWhile CodePoint.isSurrogate
  let what := match run with
    | [c] =>
      let code := String.ofList (Quoted.hexDigits 4 c.val)
      s!"character '\\u{code}' in position {start}"
    | _ =>
      let last := start + run.length - 1
      s!"characters in position {start}-{last}"
  s!"'utf-8' codec can't encode {what}: surrogates not allowed"

end BootConfig
