import BootConfig.Text.Basic
import BootConfig.Text.Case.Table

/-!
# Letter case

Lower and upper case of texts by the full Unicode mapping. A letter may have a sequence as its
other case, and a capital sigma at the end of a word becomes a final sigma.
-/

namespace BootConfig

namespace Case

def inRanges (rs : List (Nat × Nat)) (n : Nat) : Bool := rs.any fun r => r.1 ≤ n && n ≤ r.2

/-- Letters that have a case. -/
def isCased (c : CodePoint) : Bool :=
  let n := c.val
  (0x41 ≤ n && n ≤ 0x5A) || (0x61 ≤ n && n ≤ 0x7A) || (0x80 ≤ n && inRanges cased n)

/-- Marks and punctuation that do not end a word: the apostrophe, the full stop, the colon, the
circumflex and the grave accent among the ASCII characters. -/
def isIgnorable (c : CodePoint) : Bool :=
  let n := c.val
  n == 0x27 || n == 0x2E || n == 0x3A || n == 0x5E || n == 0x60 ||
    (0x80 ≤ n && inRanges caseIgnorable n)

def capitalSigma : Nat := 0x3A3
def smallSigma : Nat := 0x3C3
def finalSigma : Nat := 0x3C2

/-- Whether the nearest code point that is not ignorable has a case. -/
def nextIsCased (cs : List CodePoint) : Bool :=
  match cs.dropWhile isIgnorable with
  | [] => false
  | c :: _ => isCased c

/-- Lower case of one code point, given those before it (nearest first) and those after it. -/
def lowerPoint (before : List CodePoint) (c : CodePoint) (after : List CodePoint) :
    List CodePoint :=
  let n := c.val
  if n < 0x80 then
    [if 0x41 ≤ n && n ≤ 0x5A then CodePoint.ofNatD (n + 32) else c]
  else if n == capitalSigma then
    [CodePoint.ofNatD (if nextIsCased before && !nextIsCased after then finalSigma else smallSigma)]
  else if n == 0x130 then [CodePoint.ofNatD 0x69, CodePoint.ofNatD 0x307]
  else [((lowerRuns.findSome? (CaseRun.otherCase? · n)).map CodePoint.ofNatD).getD c]

/-- Upper case of one code point. -/
def upperPoint (c : CodePoint) : List CodePoint :=
  let n := c.val
  if n < 0x80 then
    [if 0x61 ≤ n && n ≤ 0x7A then CodePoint.ofNatD (n - 32) else c]
  else match upperSequences.lookup n with
    | some ns => ns.map CodePoint.ofNatD
    | none => [((upperRuns.findSome? (CaseRun.otherCase? · n)).map CodePoint.ofNatD).getD c]

/-- Lower case of the code points that follow those of `before`. -/
def lowerFrom (before : List CodePoint) : List CodePoint → List CodePoint
  | [] => []
  | c :: cs => lowerPoint before c cs ++ lowerFrom (c :: before) cs

end Case

namespace Text

def toLower (t : Text) : Text := ⟨Case.lowerFrom [] t.points⟩

def toUpper (t : Text) : Text := ⟨t.points.flatMap Case.upperPoint⟩

end Text

end BootConfig
