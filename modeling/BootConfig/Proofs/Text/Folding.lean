import BootConfig.Proofs.Data.Table
import BootConfig.Text.Case
import Mathlib.Data.List.Infix

/-!
# Lower and upper case of words

Two words are the same in lower case if they are the same in upper case, but not always the other
way round: the dotless i has the capital of the letter i, and is in lower case already. For words
of capital letters this is the only exception, if no other letter above ASCII is in the way: the
Kelvin sign, whose small letter is a k, and the long s and the ligatures, whose capitals are letters
of ASCII.

* `exists_large_lowerPoint`, `upperPoint_cases`: the other case of letters above ASCII.
* `lowerFrom_ascii`, `flatMap_upperPoint_ascii`: the other case of ASCII texts.
* `Text.toLower_eq_iff`: words that are the same in lower case.
-/

namespace BootConfig

namespace Case

/-! ## Letters above ASCII -/

/-- The letter i without a dot. -/
def dotlessI : CodePoint := CodePoint.ofNatD 0x131

theorem dotlessI_mem_points (s : String) :
    dotlessI ∈ (Text.ofString s).points ↔ '\u0131' ∈ s.toList := by
  have hinjective : Function.Injective CodePoint.ofChar := fun c d h => by
    have hc := CodePoint.toChar?_ofChar c
    rw [h, CodePoint.toChar?_ofChar] at hc
    exact (Option.some.inj hc).symm
  rw [show dotlessI = CodePoint.ofChar '\u0131' by decide, Text.ofString,
    List.mem_map_of_injective hinjective]

/-- The Kelvin sign, whose lower case is the letter k. -/
def kelvin : CodePoint := CodePoint.ofNatD 0x212A

/-- The upper case of the long s and of ligatures. -/
def ligatures : List (List CodePoint) :=
  ["S", "SS", "ST", "FF", "FI", "FL", "FFI", "FFL"].map fun w => (Text.ofString w).points

/-- The other case of what a run lists is above ASCII. -/
def CaseRun.StaysLarge (r : CaseRun) : Prop :=
  0x80 ≤ (r.first : Int) + r.shift ∧ (r.last : Int) + r.shift < 0x110000

instance : DecidablePred CaseRun.StaysLarge := fun _ => inferInstanceAs (Decidable (_ ∧ _))

theorem CaseRun.StaysLarge.otherCase {r : CaseRun} (h : r.StaysLarge) {n m : Nat}
    (hm : r.otherCase? n = some m) : 0x80 ≤ (CodePoint.ofNatD m).val := by
  unfold otherCase? at hm
  obtain ⟨hlow, hhigh⟩ := h
  split at hm
  · rename_i hlisted
    simp only [Bool.and_eq_true, decide_eq_true_eq, beq_iff_eq] at hlisted
    obtain ⟨⟨hfirst, hlast⟩, _⟩ := hlisted
    obtain rfl := Option.some.inj hm
    rw [CodePoint.val_ofNatD (by omega)]
    omega
  · cases hm

/-- The other case of a letter in a table is above ASCII, unless the letter is an exception. -/
theorem large_of_findSome? {runs : List CaseRun} {exceptions : List Nat}
    (hruns : ∀ r ∈ runs, r.StaysLarge ∨ r.first = r.last ∧ r.first ∈ exceptions) {n m : Nat}
    (hn : n ∉ exceptions) (hm : runs.findSome? (CaseRun.otherCase? · n) = some m) :
    0x80 ≤ (CodePoint.ofNatD m).val := by
  obtain ⟨r, hr, hother⟩ := List.exists_of_findSome?_eq_some hm
  rcases hruns r hr with hlarge | ⟨hsingle, hexception⟩
  · exact hlarge.otherCase hother
  · -- the run lists but the exception
    unfold CaseRun.otherCase? at hother
    split at hother
    · rename_i hlisted
      simp only [Bool.and_eq_true, decide_eq_true_eq] at hlisted
      have hsame : n = r.first := by omega
      exact (hn (hsame ▸ hexception)).elim
    · cases hother

theorem lowerRuns_large :
    ∀ r ∈ lowerRuns, r.StaysLarge ∨ r.first = r.last ∧ r.first ∈ [0x212A] := by
  decide +kernel

theorem upperRuns_large :
    ∀ r ∈ upperRuns, r.StaysLarge ∨ r.first = r.last ∧ r.first ∈ [0x131, 0x17F] := by
  decide +kernel

theorem upperSequences_large : ∀ p ∈ upperSequences,
    (∃ n ∈ p.2, 0x80 ≤ (CodePoint.ofNatD n).val) ∨ p.2.map CodePoint.ofNatD ∈ ligatures := by
  decide +kernel

variable {c : CodePoint}

/-- The lower case of a letter above ASCII is not in ASCII, but for the Kelvin sign. -/
theorem exists_large_lowerPoint (h : 0x80 ≤ c.val) (hkelvin : c ≠ kelvin)
    (before after : List CodePoint) : ∃ d ∈ lowerPoint before c after, 0x80 ≤ d.val := by
  have hn : c.val ∉ [0x212A] := fun hmem => hkelvin (Fin.ext (List.mem_singleton.mp hmem))
  unfold lowerPoint
  rw [if_neg (by omega)]
  split
  · refine ⟨_, List.mem_singleton_self _, ?_⟩
    split <;> decide
  · split
    · exact ⟨CodePoint.ofNatD 0x307, by simp, by decide⟩
    · refine ⟨_, List.mem_singleton_self _, ?_⟩
      cases hother : lowerRuns.findSome? (CaseRun.otherCase? · c.val) with
      | none => exact h
      | some m => exact large_of_findSome? lowerRuns_large hn hother

theorem lowerPoint_kelvin (before after : List CodePoint) :
    lowerPoint before kelvin after = [CodePoint.ofNatD 0x6B] := by
  have hother : lowerRuns.findSome? (CaseRun.otherCase? · kelvin.val) = some 0x6B := by
    decide +kernel
  unfold lowerPoint
  rw [if_neg (by decide), if_neg (by decide), if_neg (by decide), hother]
  rfl

/-- The upper case of a letter above ASCII is not in ASCII, but for the dotless i, the long s and
ligatures. -/
theorem upperPoint_cases (h : 0x80 ≤ c.val) : (∃ d ∈ upperPoint c, 0x80 ≤ d.val) ∨
    c = dotlessI ∨ upperPoint c ∈ ligatures := by
  unfold upperPoint
  rw [if_neg (by omega)]
  cases hsequence : upperSequences.lookup c.val with
  | some ns =>
    rcases upperSequences_large (c.val, ns) (mem_of_lookup hsequence) with
      ⟨n, hn, hlarge⟩ | hligature
    · exact .inl ⟨_, List.mem_map_of_mem hn, hlarge⟩
    · exact .inr (.inr hligature)
  | none =>
    by_cases hexception : c.val ∈ [0x131, 0x17F]
    · simp only [List.mem_cons, List.not_mem_nil, or_false] at hexception
      rcases hexception with hdotless | hlong
      · exact .inr (.inl (Fin.ext hdotless))
      · have hother : upperRuns.findSome? (CaseRun.otherCase? · 0x17F) = some 0x53 := by
          decide +kernel
        refine .inr (.inr ?_)
        rw [hlong, hother]
        exact (by decide : [CodePoint.ofNatD 0x53] ∈ ligatures)
    · refine .inl ⟨_, List.mem_singleton_self _, ?_⟩
      cases hother : upperRuns.findSome? (CaseRun.otherCase? · c.val) with
      | none => exact h
      | some m => exact large_of_findSome? upperRuns_large hexception hother

/-! ## ASCII -/

/-- Lower case of a letter of ASCII. -/
def lowerAscii (c : CodePoint) : CodePoint :=
  if 0x41 ≤ c.val ∧ c.val ≤ 0x5A then CodePoint.ofNatD (c.val + 32) else c

/-- Upper case of a letter of ASCII. -/
def upperAscii (c : CodePoint) : CodePoint :=
  if 0x61 ≤ c.val ∧ c.val ≤ 0x7A then CodePoint.ofNatD (c.val - 32) else c

theorem val_lowerAscii (c : CodePoint) :
    (lowerAscii c).val = if 0x41 ≤ c.val ∧ c.val ≤ 0x5A then c.val + 32 else c.val := by
  unfold lowerAscii
  split
  · rw [CodePoint.val_ofNatD (by omega)]
  · rfl

theorem val_upperAscii (c : CodePoint) :
    (upperAscii c).val = if 0x61 ≤ c.val ∧ c.val ≤ 0x7A then c.val - 32 else c.val := by
  unfold upperAscii
  split
  · rw [CodePoint.val_ofNatD (by omega)]
  · rfl

theorem upperAscii_lowerAscii (c : CodePoint) : upperAscii (lowerAscii c) = upperAscii c := by
  refine Fin.ext ?_
  rw [val_upperAscii, val_upperAscii, val_lowerAscii]
  grind

theorem lowerAscii_upperAscii (c : CodePoint) : lowerAscii (upperAscii c) = lowerAscii c := by
  refine Fin.ext ?_
  rw [val_lowerAscii, val_lowerAscii, val_upperAscii]
  grind

theorem lowerPoint_ascii (h : c.val < 0x80) (before after : List CodePoint) :
    lowerPoint before c after = [lowerAscii c] := by
  unfold lowerPoint lowerAscii
  rw [if_pos h]
  simp

theorem upperPoint_ascii (h : c.val < 0x80) : upperPoint c = [upperAscii c] := by
  unfold upperPoint upperAscii
  rw [if_pos h]
  simp

variable {cs w : List CodePoint}

theorem lowerFrom_ascii (h : ∀ c ∈ cs, c.val < 0x80) (before : List CodePoint) :
    lowerFrom before cs = cs.map lowerAscii := by
  induction cs generalizing before with
  | nil => rfl
  | cons c cs ih =>
    obtain ⟨hc, hcs⟩ := List.forall_mem_cons.mp h
    rw [lowerFrom, lowerPoint_ascii hc, ih hcs]
    rfl

theorem flatMap_upperPoint_ascii (h : ∀ c ∈ cs, c.val < 0x80) :
    cs.flatMap upperPoint = cs.map upperAscii := by
  induction cs with
  | nil => rfl
  | cons c cs ih =>
    obtain ⟨hc, hcs⟩ := List.forall_mem_cons.mp h
    rw [List.flatMap_cons, upperPoint_ascii hc, ih hcs]
    rfl

/-! ## Words -/

/-- What is in ASCII in lower case, and has no k, has been in ASCII. -/
theorem ascii_of_lowerFrom (before : List CodePoint)
    (h : ∀ d ∈ lowerFrom before cs, d.val < 0x80 ∧ d ≠ CodePoint.ofNatD 0x6B) :
    ∀ c ∈ cs, c.val < 0x80 := by
  induction cs generalizing before with
  | nil => exact List.forall_mem_nil _
  | cons c cs ih =>
    rw [lowerFrom, List.forall_mem_append] at h
    obtain ⟨hc, hcs⟩ := h
    refine List.forall_mem_cons.mpr ⟨?_, ih _ hcs⟩
    by_contra hlarge
    by_cases hkelvin : c = kelvin
    · rw [hkelvin, lowerPoint_kelvin] at hc
      exact (hc _ (List.mem_singleton_self _)).2 rfl
    · obtain ⟨d, hd, hd'⟩ := exists_large_lowerPoint (Nat.le_of_not_lt hlarge) hkelvin before cs
      exact absurd (hc d hd).1 (Nat.not_lt.mpr hd')

/-- What is in ASCII in upper case, and has no ligature in it, has been in ASCII but for dotless
i. -/
theorem ascii_of_flatMap_upperPoint (hw : ∀ d ∈ cs.flatMap upperPoint, d.val < 0x80)
    (hligatures : ∀ x ∈ ligatures, ¬ x <:+: cs.flatMap upperPoint) (hdotless : dotlessI ∉ cs) :
    ∀ c ∈ cs, c.val < 0x80 := by
  intro c hc
  by_contra hlarge
  rcases upperPoint_cases (Nat.le_of_not_lt hlarge) with ⟨d, hd, hd'⟩ | rfl | hligature
  · exact absurd (hw d (List.mem_flatMap.mpr ⟨c, hc, hd⟩)) (Nat.not_lt.mpr hd')
  · exact hdotless hc
  · obtain ⟨before, after, rfl⟩ := List.append_of_mem hc
    refine hligatures _ hligature ⟨before.flatMap upperPoint, after.flatMap upperPoint, ?_⟩
    rw [List.flatMap_append, List.flatMap_cons, List.append_assoc]

end Case

namespace Text

open Case

/-- A word of capital letters in which no letter above ASCII but the dotless i can stand for
others: it has no K in it, and nothing that a ligature stands for. -/
structure IsPlainWord (w : Text) : Prop where
  capital : ∀ d ∈ w.points, 0x41 ≤ d.val ∧ d.val ≤ 0x5A ∧ d.val ≠ 0x4B
  ligature : ∀ x ∈ ligatures, ¬ x <:+: w.points

-- as a check of a list, because the bounded quantifier would be decided for all code points
instance (w : Text) : Decidable w.IsPlainWord :=
  decidable_of_iff ((w.points.all fun d => 0x41 ≤ d.val && d.val ≤ 0x5A && d.val != 0x4B) = true ∧
      ∀ x ∈ ligatures, ¬ x <:+: w.points)
    ⟨fun ⟨h, h'⟩ => ⟨by simpa [and_assoc] using h, h'⟩,
      fun ⟨h, h'⟩ => ⟨by simpa [and_assoc] using h, h'⟩⟩

namespace IsPlainWord

variable {w : Text} {d : CodePoint}

theorem ascii (h : w.IsPlainWord) : ∀ d ∈ w.points, d.val < 0x80 := fun d hd => by
  have hcapital := h.capital d hd
  omega

/-- The letters are capitals already. -/
theorem map_upperAscii (h : w.IsPlainWord) : w.points.map upperAscii = w.points := by
  refine (List.map_congr_left fun d hd => ?_).trans (List.map_id _)
  have hcapital := h.capital d hd
  refine Fin.ext ?_
  rw [val_upperAscii, if_neg (by omega)]
  rfl

/-- No small letter of the word is a k. -/
theorem lowerAscii_ne (h : w.IsPlainWord) (hd : d ∈ w.points) :
    (lowerAscii d).val < 0x80 ∧ lowerAscii d ≠ CodePoint.ofNatD 0x6B := by
  have hcapital := h.capital d hd
  have hval := val_lowerAscii d
  rw [if_pos (by omega)] at hval
  refine ⟨by omega, fun hk => ?_⟩
  rw [hk, CodePoint.val_ofNatD (by omega)] at hval
  omega

end IsPlainWord

/-- **What is the same in lower case is the same in upper case, and has no dotless i in it.** This
is so for words of capital letters in which nothing else above ASCII can stand for others. -/
theorem toLower_eq_iff {t w : Text} (hw : w.IsPlainWord) :
    t.toLower = w.toLower ↔ t.toUpper = w ∧ dotlessI ∉ t.points := by
  obtain ⟨cs⟩ := t
  obtain ⟨ws⟩ := w
  have hlower : lowerFrom [] ws = ws.map lowerAscii := lowerFrom_ascii hw.ascii []
  simp only [toLower, toUpper, Text.mk.injEq, hlower]
  constructor
  · intro h
    have hcs : ∀ c ∈ cs, c.val < 0x80 := ascii_of_lowerFrom [] fun d hd => by
      rw [h] at hd
      obtain ⟨d', hd', rfl⟩ := List.mem_map.mp hd
      exact hw.lowerAscii_ne hd'
    rw [lowerFrom_ascii hcs] at h
    -- in upper case the letters are what they would have been before lower case
    have h' := congrArg (List.map upperAscii) h
    simp only [List.map_map, Function.comp_def, upperAscii_lowerAscii] at h'
    rw [flatMap_upperPoint_ascii hcs]
    exact ⟨h'.trans hw.map_upperAscii, fun hmem => absurd (hcs _ hmem) (by decide)⟩
  · rintro ⟨h, hdotless⟩
    have hcs : ∀ c ∈ cs, c.val < 0x80 :=
      ascii_of_flatMap_upperPoint (h ▸ hw.ascii) (h ▸ hw.ligature) hdotless
    rw [flatMap_upperPoint_ascii hcs] at h
    rw [lowerFrom_ascii hcs, ← h, List.map_map]
    exact (List.map_congr_left fun c _ => lowerAscii_upperAscii c).symm

end Text

end BootConfig
