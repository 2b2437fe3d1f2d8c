import BootConfig.Number.Numeral
import BootConfig.Options.Grammar
import Mathlib.Algebra.Group.Nat.Defs

/-!
# Decimal texts of integers

The decimal text of an integer is read back as that integer, if it is not too long to be read.

* `Shortest.natDigits_eq`: the digits of a number, the last one apart.
* `Numeral.ofDigits_natDigits`, `Shortest.length_natDigits_le`: their value and their number.
* `Numeral.int_intText`: the text of an integer read again.
-/

namespace BootConfig

/-! ## Digits -/

/-- The ASCII digits. -/
def IsDecimal (c : Char) : Prop := ∃ d < 10, c = Nat.digitChar d

namespace IsDecimal

variable {c : Char}

/-- What holds of the ten digits holds of every one. -/
theorem elim (P : Char → Prop) (hdigits : ∀ d < 10, P (Nat.digitChar d)) (h : IsDecimal c) :
    P c := by
  obtain ⟨d, hd, rfl⟩ := h
  exact hdigits d hd

theorem digitValue (h : IsDecimal c) : Numeral.digitValue c < 10 :=
  elim (Numeral.digitValue · < 10) (by decide) h

/-- A digit stands for itself in a numeral. -/
theorem asciiOf (h : IsDecimal c) : Numeral.asciiOf (CodePoint.ofChar c) = c :=
  elim (fun c => Numeral.asciiOf (CodePoint.ofChar c) = c) (by decide) h

theorem not_isSpace (h : IsDecimal c) : Numeral.isSpace c = false :=
  elim (Numeral.isSpace · = false) (by decide) h

theorem ne_sign (h : IsDecimal c) : c ≠ '-' ∧ c ≠ '+' :=
  elim (fun c => c ≠ '-' ∧ c ≠ '+') (by decide) h

theorem isDigit (h : IsDecimal c) : Options.isDigit c = true :=
  elim (Options.isDigit · = true) (by decide) h

end IsDecimal

theorem Numeral.digitValue_digitChar : ∀ d < 10, Numeral.digitValue (Nat.digitChar d) = d := by
  decide

namespace Shortest

theorem natDigits_eq (n : Nat) : natDigits n =
    (if n < 10 then [] else natDigits (n / 10)) ++ [Nat.digitChar (n % 10)] := by
  rw [natDigits]
  split
  · rename_i h
    rw [Nat.mod_eq_of_lt h]
    rfl
  · rfl

theorem isDecimal_natDigits (n : Nat) : ∀ c ∈ natDigits n, IsDecimal c := by
  induction n using Nat.strongRecOn with
  | ind n ih =>
    intro c hc
    rw [natDigits_eq] at hc
    rcases List.mem_append.mp hc with hc | hc
    · split at hc
      · cases hc
      · exact ih (n / 10) (by omega) c hc
    · rw [List.mem_singleton.mp hc]
      exact ⟨n % 10, Nat.mod_lt _ (by omega), rfl⟩

theorem natDigits_ne_nil (n : Nat) : natDigits n ≠ [] := by
  rw [natDigits_eq]
  simp

/-- A number below a power of ten has at most as many digits as the exponent says. -/
theorem length_natDigits_le {n k : Nat} (hk : k ≠ 0) (h : n < 10 ^ k) :
    (natDigits n).length ≤ k := by
  induction k generalizing n with
  | zero => exact (hk rfl).elim
  | succ k ih =>
    rw [natDigits_eq, List.length_append, List.length_singleton]
    split
    · simp
    · rename_i hten
      have hk : k ≠ 0 := by
        rintro rfl
        exact hten (by simpa using h)
      have hquotient : n / 10 < 10 ^ k := by
        rw [Nat.div_lt_iff_lt_mul (by omega), ← Nat.pow_succ]
        exact h
      exact Nat.succ_le_succ (ih hk hquotient)

end Shortest

namespace Numeral

theorem ofDigits_append (base : Nat) (ds : List Nat) (d : Nat) :
    ofDigits base (ds ++ [d]) = ofDigits base ds * base + d := by
  simp [ofDigits]

theorem ofDigits_natDigits (n : Nat) :
    ofDigits 10 ((Shortest.natDigits n).map digitValue) = n := by
  induction n using Nat.strongRecOn with
  | ind n ih =>
    rw [Shortest.natDigits_eq, List.map_append, List.map_singleton, ofDigits_append,
      digitValue_digitChar _ (Nat.mod_lt n (by omega))]
    split
    · have hnil : ofDigits 10 (([] : List Char).map digitValue) = 0 := rfl
      rw [hnil]
      omega
    · rw [ih (n / 10) (by omega)]
      omega

/-! ## Reading -/

theorem scanDigits_decimal {cs : List Char} (h : ∀ c ∈ cs, IsDecimal c) (afterDigit : Bool) :
    scanDigits 10 afterDigit cs = some (cs.map digitValue, []) := by
  induction cs generalizing afterDigit with
  | nil => rfl
  | cons c rest ih =>
    obtain ⟨hc, hrest⟩ := List.forall_mem_cons.mp h
    unfold scanDigits
    rw [if_pos hc.digitValue, ih hrest]
    rfl

theorem strip_of_forall {cs : List Char} (h : ∀ c ∈ cs, isSpace c = false) : strip cs = cs := by
  have hkept : ∀ {ds : List Char}, (∀ c ∈ ds, isSpace c = false) → ds.dropWhile isSpace = ds := by
    intro ds hds
    cases ds with
    | nil => rfl
    | cons d ds => exact List.dropWhile_cons_of_neg (by simp [hds d List.mem_cons_self])
  unfold strip Blank.trimBoth
  rw [hkept h, hkept fun c hc => h c (List.mem_reverse.mp hc), List.reverse_reverse]

/-- No mark of a base is dropped in base ten. -/
theorem dropBaseMark_ten (cs : List Char) : dropBaseMark 10 cs = cs := by
  unfold dropBaseMark
  split
  · rw [if_neg (by simp [isBaseMark])]
  · rfl

theorem takeSign_decimal {cs : List Char} (h : ∀ c ∈ cs, IsDecimal c) :
    takeSign cs = (false, cs) := by
  cases cs with
  | nil => rfl
  | cons c rest =>
    obtain ⟨hminus, hplus⟩ := (h c List.mem_cons_self).ne_sign
    unfold takeSign
    split
    · rename_i heq
      exact (hminus (List.cons_eq_cons.mp heq).1).elim
    · rename_i heq
      exact (hplus (List.cons_eq_cons.mp heq).1).elim
    · rfl

/-- The characters of the text of an integer: digits, behind a hyphen if it is negative. -/
theorem toList_intText (n : Int) : (intText n).toList =
    if n < 0 then '-' :: Shortest.natDigits n.natAbs else Shortest.natDigits n.natAbs := by
  unfold intText
  rw [String.toList_ofList]

/-- The decimal text of an integer is read as that integer, unless it has too many digits. -/
theorem int_intText {n : Int} (h : n.natAbs < 10 ^ maxDigits) :
    int 10 (Text.ofString (intText n)) = .ok n := by
  let ds := Shortest.natDigits n.natAbs
  have hds : ∀ c ∈ ds, IsDecimal c := Shortest.isDecimal_natDigits _
  have hlist := toList_intText n
  have hascii : ∀ c ∈ (intText n).toList, asciiOf (CodePoint.ofChar c) = c ∧ isSpace c = false := by
    intro c hc
    rw [hlist] at hc
    split at hc
    · rcases List.mem_cons.mp hc with rfl | hc
      · exact ⟨by decide, by decide⟩
      · exact ⟨(hds c hc).asciiOf, (hds c hc).not_isSpace⟩
    · exact ⟨(hds c hc).asciiOf, (hds c hc).not_isSpace⟩
  have hpoints : (Text.ofString (intText n)).points.map asciiOf = (intText n).toList := by
    rw [Text.ofString, List.map_map]
    exact (List.map_congr_left fun c hc => (hascii c hc).1).trans (List.map_id _)
  have hsign : takeSign (strip (intText n).toList) = (decide (n < 0), ds) := by
    rw [strip_of_forall fun c hc => (hascii c hc).2, hlist]
    split
    · rename_i hneg
      rw [decide_eq_true hneg]
      rfl
    · rename_i hneg
      rw [decide_eq_false hneg]
      exact takeSign_decimal hds
  have hlength : ¬ maxDigits < (ds.map digitValue).length := by
    rw [List.length_map]
    exact Nat.not_lt.mpr (Shortest.length_natDigits_le (by decide) h)
  have hempty : (ds.map digitValue).isEmpty = false := by
    simpa using Shortest.natDigits_ne_nil _
  unfold int
  rw [hpoints, hsign]
  simp only [dropBaseMark_ten, scanDigits_decimal hds, hempty, hlength, decide_false,
    Bool.and_false, Bool.false_eq_true, if_false, List.isEmpty_nil, Bool.not_true]
  rw [ofDigits_natDigits]
  congr 1
  split <;> rename_i hneg <;> simp at hneg <;> omega

end Numeral

end BootConfig
