import BootConfig.Text.Utf8
import Mathlib.Logic.Function.Basic

/-!
# Bytes kept as text

Any bytes can be read as text and written again without a loss: what is UTF-8 is read as characters,
and every other byte is kept as a surrogate that is written as that byte.

* `Utf8.encodePoint?_head`: the character at the front of bytes is written as the bytes that it was
  read from.
* `Utf8.encodeEscaped_decodeEscaped`: what is read from bytes is written as these bytes.
* `Utf8.decodeEscaped_injective`: different bytes are different texts.
-/

namespace BootConfig.Utf8

variable {n : Nat} {a b c d : UInt8} {bs rest : Bytes}

/-! ## Bytes of one character -/

theorem ofNat_eq (h : n = a.toNat) : UInt8.ofNat n = a := by
  rw [h, UInt8.ofNat_toNat]

theorem isTail_bounds (h : isTail b = true) : 0x80 ≤ b.toNat ∧ b.toNat ≤ 0xBF := by
  simpa [isTail, UInt8.le_iff_toNat_le] using h

/-- A continuation byte is its low bits under the mark. -/
theorem isTail_eq (h : isTail b = true) : b.toNat = 0x80 + tailBits b ∧ tailBits b < 64 := by
  have hbounds := isTail_bounds h
  unfold tailBits
  omega

/-- A bound that a check asks for behind one lead byte only. -/
theorem of_ne_or {lead : UInt8} {p : Prop} (h : a ≠ lead ∨ p) (ha : a.toNat = lead.toNat) : p :=
  h.resolve_left (not_not_intro (UInt8.toNat_inj.mp ha))

/-- Neither an overlong form nor a surrogate has such a second byte. -/
theorem isSecondOfThree_bounds (h : isSecondOfThree a b = true) :
    isTail b = true ∧ (a.toNat = 0xE0 → 0xA0 ≤ b.toNat) ∧ (a.toNat = 0xED → b.toNat ≤ 0x9F) := by
  simp only [isSecondOfThree, Bool.and_eq_true, Bool.or_eq_true, bne_iff_ne, decide_eq_true_eq,
    UInt8.le_iff_toNat_le] at h
  obtain ⟨⟨htail, hlow⟩, hhigh⟩ := h
  exact ⟨htail, of_ne_or hlow, of_ne_or hhigh⟩

/-- Neither an overlong form nor a number that is too great has such a second byte. -/
theorem isSecondOfFour_bounds (h : isSecondOfFour a b = true) :
    isTail b = true ∧ (a.toNat = 0xF0 → 0x90 ≤ b.toNat) ∧ (a.toNat = 0xF4 → b.toNat ≤ 0x8F) := by
  simp only [isSecondOfFour, Bool.and_eq_true, Bool.or_eq_true, bne_iff_ne, decide_eq_true_eq,
    UInt8.le_iff_toNat_le] at h
  obtain ⟨⟨htail, hlow⟩, hhigh⟩ := h
  exact ⟨htail, of_ne_or hlow, of_ne_or hhigh⟩

/-! ## Writing a character again -/

/-- A number that is no surrogate is written as its character. -/
theorem encodePoint?_ofNatD (hn : n < 0x110000) (hs : n < 0xD800 ∨ 0xDFFF < n) :
    encodePoint? (CodePoint.ofNatD n) = some (encodeChar n) := by
  have hnot : (CodePoint.ofNatD n).isSurrogate = false := by
    rw [CodePoint.isSurrogate, CodePoint.val_ofNatD hn]
    simp only [Bool.and_eq_false_iff, decide_eq_false_iff_not]
    omega
  rw [encodePoint?, hnot, CodePoint.val_ofNatD hn]
  rfl

theorem encodePoint?_one (ha : a.toNat ≤ 0x7F) :
    encodePoint? (CodePoint.ofNatD a.toNat) = some [a] := by
  rw [encodePoint?_ofNatD (by omega) (by omega), encodeChar, if_pos (by omega), ofNat_eq rfl]

theorem encodePoint?_two (ha : 0xC2 ≤ a.toNat ∧ a.toNat ≤ 0xDF) (hb : isTail b = true) :
    encodePoint? (CodePoint.ofNatD (a.toNat % 32 * 64 + tailBits b)) = some [a, b] := by
  obtain ⟨hb, hbits⟩ := isTail_eq hb
  rw [encodePoint?_ofNatD (by omega) (by omega), encodeChar, if_neg (by omega), if_pos (by omega),
    ofNat_eq (a := a) (by omega), ofNat_eq (a := b) (by omega)]

theorem encodePoint?_three (ha : 0xE0 ≤ a.toNat ∧ a.toNat ≤ 0xEF)
    (hb : isSecondOfThree a b = true) (hc : isTail c = true) :
    encodePoint? (CodePoint.ofNatD (a.toNat % 16 * 4096 + tailBits b * 64 + tailBits c)) =
      some [a, b, c] := by
  obtain ⟨hb, hlow, hhigh⟩ := isSecondOfThree_bounds hb
  obtain ⟨hb, hbits⟩ := isTail_eq hb
  obtain ⟨hc, hcbits⟩ := isTail_eq hc
  rw [encodePoint?_ofNatD (by omega) (by omega), encodeChar, if_neg (by omega), if_neg (by omega),
    if_pos (by omega), ofNat_eq (a := a) (by omega), ofNat_eq (a := b) (by omega),
    ofNat_eq (a := c) (by omega)]

theorem encodePoint?_four (ha : 0xF0 ≤ a.toNat ∧ a.toNat ≤ 0xF4)
    (hb : isSecondOfFour a b = true) (hc : isTail c = true) (hd : isTail d = true) :
    encodePoint? (CodePoint.ofNatD
      (a.toNat % 8 * 262144 + tailBits b * 4096 + tailBits c * 64 + tailBits d)) =
      some [a, b, c, d] := by
  obtain ⟨hb, hlow, hhigh⟩ := isSecondOfFour_bounds hb
  obtain ⟨hb, hbits⟩ := isTail_eq hb
  obtain ⟨hc, hcbits⟩ := isTail_eq hc
  obtain ⟨hd, hdbits⟩ := isTail_eq hd
  rw [encodePoint?_ofNatD (by omega) (by omega), encodeChar, if_neg (by omega), if_neg (by omega),
    if_neg (by omega), ofNat_eq (a := a) (by omega), ofNat_eq (a := b) (by omega),
    ofNat_eq (a := c) (by omega), ofNat_eq (a := d) (by omega)]

/-- The character at the front of bytes is written as the bytes in front of the rest. -/
theorem encodePoint?_head {lead : UInt8} {point : CodePoint}
    (h : head lead bs = .char point rest) :
    ∃ written, encodePoint? point = some written ∧ lead :: bs = written ++ rest := by
  revert h
  -- a case for each outcome; those without a character go with `cases`
  fun_cases head lead bs <;> intro h <;> cases h
  all_goals simp only [UInt8.le_iff_toNat_le, UInt8.lt_iff_toNat_lt, UInt8.reduceToNat,
    Bool.or_eq_true, decide_eq_true_eq, Bool.not_eq_true', Bool.not_eq_false] at *
  case case1.refl hone => exact ⟨_, encodePoint?_one hone, rfl⟩
  case case4.refl b hb hone hlead htwo => exact ⟨_, encodePoint?_two (by omega) hb, rfl⟩
  case case9.refl b c hc hone hlead htwo hthree hb =>
    exact ⟨_, encodePoint?_three (by omega) hb hc, rfl⟩
  case case16.refl b c d hd hone hlead htwo hthree hb hc =>
    exact ⟨_, encodePoint?_four (by omega) hb hc hd, rfl⟩

/-- A byte that belongs to no character is not ASCII. -/
theorem lead_of_malformed {lead : UInt8} {why : Malformed} {size : Nat}
    (h : head lead bs = .malformed why size) : 0x80 ≤ lead.toNat := by
  by_contra hlow
  have hlead : lead ≤ 0x7F := by
    rw [UInt8.le_iff_toNat_le]
    show lead.toNat ≤ 127
    omega
  simp [head, hlead] at h

/-! ## Bytes as text -/

/-- The surrogate of a byte that is not ASCII is written as the byte. -/
theorem encodePoint?_escapeOf (h : 0x80 ≤ a.toNat) : encodePoint? (escapeOf a) = some [a] := by
  have hlt := a.toNat_lt
  have hval : (escapeOf a).val = 0xDC00 + a.toNat := rfl
  have hsurrogate : (escapeOf a).isSurrogate = true := by
    simp only [CodePoint.isSurrogate, hval, Bool.and_eq_true, decide_eq_true_eq]
    omega
  have hescaped : escaped? (escapeOf a) = some a := by
    rw [escaped?, hval, if_pos (by simp only [Bool.and_eq_true, decide_eq_true_eq]; omega),
      ofNat_eq (a := a) (by omega)]
  rw [encodePoint?, hsurrogate, if_pos rfl, hescaped]
  rfl

/-- Written code points are those of the first one in front of the others. -/
theorem encodeEscaped_cons {point : CodePoint} {points : List CodePoint} {written : Bytes}
    (hpoint : encodePoint? point = some written) (hpoints : encodeEscaped ⟨points⟩ = some rest) :
    encodeEscaped ⟨point :: points⟩ = some (written ++ rest) := by
  obtain ⟨parts, hparts, rfl⟩ := Option.map_eq_some_iff.mp hpoints
  simp only [encodeEscaped, List.mapM_cons, hpoint, hparts]
  rfl

/-- Text that was read from bytes is written as these bytes. -/
theorem encodeEscaped_decodeEscaped (bs : Bytes) : encodeEscaped (decodeEscaped bs) = some bs := by
  unfold decodeEscaped
  fun_induction decodeEscapedPoints bs with
  | case1 => rfl
  | case2 b rest why size hhead ih =>
    exact encodeEscaped_cons (encodePoint?_escapeOf (lead_of_malformed hhead)) ih
  | case3 b rest point rest' hhead _ ih =>
    obtain ⟨written, hwritten, hbytes⟩ := encodePoint?_head hhead
    rw [hbytes]
    exact encodeEscaped_cons hwritten ih

/-- Different bytes are read as different texts. -/
theorem decodeEscaped_injective : Function.Injective decodeEscaped := by
  intro bs bs' h
  have hwritten := congrArg encodeEscaped h
  rw [encodeEscaped_decodeEscaped, encodeEscaped_decodeEscaped] at hwritten
  exact Option.some.inj hwritten

/-- Only no bytes at all are read as the empty text. -/
theorem decodeEscaped_eq_empty : decodeEscaped bs = .empty ↔ bs = [] := by
  constructor
  · intro h
    exact decodeEscaped_injective (h.trans (by rw [decodeEscaped, decodeEscapedPoints]; rfl))
  · rintro rfl
    rw [decodeEscaped, decodeEscapedPoints]
    rfl

end BootConfig.Utf8
