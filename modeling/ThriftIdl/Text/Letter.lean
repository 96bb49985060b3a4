/-!
# ASCII letters

The ASCII letters by their code points. Main statements: `isUpper_iff`, `isLower_iff` and
`toNat_toLower`.
-/

namespace ThriftIdl.Text

variable {char : Char}

/-- Capital letters by their code points. -/
theorem isUpper_iff : char.isUpper ↔ 65 ≤ char.toNat ∧ char.toNat ≤ 90 := by
  have spelled : char.isUpper = decide (char.val ≥ 'A'.val ∧ char.val ≤ 'Z'.val) := rfl
  rw [spelled, decide_eq_true_iff, ge_iff_le, UInt32.le_iff_toNat_le, UInt32.le_iff_toNat_le]
  exact Iff.rfl

/-- Small letters by their code points. -/
theorem isLower_iff : char.isLower ↔ 97 ≤ char.toNat ∧ char.toNat ≤ 122 := by
  have spelled : char.isLower = (decide (char.val ≥ 'a'.val) && decide (char.val ≤ 'z'.val)) := rfl
  rw [spelled, Bool.and_eq_true, decide_eq_true_iff, decide_eq_true_iff, ge_iff_le,
    UInt32.le_iff_toNat_le, UInt32.le_iff_toNat_le]
  exact Iff.rfl

theorem isAlpha_iff : char.isAlpha ↔ char.isUpper ∨ char.isLower :=
  Bool.or_eq_true_iff

/-- Letters are of one byte. -/
theorem toNat_lt_of_isAlpha (letter : char.isAlpha) : char.toNat < 128 := by
  rcases isAlpha_iff.mp letter with upper | lower
  · exact Nat.lt_of_le_of_lt (isUpper_iff.mp upper).2 (by decide)
  · exact Nat.lt_of_le_of_lt (isLower_iff.mp lower).2 (by decide)

/-- Digits are of one byte. -/
theorem toNat_lt_of_isDigit (digit : char.isDigit) : char.toNat < 128 :=
  Nat.lt_of_le_of_lt (Char.isDigit_iff_toNat.mp digit).2 (by decide)

/-- No letter is a digit. -/
theorem not_isDigit_of_isAlpha (letter : char.isAlpha) : char.isDigit = false := by
  rw [Bool.eq_false_iff]
  intro digit
  have below : char.toNat ≤ 57 := (Char.isDigit_iff_toNat.mp digit).2
  rcases isAlpha_iff.mp letter with upper | lower
  · have above := (isUpper_iff.mp upper).1
    omega
  · have above := (isLower_iff.mp lower).1
    omega

/-- A capital letter comes thirty-two places before its small one. -/
theorem toNat_toLower (upper : char.isUpper) : char.toLower.toNat = char.toNat + 32 := by
  obtain ⟨above, below⟩ := isUpper_iff.mp upper
  have inside : char.val ≥ 'A'.val ∧ char.val ≤ 'Z'.val :=
    ⟨UInt32.le_iff_toNat_le.mpr above, UInt32.le_iff_toNat_le.mpr below⟩
  have shifted : char.toLower.val = char.val + ('a'.val - 'A'.val) :=
    congrArg Char.val (dif_pos inside)
  have small : char.val.toNat ≤ 90 := below
  have step : ('a'.val - 'A'.val).toNat = 32 := rfl
  change char.toLower.val.toNat = char.val.toNat + 32
  rw [shifted, UInt32.toNat_add, step]
  omega

/-- Only upper-case letters have a lower-case letter of their own. -/
theorem toLower_of_not_isUpper (other : ¬char.isUpper) : char.toLower = char := by
  have outside : ¬(char.val ≥ 'A'.val ∧ char.val ≤ 'Z'.val) := by
    rintro ⟨above, below⟩
    exact other (isUpper_iff.mpr
      ⟨UInt32.le_iff_toNat_le.mp above, UInt32.le_iff_toNat_le.mp below⟩)
  exact dif_neg outside

end ThriftIdl.Text
