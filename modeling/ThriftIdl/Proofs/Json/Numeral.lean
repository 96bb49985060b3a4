import ThriftIdl.Json.Reader
import ThriftIdl.Proofs.Number.Layout

/-!
# Numerals are read as they are written

A JSON numeral has a whole part without leading zeros, and perhaps a sign, a fraction and an
exponent, each of which has figures. Such a numeral is read to its end, before whatever cannot go on
it (`readNumeral_append`), and what is written for a number is one (`isNumeral_integerDigits`,
`isNumeral_write`).
-/

namespace ThriftIdl

open Source (Stops)

namespace Number

/-! ## First figures -/

/-- Only zero is written with a zero as its first figure. -/
theorem head?_decimalDigits {value : Nat} (positive : 0 < value) :
    (decimalDigits value).head? ≠ some '0' := by
  have figure : ∀ value < 10, 0 < value → value.digitChar ≠ '0' := by decide
  induction value using Nat.strongRecOn with
  | _ value ih =>
      rw [decimalDigits, Nat.toDigits_eq_if (by decide)]
      split
      · next below => simpa using figure value below positive
      · next above =>
          have higher := ih (value / 10) (by omega) (by omega)
          rw [List.head?_append_of_ne_nil _ Nat.toDigits_ne_nil]
          exact higher

/-- The digits that are kept of a numeral begin as the numeral does. -/
theorem head?_digits_ofMultiple {multiple : Nat} (positive : 0 < multiple) (power : Int) :
    (Binary64.Scientific.ofMultiple multiple power).digits.head? ≠ some '0' := by
  obtain ⟨zeros, split⟩ := exists_zeros multiple power
  have first := head?_decimalDigits positive
  rwa [split, List.head?_append_of_ne_nil _ (digits_ofMultiple positive power).1] at first

end Number

namespace Json

variable {rest : List Char}

/-! ## Numerals by their parts -/

/-- The whole part of a numeral: a zero, or figures the first of which is not zero. -/
inductive IsWhole : List Char → Prop
  | zero : IsWhole ['0']
  | figures {first : Char} {others : List Char} : first ≠ '0' →
      (∀ char ∈ first :: others, char.isDigit) → IsWhole (first :: others)

/-- The fraction of a numeral: nothing, or figures behind a point. -/
inductive IsFraction : List Char → Prop
  | none : IsFraction []
  | point {figures : List Char} : figures ≠ [] → (∀ char ∈ figures, char.isDigit) →
      IsFraction ('.' :: figures)

/-- The exponent of a numeral: nothing, or figures behind a letter and perhaps a sign. -/
inductive IsExponent : List Char → Prop
  | none : IsExponent []
  | power {sign figures : List Char} : sign = [] ∨ sign = ['+'] ∨ sign = ['-'] → figures ≠ [] →
      (∀ char ∈ figures, char.isDigit) → IsExponent ('e' :: (sign ++ figures))

/-- A numeral by its four parts. -/
inductive IsNumeral : List Char → Prop
  | parts {sign whole fraction exponent : List Char} : sign = [] ∨ sign = ['-'] →
      IsWhole whole → IsFraction fraction → IsExponent exponent →
      IsNumeral (sign ++ (whole ++ (fraction ++ exponent)))

/-- Whether a character may go on a numeral. -/
def extendsNumeral (char : Char) : Bool :=
  char.isDigit || char == '.' || char == 'e' || char == 'E'

/-! ## Reading the parts -/

private theorem readFigures_append {figures : List Char} (some : figures ≠ [])
    (inside : ∀ char ∈ figures, char.isDigit) (stops : Stops Char.isDigit rest) :
    readFigures (figures ++ rest) = .some (figures, rest) := by
  simp [readFigures, stops.takeWhile_append inside, stops.dropWhile_append inside, some]

private theorem readWhole_append {whole : List Char} (isWhole : IsWhole whole)
    (stops : Stops Char.isDigit rest) : readWhole (whole ++ rest) = some (whole, rest) := by
  cases isWhole with
  | zero => rfl
  | @figures first others noZero inside =>
      have read := readFigures_append (List.cons_ne_nil first others) inside stops
      rw [← read, List.cons_append, readWhole]
      rintro after same
      exact noZero (List.cons.inj same).1

private theorem readFraction_append {fraction : List Char} (isFraction : IsFraction fraction)
    (stops : Stops Char.isDigit rest) (noPoint : Stops (· == '.') rest) :
    readFraction (fraction ++ rest) = some (fraction, rest) := by
  cases isFraction with
  | none =>
      rw [List.nil_append, readFraction]
      rintro after rfl
      cases noPoint
  | point nonempty inside =>
      rw [List.cons_append, readFraction, readFigures_append nonempty inside stops]
      rfl

private theorem readExponentSign_append {sign others : List Char} {first : Char}
    (isSign : sign = [] ∨ sign = ['+'] ∨ sign = ['-']) (figure : first.isDigit) :
    readExponentSign (sign ++ first :: others) = (sign, first :: others) := by
  rcases isSign with rfl | rfl | rfl
  · rw [List.nil_append, readExponentSign]
    · rintro after same
      rw [(List.cons.inj same).1] at figure
      cases figure
    · rintro after same
      rw [(List.cons.inj same).1] at figure
      cases figure
  · rfl
  · rfl

private theorem readExponent_append {exponent : List Char} (isExponent : IsExponent exponent)
    (stops : Stops extendsNumeral rest) :
    readExponent (exponent ++ rest) = some (exponent, rest) := by
  cases isExponent with
  | none =>
      cases rest with
      | nil => rfl
      | cons char others =>
          have noLetter : ¬(char = 'e' ∨ char = 'E') := by
            rintro (rfl | rfl) <;> cases stops
          rw [List.nil_append, readExponent, if_neg noLetter]
  | @power sign figures isSign nonempty inside =>
      have noDigit : Stops Char.isDigit rest := stops.mono (by simp +contextual [extendsNumeral])
      have read := readFigures_append nonempty inside noDigit
      obtain ⟨first, others, rfl⟩ := List.exists_cons_of_ne_nil nonempty
      have signed : readExponentSign (sign ++ first :: others ++ rest) =
          (sign, first :: others ++ rest) := by
        rw [List.append_assoc]
        exact readExponentSign_append isSign (inside first (by simp))
      rw [List.cons_append, readExponent, if_pos (.inl rfl), signed]
      simp only [read]
      rfl

/-- A fraction is followed by an exponent or by what comes after the numeral. -/
theorem stops_exponent {exponent : List Char} (isExponent : IsExponent exponent)
    (stops : Stops extendsNumeral rest) :
    Stops Char.isDigit (exponent ++ rest) ∧ Stops (· == '.') (exponent ++ rest) := by
  cases isExponent with
  | none =>
      exact ⟨stops.mono (by simp +contextual [extendsNumeral]),
        stops.mono (by simp +contextual [extendsNumeral])⟩
  | power => exact ⟨Source.stops_cons.mpr rfl, Source.stops_cons.mpr rfl⟩

/-- A whole part has no sign. -/
theorem IsWhole.append_ne_minus {whole : List Char} (isWhole : IsWhole whole)
    (rest after : List Char) : whole ++ rest ≠ '-' :: after := by
  intro same
  cases isWhole with
  | zero => cases same
  | figures _ inside =>
      have figure := inside _ List.mem_cons_self
      rw [(List.cons.inj same).1] at figure
      cases figure

/-- **A numeral is read to its end**, before whatever cannot go on it. -/
theorem readNumeral_append {numeral : List Char} (isNumeral : IsNumeral numeral)
    (stops : Stops extendsNumeral rest) :
    readNumeral (numeral ++ rest) = some (numeral, rest) := by
  obtain @⟨sign, whole, fraction, exponent, isSign, isWhole, isFraction, isExponent⟩ := isNumeral
  obtain ⟨noDigit, noPoint⟩ := stops_exponent isExponent stops
  have afterWhole : Stops Char.isDigit (fraction ++ (exponent ++ rest)) := by
    cases isFraction with
    | none => exact noDigit
    | point => exact Source.stops_cons.mpr rfl
  have readAfterSign := readWhole_append isWhole afterWhole
  have readAfterWhole := readFraction_append isFraction noDigit noPoint
  have readAfterFraction := readExponent_append isExponent stops
  unfold readNumeral
  rcases isSign with rfl | rfl
  · simp only [List.nil_append, List.append_assoc]
    split
    · next same => exact absurd same (isWhole.append_ne_minus _ _)
    · simp [readAfterSign, readAfterWhole, readAfterFraction]
  · simp [readAfterSign, readAfterWhole, readAfterFraction]

/-! ## What is written for numbers -/

private theorem isWhole_of_head? {whole : List Char} (nonempty : whole ≠ [])
    (inside : ∀ char ∈ whole, char.isDigit) (noZero : whole.head? ≠ some '0') : IsWhole whole := by
  obtain ⟨first, others, rfl⟩ := List.exists_cons_of_ne_nil nonempty
  exact .figures (by simpa using noZero) inside

private theorem isWhole_decimalDigits (value : Nat) : IsWhole (Number.decimalDigits value) := by
  rcases Nat.eq_zero_or_pos value with rfl | positive
  · exact .zero
  · exact isWhole_of_head? Nat.toDigits_ne_nil (fun _ => Number.isDigit_of_mem_decimalDigits)
      (Number.head?_decimalDigits positive)

/-- An integer is written as a numeral. -/
theorem isNumeral_integerDigits (value : Int) : IsNumeral (Number.integerDigits value) := by
  have whole := isWhole_decimalDigits value.natAbs
  unfold Number.integerDigits
  split
  · simpa using IsNumeral.parts (.inr rfl) whole .none .none
  · simpa using IsNumeral.parts (.inl rfl) whole .none .none

/-- A numeral without a sign. -/
def IsUnsignedNumeral (text : List Char) : Prop :=
  ∃ whole fraction exponent, text = whole ++ (fraction ++ exponent) ∧ IsWhole whole ∧
    IsFraction fraction ∧ IsExponent exponent

section Written

open Number (Scientific)
open Number.Layout (positional exponential isDigit_of_mem_zeros)

variable {scientific : Scientific} (nonempty : scientific.digits ≠ [])
  (inside : ∀ char ∈ scientific.digits, char.isDigit)
  (noZero : scientific.digits.head? ≠ some '0')

include nonempty inside noZero

private theorem isUnsignedNumeral_positional : IsUnsignedNumeral (positional scientific) := by
  obtain ⟨digits, exponent⟩ := scientific
  dsimp only at nonempty inside noZero
  unfold positional
  dsimp only
  split
  · next rising =>
      generalize exponent.toNat = places
      have some : digits.take (places + 1) ≠ [] := by simp [nonempty]
      refine ⟨_, _, [], by rw [List.append_nil], isWhole_of_head? ?_ ?_ ?_, ?_, .none⟩
      · exact List.append_ne_nil_of_left_ne_nil some _
      · exact List.forall_mem_append.mpr
          ⟨fun char member => inside char (List.mem_of_mem_take member), isDigit_of_mem_zeros _⟩
      · rwa [List.head?_append_of_ne_nil _ some, List.head?_take, if_neg (Nat.succ_ne_zero _)]
      · split
        · exact .point (by simp) (isDigit_of_mem_zeros 1)
        · next some =>
            exact .point (by simpa using some) fun char member =>
              inside char (List.mem_of_mem_drop member)
  · next falling =>
      refine ⟨['0'], _, [], by rw [List.append_nil]; rfl, .zero, .point ?_ ?_, .none⟩
      · simp [nonempty]
      · exact List.forall_mem_append.mpr ⟨isDigit_of_mem_zeros _, inside⟩

private theorem isUnsignedNumeral_exponential {layout : Number.Layout}
    (rising : layout.risingMark = [] ∨ layout.risingMark = ['+']) :
    IsUnsignedNumeral (layout.exponential scientific) := by
  obtain ⟨digits, exponent⟩ := scientific
  dsimp only at nonempty inside noZero
  obtain ⟨first, others, rfl⟩ := List.exists_cons_of_ne_nil nonempty
  unfold exponential
  dsimp only
  refine ⟨[first], if others.isEmpty then [] else '.' :: others,
    'e' :: ((if 0 ≤ exponent then layout.risingMark else []) ++ Number.integerDigits exponent),
    ?_, ?_, ?_, ?_⟩
  · simp
  · exact .figures (by simpa using noZero) (by simpa using inside first (by simp))
  · split
    · exact .none
    · next some =>
        exact .point (by simpa using some) fun char member => inside char (.tail _ member)
  · have figures : ∀ char ∈ Number.decimalDigits exponent.natAbs, char.isDigit :=
      fun _ => Number.isDigit_of_mem_decimalDigits
    unfold Number.integerDigits
    split
    · next positive =>
        rw [if_neg (by omega)]
        exact .power (rising.imp_right .inl) Nat.toDigits_ne_nil figures
    · next negative =>
        rw [if_pos (by omega)]
        exact @IsExponent.power ['-'] _ (.inr (.inr rfl)) Nat.toDigits_ne_nil figures

end Written

/-- A finite number is written as a numeral. -/
theorem isNumeral_write {layout : Number.Layout}
    (rising : layout.risingMark = [] ∨ layout.risingMark = ['+']) (value : Number.Binary64) :
    IsNumeral (layout.write value) := by
  have unsigned : ∃ text, IsUnsignedNumeral text ∧
      layout.write value = if value.isNegative then '-' :: text else text := by
    by_cases zero : value.isZero
    · refine ⟨['0', '.', '0'], ⟨['0'], ['.', '0'], [], rfl, .zero, ?_, .none⟩, ?_⟩
      · exact .point (by simp) (List.all_eq_true.mp rfl)
      · simp only [Number.Layout.write, zero, if_true]
    · have nonzero : value.isZero = false := by simpa using zero
      obtain ⟨multiple, power, positive, shortest, -⟩ :=
        Number.Binary64.shortest_spec layout.midway nonzero
      obtain ⟨some, inside⟩ := Number.digits_ofMultiple positive power
      have noZero := Number.head?_digits_ofMultiple positive power
      rw [← shortest] at some inside noZero
      by_cases around : layout.lowest ≤ (value.shortest layout.midway).exponent ∧
          (value.shortest layout.midway).exponent ≤ layout.highest
      · refine ⟨_, isUnsignedNumeral_positional some inside noZero, ?_⟩
        simp [Number.Layout.write, nonzero, around]
      · refine ⟨_, isUnsignedNumeral_exponential some inside noZero rising, ?_⟩
        simp [Number.Layout.write, nonzero, around]
  obtain ⟨text, ⟨whole, fraction, exponent, rfl, isWhole, isFraction, isExponent⟩, written⟩ :=
    unsigned
  rw [written]
  split
  · exact @IsNumeral.parts ['-'] _ _ _ (.inr rfl) isWhole isFraction isExponent
  · exact @IsNumeral.parts [] _ _ _ (.inl rfl) isWhole isFraction isExponent

end Json
end ThriftIdl
