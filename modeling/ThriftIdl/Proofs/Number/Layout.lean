import Mathlib.Algebra.Order.Field.Power
import Mathlib.Data.Rat.Cast.Order
import Mathlib.Tactic.FieldSimp
import Mathlib.Tactic.LinearCombination
import Mathlib.Tactic.Positivity
import ThriftIdl.Number.Decimal
import ThriftIdl.Proofs.Layout.Spelling
import ThriftIdl.Proofs.Number.Shortest

/-!
# The written forms of numbers

What is written for a number has a decimal value, whether the digits are set out around a point or
with an exponent. The value rounds to the number, so no two numbers are written alike, and the point
or the exponent tells them from integers. Main statements: `ofSignedDigits?_integerDigits`,
`write_spec` and `write_injective`.
-/

namespace ThriftIdl.Number

/-! ## Figures -/

/-- A natural number is written in digits only. -/
theorem isDigit_of_mem_decimalDigits {value : Nat} {char : Char}
    (member : char ∈ decimalDigits value) : char.isDigit :=
  Nat.isDigit_of_mem_toDigits (by decide) (by decide) member

/-- An integer is written in digits and a minus sign. -/
theorem isDigit_or_sign_of_mem_integerDigits {value : Int} {char : Char}
    (member : char ∈ integerDigits value) : char.isDigit ∨ char = '-' := by
  unfold integerDigits at member
  split at member
  · rcases List.mem_cons.mp member with rfl | member
    · exact .inr rfl
    · exact .inl (isDigit_of_mem_decimalDigits member)
  · exact .inl (isDigit_of_mem_decimalDigits member)

/-- **A numeral** is read back. -/
theorem ofDigits?_decimalDigits (value : Nat) :
    ofDigits? 10 (decimalDigits value) = some value := by
  rw [decimalDigits, ofDigits?_of_ne_nil Nat.toDigits_ne_nil]
  exact appendDigits?_toDigits (.inl rfl) _

/-- **An integer is read back** from what is written for it, also after a plus sign if it is not
negative. -/
theorem ofSignedDigits?_integerDigits (value : Int) {sign : List Char}
    (signed : sign = [] ∨ sign = ['+'] ∧ 0 ≤ value) :
    ofSignedDigits? (sign ++ integerDigits value) = some value := by
  have figures : ∀ char ∈ decimalDigits value.natAbs, char.isDigit :=
    fun _ => isDigit_of_mem_decimalDigits
  have read := ofDigits?_decimalDigits value.natAbs
  unfold integerDigits
  split
  · next negative =>
      obtain rfl := signed.resolve_right (by omega)
      have minus : Layout.WritesSign value ['-'] := .inl ⟨rfl, by omega⟩
      change ofSignedDigits? (['-'] ++ decimalDigits value.natAbs) = some value
      exact Layout.ofSignedDigits?_append (.inl minus) figures read
  · next positive =>
      refine Layout.ofSignedDigits?_append (signed.imp_left fun none => ?_) figures read
      exact .inr ⟨none, by omega⟩

/-- The number that figures denote. -/
def figures (digits : List Char) : Nat :=
  (appendDigits? 10 0 digits).getD 0

private theorem figures_decimalDigits (value : Nat) : figures (decimalDigits value) = value := by
  rw [figures, decimalDigits, appendDigits?_toDigits (.inl rfl), Option.getD_some]

private theorem figures_zeros_append (zeros : Nat) (digits : List Char) :
    figures (List.replicate zeros '0' ++ digits) = figures digits := by
  rw [figures, appendDigits?_zeros (by decide) fun _ => List.eq_of_mem_replicate, figures]

private theorem appendDigits?_replicate (known zeros : Nat) :
    appendDigits? 10 known (List.replicate zeros '0') = some (known * 10 ^ zeros) := by
  induction zeros generalizing known with
  | zero => simp [appendDigits?]
  | succ zeros ih =>
      have zero : digit? 10 '0' = some 0 := by decide
      rw [List.replicate_succ, appendDigits?, zero]
      simp only [ih, Nat.add_zero, Nat.pow_succ']
      rw [Nat.mul_assoc]

/-- Zeros at the end of figures are factors of ten. -/
theorem figures_append_zeros {digits : List Char} (zeros : Nat) :
    figures (digits ++ List.replicate zeros '0') = figures digits * 10 ^ zeros := by
  rw [figures, appendDigits?_append, figures]
  cases appendDigits? 10 0 digits with
  | none => simp
  | some value => rw [Option.bind_some, appendDigits?_replicate, Option.getD_some, Option.getD_some]

/-! ## Values -/

/-- The value of an unsigned decimal numeral. -/
def decimalValue (numeral : List Char) : ℚ :=
  let whole := numeral.takeWhile Char.isDigit
  let afterWhole := numeral.dropWhile Char.isDigit
  let fraction := match afterWhole with
    | '.' :: rest => rest.takeWhile Char.isDigit
    | _ => []
  let afterFraction := match afterWhole with
    | '.' :: rest => rest.dropWhile Char.isDigit
    | rest => rest
  figures (whole ++ fraction) * 10 ^ ((Binary64.exponent? afterFraction).getD 0 - fraction.length)

/-- The value of a numeral by its parts. -/
theorem decimalValue_append {whole fraction rest : List Char} {exponent : Int}
    (wholeFigures : ∀ char ∈ whole, char.isDigit)
    (fractionFigures : ∀ char ∈ fraction, char.isDigit)
    (stops : Source.Stops Char.isDigit rest) (power : Binary64.exponent? rest = some exponent) :
    decimalValue (whole ++ '.' :: (fraction ++ rest)) =
      figures (whole ++ fraction) * 10 ^ (exponent - fraction.length) := by
  have point : Source.Stops Char.isDigit ('.' :: (fraction ++ rest)) := Source.stops_cons.mpr rfl
  unfold decimalValue
  simp only [point.takeWhile_append wholeFigures, point.dropWhile_append wholeFigures,
    stops.takeWhile_append fractionFigures, stops.dropWhile_append fractionFigures, power,
    Option.getD_some]

private theorem decimalValue_whole {whole rest : List Char} {exponent : Int}
    (wholeFigures : ∀ char ∈ whole, char.isDigit) (stops : Source.Stops Char.isDigit rest)
    (noPoint : ∀ more, rest ≠ '.' :: more) (power : Binary64.exponent? rest = some exponent) :
    decimalValue (whole ++ rest) = figures whole * 10 ^ exponent := by
  unfold decimalValue
  simp [stops.takeWhile_append wholeFigures, stops.dropWhile_append wholeFigures, power]

/-- The value of digits with the power of ten of the first of them. -/
def Scientific.value (scientific : Scientific) : ℚ :=
  figures scientific.digits * 10 ^ (scientific.exponent + 1 - scientific.digits.length)

/-- A numeral by the digits that are kept of it, and the zeros at its end. -/
theorem exists_zeros (multiple : Nat) (power : Int) :
    ∃ zeros, decimalDigits multiple =
        (Binary64.Scientific.ofMultiple multiple power).digits ++ List.replicate zeros '0' := by
  have split := List.takeWhile_append_dropWhile (p := (· = '0'))
    (l := (decimalDigits multiple).reverse)
  have zeros : (decimalDigits multiple).reverse.takeWhile (· = '0') =
      List.replicate ((decimalDigits multiple).reverse.takeWhile (· = '0')).length '0' :=
    List.eq_replicate_iff.mpr ⟨rfl, fun char member => by simpa using List.mem_takeWhile_imp member⟩
  refine ⟨((decimalDigits multiple).reverse.takeWhile (· = '0')).length, ?_⟩
  rw [← List.reverse_inj, List.reverse_append, List.reverse_replicate, ← zeros]
  simp [Binary64.Scientific.ofMultiple]

/-- Without the zeros at its end a numeral denotes the same with a power of ten. -/
theorem value_ofMultiple (multiple : Nat) (power : Int) :
    (Binary64.Scientific.ofMultiple multiple power).value = multiple * 10 ^ power := by
  obtain ⟨zeros, split⟩ := exists_zeros multiple power
  have length := congrArg List.length split
  have denoted := figures_decimalDigits multiple
  rw [split, figures_append_zeros] at denoted
  rw [List.length_append, List.length_replicate] at length
  have exponent : (Binary64.Scientific.ofMultiple multiple power).exponent + 1 -
      (Binary64.Scientific.ofMultiple multiple power).digits.length = zeros + power := by
    have exponent : (Binary64.Scientific.ofMultiple multiple power).exponent =
        power + (decimalDigits multiple).length - 1 := rfl
    omega
  rw [Scientific.value, exponent, zpow_add₀ (by norm_num), zpow_natCast, ← mul_assoc]
  congr 1
  rw [← Nat.cast_ofNat, ← Nat.cast_pow, ← Nat.cast_mul, denoted]

/-- The digits that are kept of a numeral are figures, and there are some. -/
theorem digits_ofMultiple {multiple : Nat} (positive : 0 < multiple) (power : Int) :
    (Binary64.Scientific.ofMultiple multiple power).digits ≠ [] ∧
      ∀ char ∈ (Binary64.Scientific.ofMultiple multiple power).digits, char.isDigit := by
  obtain ⟨zeros, split⟩ := exists_zeros multiple power
  constructor
  · intro none
    have denoted := figures_decimalDigits multiple
    rw [split, none, figures_append_zeros] at denoted
    have zero : figures [] = 0 := rfl
    rw [zero, Nat.zero_mul] at denoted
    omega
  · intro char member
    have among : char ∈ decimalDigits multiple := by
      rw [split]
      exact List.mem_append_left _ member
    exact isDigit_of_mem_decimalDigits among

namespace Binary64

/-- Whether a number rounds from a value, which is a multiple of a power of ten. -/
def RoundsFrom (number : Binary64) (value : ℚ) : Prop :=
  ∃ (multiple : Nat) (power : Int), 0 < multiple ∧ value = multiple * 10 ^ power ∧
    number.roundsHere (multiple * (quarterDenominator * Nat.pow 10 power.toNat))
      (Nat.pow 10 (-power).toNat)

private theorem RoundsFrom.pos {number : Binary64} {value : ℚ} (rounds : number.RoundsFrom value) :
    0 < value := by
  obtain ⟨multiple, power, positive, rfl, -⟩ := rounds
  positivity

/-- A power of ten as a quotient of natural numbers. -/
theorem pow_toNat (power : Int) :
    ((Nat.pow 10 power.toNat : Nat) : ℚ) = 10 ^ power * (Nat.pow 10 (-power).toNat : Nat) := by
  rw [Nat.pow_eq, Nat.pow_eq, Nat.cast_pow, Nat.cast_pow, Nat.cast_ofNat, ← zpow_natCast,
    ← zpow_natCast, ← zpow_add₀ (by norm_num)]
  congr 1
  omega

/-- **Numbers that round from one value** are the same up to their signs. -/
theorem RoundsFrom.magnitude_eq {number other : Binary64} {value : ℚ}
    (rounds : number.RoundsFrom value) (rounds' : other.RoundsFrom value) :
    number.magnitude = other.magnitude := by
  obtain ⟨multiple, power, positive, same, here⟩ := rounds
  obtain ⟨multiple', power', positive', same', there⟩ := rounds'
  refine magnitude_eq_of_roundsHere (Nat.pow_pos (by decide)) (Nat.pow_pos (by decide)) here there
    ?_
  have equal : (multiple : ℚ) * 10 ^ power = multiple' * 10 ^ power' := same.symm.trans same'
  rw [← Nat.cast_inj (R := ℚ)]
  simp only [Nat.cast_mul, pow_toNat power, pow_toNat power']
  linear_combination (quarterDenominator : ℚ) * (Nat.pow 10 (-power).toNat : Nat) *
    (Nat.pow 10 (-power').toNat : Nat) * equal

/-- A number is known by its sign and its magnitude. -/
theorem eq_of_magnitude {number other : Binary64} (signs : number.isNegative = other.isNegative)
    (magnitudes : number.magnitude = other.magnitude) : number = other := by
  obtain ⟨bits⟩ := number
  obtain ⟨bits'⟩ := other
  simp only [isNegative, magnitude, decide_eq_decide] at signs magnitudes
  have bound := bits.toNat_lt
  have bound' := bits'.toNat_lt
  refine congrArg mk (UInt64.toNat_inj.mp ?_)
  have signBit : 1 <<< 63 = 9223372036854775808 := rfl
  rw [signBit] at signs magnitudes
  omega

end Binary64

/-! ## Written forms -/

namespace Layout

variable {scientific : Scientific}

/-- Zeros are digits. -/
theorem isDigit_of_mem_zeros (zeros : Nat) : ∀ char ∈ List.replicate zeros '0', char.isDigit := by
  intro char member
  rw [List.eq_of_mem_replicate member]
  rfl

/-- Zeros around digits are worth as many places. -/
theorem figures_around (leading : Nat) (digits : List Char) (trailing : Nat) (power : Int) :
    (figures (List.replicate leading '0' ++ (digits ++ List.replicate trailing '0')) : ℚ) *
      10 ^ power = figures digits * 10 ^ (trailing + power) := by
  rw [figures_zeros_append, figures_append_zeros, zpow_add₀ (by norm_num), zpow_natCast]
  push_cast
  ring

/-- Whether a text has figures on both sides of a point, of a given value. -/
def IsAroundPoint (text : List Char) (value : ℚ) : Prop :=
  ∃ whole fraction, text = whole ++ '.' :: fraction ∧ whole ≠ [] ∧
    (∀ char ∈ whole, char.isDigit) ∧ (∀ char ∈ fraction, char.isDigit) ∧
    figures (whole ++ fraction) * 10 ^ (0 - fraction.length : Int) = value

/-- All digits stand before the point, and zeros behind them. -/
theorem positional_of_length_le (inside : ∀ char ∈ scientific.digits, char.isDigit)
    (rising : 0 ≤ scientific.exponent)
    (short : scientific.digits.length ≤ scientific.exponent.toNat + 1) :
    IsAroundPoint (positional scientific) scientific.value := by
  obtain ⟨digits, exponent⟩ := scientific
  unfold positional Scientific.value
  dsimp only at inside rising short ⊢
  generalize length : exponent.toNat + 1 = places at short
  have value := figures_around 0 digits (places - digits.length + 1) (-1)
  have power : ((places - digits.length + 1 : Nat) : Int) + -1 =
      exponent + 1 - digits.length := by omega
  rw [power, ← List.replicate_append_replicate, ← List.append_assoc digits, List.replicate_zero,
    List.nil_append] at value
  refine ⟨digits ++ List.replicate (places - digits.length) '0', ['0'], ?_, ?_,
    List.forall_mem_append.mpr ⟨inside, isDigit_of_mem_zeros _⟩, isDigit_of_mem_zeros 1, value⟩
  · rw [if_pos rising, List.take_of_length_le short, List.drop_of_length_le short]
    rfl
  · intro none
    have empty := congrArg List.length none
    rw [List.length_append, List.length_replicate, List.length_nil] at empty
    omega

/-- The point parts the digits. -/
theorem positional_of_lt_length (inside : ∀ char ∈ scientific.digits, char.isDigit)
    (rising : 0 ≤ scientific.exponent)
    (long : scientific.exponent.toNat + 1 < scientific.digits.length) :
    IsAroundPoint (positional scientific) scientific.value := by
  obtain ⟨digits, exponent⟩ := scientific
  unfold positional Scientific.value
  dsimp only at inside rising long ⊢
  generalize length : exponent.toNat + 1 = places at long
  have fraction : digits.drop places ≠ [] := by
    rw [ne_eq, List.drop_eq_nil_iff]
    omega
  have padding : places - digits.length = 0 := by omega
  have power : (0 - (digits.drop places).length : Int) = exponent + 1 - digits.length := by
    rw [List.length_drop]
    omega
  refine ⟨digits.take places, digits.drop places, ?_, ?_,
    fun char member => inside char (List.mem_of_mem_take member),
    fun char member => inside char (List.mem_of_mem_drop member), ?_⟩
  · rw [if_pos rising, padding, if_neg (by simpa using fraction), List.replicate_zero,
      List.append_nil]
  · intro none
    have empty := congrArg List.length none
    rw [List.length_take, List.length_nil] at empty
    omega
  · rw [List.take_append_drop, power]

/-- All digits stand behind the point, and zeros before them. -/
theorem positional_of_neg (inside : ∀ char ∈ scientific.digits, char.isDigit)
    (falling : scientific.exponent < 0) :
    IsAroundPoint (positional scientific) scientific.value := by
  obtain ⟨digits, exponent⟩ := scientific
  unfold positional Scientific.value
  dsimp only at inside falling ⊢
  have value := figures_around ((-exponent).toNat - 1 + 1) digits 0
    (0 - (List.replicate ((-exponent).toNat - 1) '0' ++ digits).length)
  have power : ((0 : Nat) : Int) +
      (0 - (List.replicate ((-exponent).toNat - 1) '0' ++ digits).length : Int) =
        exponent + 1 - digits.length := by
    rw [List.length_append, List.length_replicate]
    omega
  rw [power, List.replicate_zero, List.append_nil, List.replicate_succ, List.cons_append] at value
  rw [if_neg (by omega)]
  exact ⟨['0'], List.replicate ((-exponent).toNat - 1) '0' ++ digits, rfl, by simp,
    isDigit_of_mem_zeros 1, List.forall_mem_append.mpr ⟨isDigit_of_mem_zeros _, inside⟩, value⟩

/-- **Positional writing** puts figures on both sides of a point, which have the value of the
digits. -/
theorem isAroundPoint_positional (inside : ∀ char ∈ scientific.digits, char.isDigit) :
    IsAroundPoint (positional scientific) scientific.value := by
  by_cases rising : 0 ≤ scientific.exponent
  · by_cases short : scientific.digits.length ≤ scientific.exponent.toNat + 1
    · exact positional_of_length_le inside rising short
    · exact positional_of_lt_length inside rising (by omega)
  · exact positional_of_neg inside (by omega)

/-- Around a point digits have their value. -/
theorem decimalValue_positional (inside : ∀ char ∈ scientific.digits, char.isDigit) :
    decimalValue (positional scientific) = scientific.value := by
  obtain ⟨whole, fraction, written, -, wholeFigures, fractionFigures, value⟩ :=
    isAroundPoint_positional inside
  have noPower : Binary64.exponent? [] = some 0 := rfl
  have read := decimalValue_append wholeFigures fractionFigures Source.stops_nil noPower
  rw [List.append_nil] at read
  rw [written, read, value]

/-- With an exponent digits have their value. -/
theorem decimalValue_exponential {layout : Layout}
    (rising : layout.risingMark = [] ∨ layout.risingMark = ['+']) (some : scientific.digits ≠ [])
    (inside : ∀ char ∈ scientific.digits, char.isDigit) :
    decimalValue (layout.exponential scientific) = scientific.value := by
  obtain ⟨digits, exponent⟩ := scientific
  obtain ⟨first, others, rfl⟩ := List.exists_cons_of_ne_nil some
  rw [List.forall_mem_cons] at inside
  have power : Binary64.exponent? ('e' :: ((if 0 ≤ exponent then layout.risingMark else []) ++
      integerDigits exponent)) = .some exponent := by
    rw [Binary64.exponent?, if_pos (.inl rfl)]
    refine ofSignedDigits?_integerDigits exponent ?_
    by_cases positive : 0 ≤ exponent
    · rw [if_pos positive]
      exact rising.imp_right fun plus => ⟨plus, positive⟩
    · exact .inl (if_neg positive)
  generalize power' : (if 0 ≤ exponent then layout.risingMark else []) ++ integerDigits exponent =
    digits at power
  have stops : Source.Stops Char.isDigit ('e' :: digits) := Source.stops_cons.mpr rfl
  have isFirst : ∀ char ∈ [first], char.isDigit := by simpa using inside.1
  unfold exponential
  dsimp only
  rw [List.append_assoc _ _ (integerDigits exponent), power']
  cases others with
  | nil =>
      have value := decimalValue_whole isFirst stops (by simp) power
      simpa [Scientific.value] using value
  | cons second more =>
      have value := decimalValue_append isFirst inside.2 stops power
      have places : exponent + 1 - ((second :: more).length + 1 : Nat) =
          exponent - (second :: more).length := by omega
      rw [Scientific.value]
      simp only [List.length_cons] at places value ⊢
      rw [places]
      simpa using value

/-- Whether a character may stand in a number. -/
def isNumberChar (char : Char) : Bool :=
  char.isDigit || char == '-' || char == '+' || char == '.' || char == 'e'

/-- An integer is written in characters of numbers. -/
theorem isNumberChar_of_mem_integerDigits {value : Int} {char : Char}
    (member : char ∈ integerDigits value) : isNumberChar char := by
  rcases isDigit_or_sign_of_mem_integerDigits member with figure | rfl
  · simp [isNumberChar, figure]
  · rfl

/-- What is written for a number without its sign. -/
structure IsUnsigned (text : List Char) : Prop where
  begins : text.head?.any Char.isDigit
  inside : ∀ char ∈ text, isNumberChar char
  /-- There is a point or an exponent. -/
  fractional : '.' ∈ text ∨ 'e' ∈ text

private theorem isNumberChar_of_isDigit {char : Char} (figure : char.isDigit) :
    isNumberChar char := by
  simp [isNumberChar, figure]

private theorem isUnsigned_positional (inside : ∀ char ∈ scientific.digits, char.isDigit) :
    IsUnsigned (positional scientific) := by
  obtain ⟨whole, fraction, written, some, wholeFigures, fractionFigures, -⟩ :=
    isAroundPoint_positional inside
  rw [written]
  obtain ⟨first, others, rfl⟩ := List.exists_cons_of_ne_nil some
  refine ⟨by simpa using wholeFigures first (by simp), fun char member => ?_, .inl (by simp)⟩
  rcases List.mem_append.mp member with before | after
  · exact isNumberChar_of_isDigit (wholeFigures char before)
  · rcases List.mem_cons.mp after with rfl | figure
    · rfl
    · exact isNumberChar_of_isDigit (fractionFigures char figure)

private theorem isUnsigned_exponential {layout : Layout}
    (rising : layout.risingMark = [] ∨ layout.risingMark = ['+']) (some : scientific.digits ≠ [])
    (inside : ∀ char ∈ scientific.digits, char.isDigit) :
    IsUnsigned (layout.exponential scientific) := by
  obtain ⟨digits, exponent⟩ := scientific
  obtain ⟨first, others, rfl⟩ := List.exists_cons_of_ne_nil some
  rw [List.forall_mem_cons] at inside
  unfold exponential
  dsimp only
  refine ⟨by simpa using inside.1, fun char member => ?_, .inr (by simp)⟩
  simp only [List.mem_append] at member
  rcases member with (((whole | fraction) | letter) | mark) | power
  · rw [List.mem_singleton.mp whole]
    exact isNumberChar_of_isDigit inside.1
  · split at fraction
    · cases fraction
    · rcases List.mem_cons.mp fraction with rfl | figure
      · rfl
      · exact isNumberChar_of_isDigit (inside.2 char figure)
  · rw [List.mem_singleton.mp letter]
    rfl
  · split at mark
    · rcases rising with none | plus
      · rw [none] at mark
        cases mark
      · rw [plus, List.mem_singleton] at mark
        rw [mark]
        rfl
    · cases mark
  · exact isNumberChar_of_mem_integerDigits power

/-- **What is written for a number** is a numeral with a sign. Its value is zero for zeros, and for
other numbers it is a value that rounds to the number. -/
theorem write_spec {layout : Layout}
    (rising : layout.risingMark = [] ∨ layout.risingMark = ['+']) (number : Binary64) :
    ∃ unsigned, IsUnsigned unsigned ∧
      layout.write number = (if number.isNegative then '-' :: unsigned else unsigned) ∧
      (number.isZero → decimalValue unsigned = 0) ∧
      (number.isZero = false → number.RoundsFrom (decimalValue unsigned)) := by
  by_cases zero : number.isZero
  · refine ⟨['0', '.', '0'], ⟨rfl, List.all_eq_true.mp rfl, .inl (by simp)⟩, ?_, fun _ => ?_,
      fun nonzero => ?_⟩
    · simp only [write, zero, if_true]
    · have noPower : Binary64.exponent? [] = some 0 := rfl
      have figure : ∀ char ∈ ['0'], char.isDigit := List.all_eq_true.mp rfl
      have value := decimalValue_append figure figure Source.stops_nil noPower
      have none : figures (['0'] ++ ['0']) = 0 := rfl
      rw [none, Nat.cast_zero, zero_mul] at value
      exact value
    · rw [zero] at nonzero
      cases nonzero
  · have nonzero : number.isZero = false := by simpa using zero
    obtain ⟨multiple, power, positive, shortest, rounds⟩ :=
      Binary64.shortest_spec layout.midway nonzero
    obtain ⟨some, inside⟩ := digits_ofMultiple positive power
    have value := value_ofMultiple multiple power
    rw [← shortest] at some inside value
    -- Both layouts write the same multiple of a power of ten, which rounds to the number.
    by_cases around : layout.lowest ≤ (number.shortest layout.midway).exponent ∧
        (number.shortest layout.midway).exponent ≤ layout.highest
    · refine ⟨positional (number.shortest layout.midway), isUnsigned_positional inside, ?_,
        fun yes => absurd yes zero, fun _ => ⟨multiple, power, positive, ?_, rounds⟩⟩
      · simp [write, nonzero, around]
      · rw [decimalValue_positional inside, value]
    · refine ⟨layout.exponential (number.shortest layout.midway),
        isUnsigned_exponential rising some inside, ?_, fun yes => absurd yes zero,
        fun _ => ⟨multiple, power, positive, ?_, rounds⟩⟩
      · simp [write, nonzero, around]
      · rw [decimalValue_exponential rising some inside, value]

/-- **No two numbers are written alike.** -/
theorem write_injective {layout : Layout}
    (rising : layout.risingMark = [] ∨ layout.risingMark = ['+']) :
    Function.Injective layout.write := by
  intro number other same
  obtain ⟨unsigned, form, written, zero, value⟩ := write_spec rising number
  obtain ⟨unsigned', form', written', zero', value'⟩ := write_spec rising other
  rw [written, written'] at same
  obtain ⟨signs, rfl⟩ : number.isNegative = other.isNegative ∧ unsigned = unsigned' := by
    have apart {text : List Char} (form : IsUnsigned text) (rest : List Char) :
        text ≠ '-' :: rest := by
      rintro rfl
      have figure := form.begins
      cases figure
    cases sign : number.isNegative <;> cases sign' : other.isNegative <;>
      simp only [sign, sign', if_true, Bool.false_eq_true, if_false] at same
    · exact ⟨rfl, same⟩
    · exact absurd same (apart form _)
    · exact absurd same.symm (apart form' _)
    · exact ⟨rfl, (List.cons.inj same).2⟩
  refine Binary64.eq_of_magnitude signs ?_
  cases isZero : number.isZero <;> cases isZero' : other.isZero
  · exact (value isZero).magnitude_eq (value' isZero')
  · exact absurd (zero' isZero') (value isZero).pos.ne'
  · exact absurd (zero isZero) (value' isZero').pos.ne'
  · simp only [Binary64.isZero, decide_eq_true_eq] at isZero isZero'
    rw [isZero, isZero']

end Layout

end ThriftIdl.Number
