import ThriftIdl.Number.Binary64
import ThriftIdl.Number.Digits

/-!
# The shortest decimal digits of a double-precision number

Of all decimal numerals that read back as a given positive number, those with the fewest digits are
looked for on coarser and then finer decimal grids, and of two on the same grid the nearer is taken.
All comparisons are between natural numbers.
-/

namespace ThriftIdl.Number

/-- What to do when a number lies midway between two candidates on a grid. -/
inductive Midway
  /-- Take the candidate whose last digit is even. -/
  | toEven
  /-- Take the greater candidate. -/
  | up
deriving DecidableEq

/-- Decimal digits with the power of ten of the first of them. -/
structure Scientific where
  /-- The significant digits, the first not zero and the last not zero. -/
  digits : List Char
  /-- The power of ten of the first digit. -/
  exponent : Int
deriving DecidableEq

namespace Binary64

/-- Twice the numerator of a finite number over the denominator `2 ^ 1076`. Four units of a
significand make room for the midpoints to both neighbours. -/
def quarters (number : Binary64) : Nat :=
  (4 * number.significand) <<< number.scale

/-- The midpoint to the next greater number, over `2 ^ 1076`. -/
def upperMidpoint (number : Binary64) : Nat :=
  (4 * number.significand + 2) <<< number.scale

/-- The midpoint to the next smaller number, over `2 ^ 1076`. Below a power of two the neighbours
are twice as dense. -/
def lowerMidpoint (number : Binary64) : Nat :=
  if number.significand = 1 <<< 52 ∧ 0 < number.scale then
    (4 * number.significand - 1) <<< number.scale
  else (4 * number.significand - 2) <<< number.scale

/-- The denominator of `quarters` and the midpoints. -/
def quarterDenominator : Nat := 1 <<< 1076

/-- Whether a numerator over `quarterDenominator * factor` rounds to the number: it lies between the
midpoints, or on one of them when the significand is even. -/
def roundsHere (number : Binary64) (numerator factor : Nat) : Bool :=
  let lower := number.lowerMidpoint * factor
  let upper := number.upperMidpoint * factor
  if number.significand % 2 = 0 then lower ≤ numerator && numerator ≤ upper
  else lower < numerator && numerator < upper

/-- The power of ten of the first digit of a positive finite number. -/
def leadingExponent (number : Binary64) : Int :=
  let numerator := number.quarters
  if quarterDenominator ≤ numerator then
    (decimalDigits (numerator / quarterDenominator)).length - 1
  else
    let zeros := (List.range 324).find? fun zeros =>
      quarterDenominator ≤ numerator * Nat.pow 10 (zeros + 1)
    Int.negSucc (zeros.getD 323)

/-- A candidate on the grid of the multiples of `10 ^ power`, as the number of its multiple: one of
the two neighbours of the number on the grid, if it rounds to the number. -/
def onGrid? (midway : Midway) (number : Binary64) (power : Int) : Option Nat :=
  let coarse := Nat.pow 10 power.toNat
  let fine := Nat.pow 10 (-power).toNat
  let numerator := number.quarters * fine
  let unit := quarterDenominator * coarse
  let below := numerator / unit
  let rounds (multiple : Nat) : Bool := number.roundsHere (multiple * unit) fine
  match rounds below, rounds (below + 1) with
  | true, false => some below
  | false, true => some (below + 1)
  | false, false => none
  | true, true =>
    let excess := 2 * (numerator % unit)
    if excess < unit then some below
    else if unit < excess then some (below + 1)
    else match midway with
      | .toEven => some (below + below % 2)
      | .up => some (below + 1)

/-- The digits of a multiple of `10 ^ power`, without zeros at the end. -/
def Scientific.ofMultiple (multiple : Nat) (power : Int) : Scientific :=
  let digits := decimalDigits multiple
  { digits := (digits.reverse.dropWhile (· = '0')).reverse
    exponent := power + digits.length - 1 }

/-- The shortest digits of a positive finite number; seventeen digits always suffice. -/
def shortest (midway : Midway) (number : Binary64) : Scientific :=
  let leading := number.leadingExponent
  let candidate := (List.range 17).findSome? fun (finer : Nat) =>
    let power := leading - finer
    (number.onGrid? midway power).map fun multiple => Scientific.ofMultiple multiple power
  candidate.getD ⟨['0'], 0⟩

end Binary64

end ThriftIdl.Number
