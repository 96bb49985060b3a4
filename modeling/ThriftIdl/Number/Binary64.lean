/-!
# Double-precision numbers

An IEEE 754 double is its sixty-four bits: a sign and a *magnitude* of sixty-three bits. Magnitudes
below `Binary64.infinite` are the finite numbers in increasing order, each a significand times a
power of two, counted in units of `2 ^ -1074`. Rounding a quotient of natural numbers is exact
arithmetic on those units, to the nearest number and of two equally near ones to the even.
-/

namespace ThriftIdl.Number

/-- The quotient of two natural numbers rounded to the nearest one, a half to the even one. -/
def roundHalfEven (numerator denominator : Nat) : Nat :=
  let floor := numerator / denominator
  let excess := 2 * (numerator % denominator)
  if excess < denominator then floor
  else if denominator < excess then floor + 1
  else floor + floor % 2

/-- A double-precision number, not-a-numbers and infinities included. -/
structure Binary64 where
  /-- The sixty-four bits, sign first. -/
  bits : UInt64
deriving DecidableEq

namespace Binary64

/-- The magnitude of the infinities; the magnitudes above it are not numbers. -/
def infinite : Nat := 2047 <<< 52

/-- Whether the sign bit is set. -/
def isNegative (number : Binary64) : Bool :=
  1 <<< 63 ≤ number.bits.toNat

/-- All bits but the sign. -/
def magnitude (number : Binary64) : Nat :=
  number.bits.toNat % 1 <<< 63

/-- Whether the bits stand for no number. -/
def isNaN (number : Binary64) : Bool :=
  infinite < number.magnitude

/-- Whether the bits stand for an infinity. -/
def isInfinite (number : Binary64) : Bool :=
  number.magnitude = infinite

/-- Whether the bits stand for one of the two zeros. -/
def isZero (number : Binary64) : Bool :=
  number.magnitude = 0

/-- The power of two by which the significand of a finite number is scaled, above `2 ^ -1074`. -/
def scale (number : Binary64) : Nat :=
  number.magnitude >>> 52 - 1

/-- The significand of a finite number: its fraction, with a leading one unless it is subnormal. -/
def significand (number : Binary64) : Nat :=
  let fraction := number.magnitude % 1 <<< 52
  if number.magnitude < 1 <<< 52 then fraction else fraction + 1 <<< 52

/-- The number with a given sign and magnitude. -/
def ofMagnitude (negative : Bool) (magnitude : Nat) : Binary64 :=
  ⟨UInt64.ofNat (if negative then 1 <<< 63 + magnitude else magnitude)⟩

/-- The magnitude nearest to a quotient. A significand that rounds up to `2 ^ 53` carries into the
next power of two, and what exceeds the finite numbers is infinite. -/
def roundedMagnitude (numerator denominator : Nat) : Nat :=
  let units := numerator <<< 1074
  let scale := Nat.log2 (units / denominator) - 52
  min (roundHalfEven units (denominator <<< scale) + scale <<< 52) infinite

/-- The number nearest to a quotient with a sign. -/
def ofRatio (negative : Bool) (numerator denominator : Nat) : Binary64 :=
  ofMagnitude negative (roundedMagnitude numerator denominator)

/-- The number nearest to an integer. -/
def ofInt (value : Int) : Binary64 :=
  ofRatio (value < 0) value.natAbs 1

/-- Numeric equality: the two zeros are equal, and what is not a number equals nothing. -/
def equals (left right : Binary64) : Bool :=
  !left.isNaN && !right.isNaN && (left == right || (left.isZero && right.isZero))

/-- What is written down with a magnitude up to infinity can be read off again. -/
theorem magnitude_ofMagnitude (negative : Bool) {magnitude : Nat}
    (bounded : magnitude ≤ infinite) :
    (ofMagnitude negative magnitude).magnitude = magnitude := by
  unfold infinite at bounded
  unfold ofMagnitude Binary64.magnitude
  have signBit : 1 <<< 63 = 9223372036854775808 := rfl
  cases negative <;>
    simp only [Bool.false_eq_true, ↓reduceIte, UInt64.toNat_ofNat', signBit] <;> omega

/-- Rounding a quotient always gives a number. -/
theorem isNaN_ofRatio (negative : Bool) (numerator denominator : Nat) :
    (ofRatio negative numerator denominator).isNaN = false := by
  have bounded : roundedMagnitude numerator denominator ≤ infinite := Nat.min_le_right _ _
  simp only [isNaN, ofRatio, magnitude_ofMagnitude negative bounded, decide_eq_false_iff_not,
    Nat.not_lt]
  exact bounded

end Binary64

end ThriftIdl.Number
