import ThriftIdl.Number.Shortest

/-!
# The written form of double-precision numbers

A layout says where positional writing ends and how an exponent is marked; the digits themselves are
the shortest that read back.
-/

namespace ThriftIdl.Number

/-- How the digits of a finite number are set out. -/
structure Layout where
  /-- The least power of ten of a first digit that is written positionally. -/
  lowest : Int
  /-- The greatest power of ten of a first digit that is written positionally. -/
  highest : Int
  /-- What stands before the numeral of an exponent that is not negative. -/
  risingMark : List Char
  /-- Which of two equally near candidates is taken. -/
  midway : Midway

namespace Layout

/-- Digits around a point, with at least one digit on each side of it. -/
def positional (scientific : Scientific) : List Char :=
  let digits := scientific.digits
  if 0 ≤ scientific.exponent then
    let wholeLength := scientific.exponent.toNat + 1
    let whole := digits.take wholeLength ++ List.replicate (wholeLength - digits.length) '0'
    let fraction := digits.drop wholeLength
    whole ++ '.' :: (if fraction.isEmpty then ['0'] else fraction)
  else
    '0' :: '.' :: (List.replicate ((-scientific.exponent).toNat - 1) '0' ++ digits)

/-- One digit, the others after a point if there are any, and the exponent after the letter `e`. -/
def exponential (layout : Layout) (scientific : Scientific) : List Char :=
  let fraction := scientific.digits.drop 1
  scientific.digits.take 1 ++ (if fraction.isEmpty then [] else '.' :: fraction) ++ ['e'] ++
    (if 0 ≤ scientific.exponent then layout.risingMark else []) ++
    integerDigits scientific.exponent

/-- The written form of a finite number; a negative zero keeps its sign. -/
def write (layout : Layout) (number : Binary64) : List Char :=
  let unsigned :=
    if number.isZero then ['0', '.', '0']
    else
      let scientific := number.shortest layout.midway
      if layout.lowest ≤ scientific.exponent ∧ scientific.exponent ≤ layout.highest then
        positional scientific
      else layout.exponential scientific
  if number.isNegative then '-' :: unsigned else unsigned

/-- Interchange text is positional from `10 ^ -5` up to below `10 ^ 16` and marks every exponent
with its sign. -/
def interchange : Layout where
  lowest := -5
  highest := 15
  risingMark := ['+']
  midway := .toEven

/-- Displayed numbers are positional from `10 ^ -4` up to below `10 ^ 16`. -/
def display : Layout where
  lowest := -4
  highest := 15
  risingMark := []
  midway := .up

/-- A number as it is displayed, infinities and what is not a number included. -/
def displayed (number : Binary64) : List Char :=
  if number.isNaN then "NaN".toList
  else if number.isInfinite then (if number.isNegative then "-inf" else "inf").toList
  else display.write number

end Layout

end ThriftIdl.Number
