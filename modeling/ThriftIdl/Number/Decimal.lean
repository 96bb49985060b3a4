import ThriftIdl.Number.Binary64
import ThriftIdl.Number.Digits

/-!
# Decimal numerals of double-precision numbers

A decimal numeral is an optional sign, figures with at most one point among or around them, and an
optional exponent. It denotes the double-precision number nearest to its exact value.
-/

namespace ThriftIdl.Number

namespace Binary64

/-- A zero with a sign. -/
def zero (negative : Bool) : Binary64 :=
  ofMagnitude negative 0

/-- An infinity with a sign. -/
def infinity (negative : Bool) : Binary64 :=
  ofMagnitude negative infinite

/-- The number nearest to a natural number times a power of ten. Values of `10 ^ 310` and above are
infinite and nonzero values below `10 ^ -330` round to zero, so no larger power is ever formed. -/
def ofDecimal (negative : Bool) (figures : Nat) (exponent : Int) : Binary64 :=
  let leading : Int := (decimalDigits figures).length + exponent
  if figures = 0 then zero negative
  else if 310 < leading then infinity negative
  else if leading < -330 then zero negative
  else if 0 ≤ exponent then ofRatio negative (figures * Nat.pow 10 exponent.toNat) 1
  else ofRatio negative figures (Nat.pow 10 (-exponent).toNat)

/-- A power of ten written after a number: nothing, or the letter `e` in either case and a signed
numeral. -/
def exponent? : List Char → Option Int
  | [] => some 0
  | letter :: digits => if letter = 'e' ∨ letter = 'E' then ofSignedDigits? digits else none

/-- The number that an unsigned decimal numeral denotes, given a sign. -/
def ofUnsigned? (negative : Bool) (numeral : List Char) : Option Binary64 :=
  let whole := numeral.takeWhile Char.isDigit
  let afterWhole := numeral.dropWhile Char.isDigit
  let fraction := match afterWhole with
    | '.' :: rest => rest.takeWhile Char.isDigit
    | _ => []
  let afterFraction := match afterWhole with
    | '.' :: rest => rest.dropWhile Char.isDigit
    | rest => rest
  match ofDigits? 10 (whole ++ fraction), exponent? afterFraction with
  | some figures, some exponent => some (ofDecimal negative figures (exponent - fraction.length))
  | _, _ => none

/-- The number that a decimal numeral denotes. -/
def ofNumeral? : List Char → Option Binary64
  | '-' :: numeral => ofUnsigned? true numeral
  | '+' :: numeral => ofUnsigned? false numeral
  | numeral => ofUnsigned? false numeral

/-- No decimal value is other than a number. -/
theorem isNaN_ofDecimal (negative : Bool) (figures : Nat) (exponent : Int) :
    (ofDecimal negative figures exponent).isNaN = false := by
  have isNaN_zero : (zero negative).isNaN = false := by cases negative <;> rfl
  have isNaN_infinity : (infinity negative).isNaN = false := by cases negative <;> rfl
  unfold ofDecimal
  dsimp only
  split
  · exact isNaN_zero
  split
  · exact isNaN_infinity
  split
  · exact isNaN_zero
  split
  · exact isNaN_ofRatio ..
  · exact isNaN_ofRatio ..

/-- Whatever a decimal numeral denotes is a number. -/
theorem isNaN_of_ofNumeral? {numeral : List Char} {number : Binary64}
    (read : ofNumeral? numeral = some number) : number.isNaN = false := by
  have unsigned {negative : Bool} {rest : List Char}
      (read : ofUnsigned? negative rest = some number) : number.isNaN = false := by
    unfold ofUnsigned? at read
    dsimp only at read
    split at read
    · exact Option.some.inj read ▸ isNaN_ofDecimal ..
    · cases read
  unfold ofNumeral? at read
  split at read <;> exact unsigned read

end Binary64

end ThriftIdl.Number
