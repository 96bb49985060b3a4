/-!
# Digits

Numerals in a base up to thirty-six, read from the most significant digit on, and the writing of
numbers back in base ten and sixteen.
-/

namespace ThriftIdl.Number

/-- The value of a digit in a base: the ten figures first, then the letters in either case. -/
def digit? (base : Nat) (char : Char) : Option Nat :=
  let value :=
    if char.isDigit then some (char.toNat - '0'.toNat)
    else if char.isLower then some (char.toNat - 'a'.toNat + 10)
    else if char.isUpper then some (char.toNat - 'A'.toNat + 10)
    else none
  value.filter (· < base)

/-- Read further digits after a number that is already known. -/
def appendDigits? (base : Nat) (known : Nat) : List Char → Option Nat
  | [] => some known
  | char :: rest =>
    match digit? base char with
    | some value => appendDigits? base (known * base + value) rest
    | none => none

/-- The number that a nonempty run of digits denotes. -/
def ofDigits? (base : Nat) : List Char → Option Nat
  | [] => none
  | char :: rest => appendDigits? base 0 (char :: rest)

/-- A number whose digits may follow a plus sign. -/
def ofPlusDigits? (base : Nat) : List Char → Option Nat
  | '+' :: digits => ofDigits? base digits
  | digits => ofDigits? base digits

/-- The decimal numeral of a natural number, without leading zeros. -/
def decimalDigits (value : Nat) : List Char :=
  Nat.toDigits 10 value

/-- The hexadecimal numeral of a natural number, in lower case and without leading zeros. -/
def hexDigits (value : Nat) : List Char :=
  Nat.toDigits 16 value

/-- The decimal numeral of an integer: a minus sign before the numeral of its magnitude when it is
negative. -/
def integerDigits (value : Int) : List Char :=
  if value < 0 then '-' :: decimalDigits value.natAbs else decimalDigits value.natAbs

/-- The integer that an optional sign and a nonempty run of decimal digits denote. -/
def ofSignedDigits? : List Char → Option Int
  | '-' :: digits => (ofDigits? 10 digits).map fun magnitude => -(magnitude : Int)
  | digits => (ofPlusDigits? 10 digits).map Int.ofNat

/-- Digits that come after others act on what those denote. -/
theorem appendDigits?_append (base known : Nat) (front back : List Char) :
    appendDigits? base known (front ++ back) =
      (appendDigits? base known front).bind fun value => appendDigits? base value back := by
  induction front generalizing known with
  | nil => rfl
  | cons char front step =>
    cases value : digit? base char with
    | none => simp [appendDigits?, value]
    | some digit => simp [appendDigits?, value, step]

/-- A digit's value lies below its base. -/
theorem digit?_lt {base value : Nat} {char : Char} (read : digit? base char = some value) :
    value < base := by
  have kept := (Option.filter_eq_some_iff.mp read).2
  exact of_decide_eq_true kept

end ThriftIdl.Number
