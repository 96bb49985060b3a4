import ThriftIdl.Number.Layout
import ThriftIdl.Text.Quoted

/-!
# Constant values

A literal keeps the form in which a value was written: a hexadecimal integer is not a decimal one,
and an exponent is not a plain fraction.
-/

namespace ThriftIdl

/-- A constant value as it is written. -/
inductive Literal
  /-- A decimal integer. -/
  | int (value : Int64)
  /-- A hexadecimal integer. -/
  | hex (value : Int64)
  /-- A decimal fraction. -/
  | double (value : Number.Binary64)
  /-- A number with an exponent. -/
  | exponent (value : Number.Binary64)
  | bool (value : Bool)
  | str (value : String)
  | list (items : List Literal)
  /-- Pairs of key and value in the order in which they are written. -/
  | map (entries : List (Literal × Literal))
  /-- A constant of another declaration by its dotted path. -/
  | ref (segments : List String)

namespace Literal

/-- The value of an integer. -/
def integer? : Literal → Option Int64
  | int value => some value
  | hex value => some value
  | _ => none

/-- The value of a number, integers rounded to the nearest double-precision number. -/
def number? : Literal → Option Number.Binary64
  | int value => some (.ofInt value.toInt)
  | hex value => some (.ofInt value.toInt)
  | double value => some value
  | exponent value => some value
  | _ => none

/-- A displayed list: the items between brackets. -/
def bracketed (items : List String) : String :=
  "[" ++ ", ".intercalate items ++ "]"

/-- A form with one value in parentheses. -/
def tagged (tag value : String) : String :=
  tag ++ "(" ++ value ++ ")"

mutual

/-- A literal as it is displayed: its form with the value in parentheses. -/
def display : Literal → String
  | int value => tagged "Int" (String.ofList (Number.integerDigits value.toInt))
  | hex value => tagged "Hex" (String.ofList (Number.integerDigits value.toInt))
  | double value => tagged "Double" (String.ofList (Number.Layout.displayed value))
  | exponent value => tagged "Exponent" (String.ofList (Number.Layout.displayed value))
  | bool true => tagged "Bool" "true"
  | bool false => tagged "Bool" "false"
  | str value => tagged "Str" (Text.displayQuoted value)
  | list items => tagged "List" (bracketed (displayItems items))
  | map entries => tagged "Map" (bracketed (displayEntries entries))
  | ref segments => tagged "Ref" (bracketed (segments.map Text.displayQuoted))

/-- The items of a list as they are displayed. -/
def displayItems : List Literal → List String
  | [] => []
  | item :: rest => display item :: displayItems rest

/-- The entries of a map as they are displayed: each pair in parentheses. -/
def displayEntries : List (Literal × Literal) → List String
  | [] => []
  | (key, value) :: rest =>
    ("(" ++ display key ++ ", " ++ display value ++ ")") :: displayEntries rest

end

mutual

/-- Whether two literals are equal. Forms are told apart and doubles are compared as numbers, so
that the two zeros are equal and what is not a number equals nothing. -/
def equals : Literal → Literal → Bool
  | int left, int right => left == right
  | hex left, hex right => left == right
  | double left, double right => left.equals right
  | exponent left, exponent right => left.equals right
  | bool left, bool right => left == right
  | str left, str right => left == right
  | list left, list right => equalsItems left right
  | map left, map right => equalsEntries left right
  | ref left, ref right => left == right
  | _, _ => false

/-- Whether two lists have equal literals in the same places. -/
def equalsItems : List Literal → List Literal → Bool
  | [], [] => true
  | left :: lefts, right :: rights => equals left right && equalsItems lefts rights
  | _, _ => false

/-- Whether two maps have equal keys and values in the same places. -/
def equalsEntries : List (Literal × Literal) → List (Literal × Literal) → Bool
  | [], [] => true
  | (leftKey, left) :: lefts, (rightKey, right) :: rights =>
    equals leftKey rightKey && equals left right && equalsEntries lefts rights
  | _, _ => false

end

end Literal

end ThriftIdl
