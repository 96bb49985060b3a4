import ThriftIdl.Number.Decimal
import ThriftIdl.Parser.Token
import ThriftIdl.Text.Escape

/-!
# Reading constant values

A literal is one of eight forms, tried in a fixed order. The rules for lists and maps are given the
rule for the literals inside them, and the whole is closed by a bound on the nesting: each level of
nesting takes a character, so the length of the text is always enough.
-/

namespace ThriftIdl.Parser

/-! ## Numbers -/

/-- The sixty-four bit integer of a value, if it is in range. -/
def int64? (value : Int) : Option Int64 :=
  if -0x8000000000000000 ≤ value ∧ value < 0x8000000000000000 then some (Int64.ofInt value)
  else none

/-- Whether a character is a hexadecimal digit. -/
def isHexDigit (char : Char) : Bool :=
  (Number.digit? 16 char).isSome

/-- Whether a character may stand in a decimal numeral after its sign. -/
def isDecimalChar (char : Char) : Bool :=
  char.isDigit || char == '.'

/-- Whether a character is a sign. -/
def isSign (char : Char) : Bool :=
  char == '-' || char == '+'

/-- A character that passes a test, if it comes next. -/
def optionalChar (test : Char → Bool) : Rule (List Char) := do
  match ← peek with
  | some char =>
    if test char then
      advance 1
      return [char]
    else return []
  | none => return []

/-- The end of a number: it must not run on into an identifier. -/
def endOfNumber : Rule Unit := do
  if (← peek).any isIdentChar then
    expected .endOfNumber
  else
    skip

/-- A hexadecimal integer. -/
def hexNumber : Rule Int64 := do
  let sign ← optionalChar (· == '-')
  if (← startsWith ['0', 'x']) || (← startsWith ['0', 'X']) then
    advance 2
    let digits ← takeWhile isHexDigit
    match Number.ofDigits? 16 digits with
    | none => expected .hexDigit
    | some magnitude =>
      if magnitude < 0x8000000000000000 then
        endOfNumber
        return Int64.ofInt (if sign.isEmpty then magnitude else -magnitude)
      else
        rejected (.hexOutOfRange (String.ofList digits))
  else
    expected .hexLiteral

/-- A number with an exponent. -/
def exponentNumber : Rule Number.Binary64 := do
  let sign ← optionalChar isSign
  let mantissa ← takeWhile isDecimalChar
  if !mantissa.any Char.isDigit then
    expected .number
  else
    let letter ← optionalChar fun char => char == 'e' || char == 'E'
    if letter.isEmpty then
      expected .exponent
    else
      let exponentSign ← optionalChar isSign
      let digits ← takeWhile Char.isDigit
      if digits.isEmpty then
        expected .exponentDigits
      else
        match Number.Binary64.ofNumeral? (sign ++ mantissa ++ letter ++ exponentSign ++ digits) with
        | none => expected .number
        | some number =>
          endOfNumber
          return number

/-- The literal of a decimal numeral without an exponent: a fraction if it has a point, and else an
integer in range. -/
def decimalLiteral? (numeral : List Char) : Option Literal :=
  if numeral.contains '.' then (Number.Binary64.ofNumeral? numeral).map .double
  else ((Number.ofSignedDigits? numeral).bind int64?).map .int

/-- A decimal number without an exponent. -/
def decimalNumber : Rule Literal := do
  let sign ← optionalChar isSign
  let body ← takeWhile isDecimalChar
  if !body.any Char.isDigit then
    expected .number
  else
    match decimalLiteral? (sign ++ body) with
    | none => expected .number
    | some literal =>
      endOfNumber
      return literal

/-- A decimal integer. -/
def decimalInteger : Rule Int64 := do
  match ← decimalNumber with
  | .int value => return value
  | _ => expected .integer

/-- An integer in either base. -/
def integer : Rule Int64 :=
  choice .integer [hexNumber, decimalInteger]

/-! ## Strings -/

/-- Whether a character is a quote. -/
def isQuote (char : Char) : Bool :=
  char == '"' || char == '\''

/-- The raw text between two quotes of the same kind. Reading stands right after the closing one. -/
def quoted (escapes : Bool) : Rule (List Char) := do
  match (← get).input.rest with
  | quote :: rest =>
    if isQuote quote then
      match Text.throughQuote? quote escapes rest with
      | none => expected .closingQuote
      | some raw =>
        advance (raw.length + 2)
        return raw
    else
      expected .string
  | [] => expected .string

/-! ## The eight forms -/

/-- A hexadecimal integer as a literal. -/
def hexLiteral : Rule Literal :=
  Literal.hex <$> hexNumber

/-- A number with an exponent as a literal. -/
def exponentLiteral : Rule Literal :=
  Literal.exponent <$> exponentNumber

/-- A truth value. -/
def boolLiteral : Rule Literal := do
  match ← probe (keyword "true") with
  | some _ => return .bool true
  | none =>
    keyword "false"
    return .bool false

/-- A string with its escapes resolved. -/
def stringLiteral : Rule Literal := do
  let raw ← quoted true
  match Text.unescape raw with
  | some chars =>
    skip
    return .str (String.ofList chars)
  | none => rejected (.malformedEscape (String.ofList raw))

/-- An item of a list, with the separator after it. -/
def listItem (inner : Rule Literal) : Rule Literal := do
  let item ← inner
  separator
  return item

/-- A list of literals. -/
def listLiteral (inner : Rule Literal) : Rule Literal := do
  mark '['
  let items ← many (listItem inner)
  close ']'
  return .list items

/-- An entry of a map, with the separator after it. -/
def mapEntry (inner : Rule Literal) : Rule (Literal × Literal) := do
  let key ← inner
  mark ':'
  let value ← inner
  separator
  return (key, value)

/-- A map of literals. -/
def mapLiteral (inner : Rule Literal) : Rule Literal := do
  mark '\x7b'
  let entries ← many (mapEntry inner)
  close '\x7d'
  return .map entries

/-- A reference to a constant by its path. -/
def refLiteral : Rule Literal :=
  Literal.ref <$> path

/-- The forms of a literal in the order in which they are tried, given the rule for the literals
inside lists and maps. -/
def literalForms (inner : Rule Literal) : List (Rule Literal) :=
  [hexLiteral, exponentLiteral, decimalNumber, boolLiteral, stringLiteral, listLiteral inner,
    mapLiteral inner, refLiteral]

/-- A literal that is nested less deeply than a bound. -/
def literalWithin : Nat → Rule Literal
  | 0 => expected .value
  | depth + 1 => choice .value (literalForms (literalWithin depth))

/-- A literal. -/
def literal : Rule Literal := do
  literalWithin ((← get).input.rest.length + 1)

/-- The value after an equals sign, if there is one. -/
def assignment : Rule (Option Literal) :=
  attempt do
    mark '='
    literal

end ThriftIdl.Parser
