import ThriftIdl.Number.Digits

/-!
# Strict reading of JSON text

Reading goes in two steps. The text is first read as a `Json.Outline`, which keeps numerals and
string escapes as they are written; what a caller needs of it is then resolved. A part that nobody
asks for only has to be well-formed text: its escapes may name half of a surrogate pair.
-/

namespace ThriftIdl.Json

/-- One unit of a string as it is written: a character, or the sixteen bits of a `\u` escape. -/
inductive StringUnit
  | char (value : Char)
  | code (value : Nat)
deriving DecidableEq

/-- A JSON text whose numerals and string escapes are not resolved. -/
inductive Outline
  | null
  | bool (value : Bool)
  | number (numeral : List Char)
  | string (units : List StringUnit)
  | array (items : List Outline)
  | object (members : List (List StringUnit × Outline))

/-- The characters that may stand between the tokens of a JSON text. -/
def isBlank (char : Char) : Bool :=
  char == ' ' || char == '\n' || char == '\t' || char == '\r'

/-- A text from its first token on. -/
def skipBlanks (text : List Char) : List Char :=
  text.dropWhile isBlank

/-- Whether sixteen bits are the first half of a surrogate pair. -/
def isLeading (code : Nat) : Bool :=
  0xd800 ≤ code && code < 0xdc00

/-- Whether sixteen bits are the second half of a surrogate pair. -/
def isTrailing (code : Nat) : Bool :=
  0xdc00 ≤ code && code < 0xe000

/-- The characters of a string; there are none when half of a surrogate pair stands alone. -/
def resolve : List StringUnit → Option (List Char)
  | [] => some []
  | .char value :: rest => (resolve rest).map (value :: ·)
  | .code first :: .code second :: rest =>
    if isLeading first then
      if isTrailing second then
        let point := 0x10000 + (first - 0xd800) * 0x400 + (second - 0xdc00)
        (resolve rest).map (Char.ofNat point :: ·)
      else none
    else if isTrailing first then none
    else (resolve (.code second :: rest)).map (Char.ofNat first :: ·)
  | .code value :: rest =>
    if isLeading value || isTrailing value then none
    else (resolve rest).map (Char.ofNat value :: ·)

/-- The character of an escape that is a single letter. -/
def letterEscape? : Char → Option Char
  | '"' => some '"'
  | '\\' => some '\\'
  | '/' => some '/'
  | 'b' => some '\x08'
  | 'f' => some '\x0c'
  | 'n' => some '\n'
  | 'r' => some '\r'
  | 't' => some '\t'
  | _ => none

/-- The units of a string after its opening quote, and the text after its closing quote. Control
characters have to be escaped. -/
def readUnits : List Char → Option (List StringUnit × List Char)
  | [] => none
  | '"' :: rest => some ([], rest)
  | '\\' :: 'u' :: a :: b :: c :: d :: rest =>
    match Number.ofDigits? 16 [a, b, c, d] with
    | some value => (readUnits rest).map fun (units, after) => (.code value :: units, after)
    | none => none
  | '\\' :: letter :: rest =>
    match letterEscape? letter with
    | some value => (readUnits rest).map fun (units, after) => (.char value :: units, after)
    | none => none
  | char :: rest =>
    if char = '\\' ∨ char.toNat < 0x20 then none
    else (readUnits rest).map fun (units, after) => (.char char :: units, after)

/-- A nonempty run of figures at the start of a text, and the text after it. -/
def readFigures (text : List Char) : Option (List Char × List Char) :=
  let figures := text.takeWhile Char.isDigit
  if figures.isEmpty then none else some (figures, text.dropWhile Char.isDigit)

/-- The whole part of a numeral: zero, or figures that do not begin with zero. -/
def readWhole : List Char → Option (List Char × List Char)
  | '0' :: rest => some (['0'], rest)
  | text => readFigures text

/-- The fraction of a numeral, if a point begins it. -/
def readFraction : List Char → Option (List Char × List Char)
  | '.' :: rest => (readFigures rest).map fun (figures, after) => ('.' :: figures, after)
  | text => some ([], text)

/-- The sign of an exponent, if there is one. -/
def readExponentSign : List Char → List Char × List Char
  | '+' :: rest => (['+'], rest)
  | '-' :: rest => (['-'], rest)
  | text => ([], text)

/-- The exponent of a numeral, if the letter `e` begins it. -/
def readExponent : List Char → Option (List Char × List Char)
  | [] => some ([], [])
  | letter :: rest =>
    if letter = 'e' ∨ letter = 'E' then
      let (sign, digits) := readExponentSign rest
      (readFigures digits).map fun (figures, after) => (letter :: sign ++ figures, after)
    else some ([], letter :: rest)

/-- A numeral at the start of a text, and the text after it. -/
def readNumeral (text : List Char) : Option (List Char × List Char) := do
  let (sign, afterSign) := match text with
    | '-' :: rest => (['-'], rest)
    | rest => ([], rest)
  let (whole, afterWhole) ← readWhole afterSign
  let (fraction, afterFraction) ← readFraction afterWhole
  let (exponent, rest) ← readExponent afterFraction
  return (sign ++ whole ++ fraction ++ exponent, rest)

mutual

/-- A value at the start of a text, and the text after it, nested no deeper than a limit. -/
def readValue : Nat → List Char → Option (Outline × List Char)
  | 0, _ => none
  | limit + 1, text =>
    match skipBlanks text with
    | 'n' :: 'u' :: 'l' :: 'l' :: rest => some (.null, rest)
    | 't' :: 'r' :: 'u' :: 'e' :: rest => some (.bool true, rest)
    | 'f' :: 'a' :: 'l' :: 's' :: 'e' :: rest => some (.bool false, rest)
    | '"' :: rest => (readUnits rest).map fun (units, after) => (.string units, after)
    | '[' :: rest =>
      match skipBlanks rest with
      | ']' :: after => some (.array [], after)
      | inside => (readItems limit inside).map fun (items, after) => (.array items, after)
    | '\x7b' :: rest =>
      match skipBlanks rest with
      | '\x7d' :: after => some (.object [], after)
      | inside => (readMembers limit inside).map fun (members, after) => (.object members, after)
    | token => (readNumeral token).map fun (numeral, after) => (.number numeral, after)

/-- One or more items up to the closing bracket of their array. -/
def readItems : Nat → List Char → Option (List Outline × List Char)
  | 0, _ => none
  | limit + 1, text =>
    match readValue limit text with
    | none => none
    | some (item, afterItem) =>
      match skipBlanks afterItem with
      | ']' :: rest => some ([item], rest)
      | ',' :: rest => (readItems limit rest).map fun (items, after) => (item :: items, after)
      | _ => none

/-- One or more members up to the closing brace of their object. -/
def readMembers : Nat → List Char → Option (List (List StringUnit × Outline) × List Char)
  | 0, _ => none
  | limit + 1, text =>
    match skipBlanks text with
    | '"' :: quotedKey =>
      match readUnits quotedKey with
      | none => none
      | some (key, afterKey) =>
        match skipBlanks afterKey with
        | ':' :: afterColon =>
          match readValue limit afterColon with
          | none => none
          | some (value, afterValue) =>
            match skipBlanks afterValue with
            | '\x7d' :: rest => some ([(key, value)], rest)
            | ',' :: rest =>
              (readMembers limit rest).map fun (members, after) => ((key, value) :: members, after)
            | _ => none
        | _ => none
    | _ => none

end

/-- The outline of a whole text. A value and the list that it stands in are two levels for at least
one character, so twice the length bounds the nesting. -/
def outline? (text : String) : Option Outline :=
  let chars := text.toList
  match readValue (2 * chars.length + 2) chars with
  | some (outline, rest) => if (skipBlanks rest).isEmpty then some outline else none
  | none => none

namespace Outline

/-- The text of a string. -/
def string? : Outline → Option String
  | string units => (resolve units).map String.ofList
  | _ => none

/-- The number that a numeral without sign, fraction and exponent denotes. -/
def natural? : Outline → Option Nat
  | number numeral => Number.ofDigits? 10 numeral
  | _ => none

end Outline

end ThriftIdl.Json
