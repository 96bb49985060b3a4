import ThriftIdl.Number.Layout

/-!
# JSON values and their text

A JSON value keeps the order of its members. It is written compactly, without blanks, or over
several lines with two blanks for each level of nesting; both forms share the text of scalars.
-/

namespace ThriftIdl

/-- A JSON value. Numbers are integers or double-precision numbers. -/
inductive Json
  | null
  | bool (value : Bool)
  | int (value : Int)
  | float (value : Number.Binary64)
  | str (value : String)
  | arr (items : List Json)
  | obj (members : List (String × Json))

namespace Json

/-- The escape of a control character by its code point in four hexadecimal digits. -/
def controlEscape (char : Char) : List Char :=
  let digits := Number.hexDigits char.toNat
  ['\\', 'u'] ++ List.replicate (4 - digits.length) '0' ++ digits

/-- One character inside a JSON string: quotes, backslashes and control characters are escaped. -/
def stringChar (char : Char) : List Char :=
  match char with
  | '"' => ['\\', '"']
  | '\\' => ['\\', '\\']
  | '\x08' => ['\\', 'b']
  | '\x09' => ['\\', 't']
  | '\x0a' => ['\\', 'n']
  | '\x0c' => ['\\', 'f']
  | '\x0d' => ['\\', 'r']
  | _ => if char.toNat < 0x20 then controlEscape char else [char]

/-- A JSON string. -/
def quoted (text : String) : List Char :=
  '"' :: text.toList.flatMap stringChar ++ ['"']

/-- A JSON number; infinities and what is not a number have no JSON form but `null`. -/
def number (value : Number.Binary64) : List Char :=
  if value.isNaN || value.isInfinite then "null".toList
  else Number.Layout.interchange.write value

mutual

/-- The text of a value without blanks. -/
def compact : Json → List Char
  | null => "null".toList
  | bool true => "true".toList
  | bool false => "false".toList
  | int value => Number.integerDigits value
  | float value => number value
  | str value => quoted value
  | arr items => '[' :: compactItems items ++ [']']
  | obj members => '\x7b' :: compactMembers members ++ ['\x7d']

/-- The items of an array, commas between them. -/
def compactItems : List Json → List Char
  | [] => []
  | [item] => compact item
  | item :: next :: rest => compact item ++ ',' :: compactItems (next :: rest)

/-- The members of an object, commas between them. -/
def compactMembers : List (String × Json) → List Char
  | [] => []
  | [(key, value)] => quoted key ++ ':' :: compact value
  | (key, value) :: next :: rest =>
    quoted key ++ ':' :: compact value ++ ',' :: compactMembers (next :: rest)

end

/-- The start of a line at a level of nesting. -/
def newLine (level : Nat) : List Char :=
  '\n' :: List.replicate (2 * level) ' '

mutual

/-- The text of a value over several lines, its first line continuing one at the given level. -/
def indented (level : Nat) : Json → List Char
  | null => "null".toList
  | bool true => "true".toList
  | bool false => "false".toList
  | int value => Number.integerDigits value
  | float value => number value
  | str value => quoted value
  | arr [] => ['[', ']']
  | arr (item :: rest) =>
    '[' :: indentedItems (level + 1) (item :: rest) ++ newLine level ++ [']']
  | obj [] => ['\x7b', '\x7d']
  | obj (member :: rest) =>
    '\x7b' :: indentedMembers (level + 1) (member :: rest) ++ newLine level ++ ['\x7d']

/-- The items of an array, each on a line of its own, commas at the ends of lines. -/
def indentedItems (level : Nat) : List Json → List Char
  | [] => []
  | [item] => newLine level ++ indented level item
  | item :: next :: rest =>
    newLine level ++ indented level item ++ ',' :: indentedItems level (next :: rest)

/-- The members of an object, each on a line of its own, commas at the ends of lines. -/
def indentedMembers (level : Nat) : List (String × Json) → List Char
  | [] => []
  | [(key, value)] => newLine level ++ quoted key ++ ':' :: ' ' :: indented level value
  | (key, value) :: next :: rest =>
    newLine level ++ quoted key ++ ':' :: ' ' :: indented level value ++
      ',' :: indentedMembers level (next :: rest)

end

/-- The text of a value without blanks. -/
def text (value : Json) : String :=
  String.ofList value.compact

/-- The text of a value over several lines. -/
def pretty (value : Json) : String :=
  String.ofList (value.indented 0)

end Json

end ThriftIdl
