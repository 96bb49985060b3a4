import ThriftIdl.Error.Miss
import ThriftIdl.Json.Reader
import ThriftIdl.Json.Value

/-!
# Syntax errors

A text that cannot be read gives one syntax error: a message, the beginning of the declaration that
cannot be read, and the line on which that declaration begins. Errors are written as JSON in two
orders of members and read back from either.
-/

namespace ThriftIdl

/-- Why and where a source text cannot be read. -/
structure SyntaxError where
  message : String
  /-- The beginning of the declaration that cannot be read. -/
  context : String
  /-- The line on which that declaration begins. -/
  line : Nat
deriving DecidableEq

namespace SyntaxError

/-- The numeral of the line of an error. -/
def lineText (error : SyntaxError) : String :=
  String.ofList (Number.decimalDigits error.line)

/-- An error in one line. -/
def text (error : SyntaxError) : String :=
  error.message ++ " (line " ++ error.lineText ++ ")"

/-- An error as it is reported: members in alphabetical order. -/
def json (error : SyntaxError) : Json :=
  .obj [("context", .str error.context), ("line", .int error.line),
    ("message", .str error.message)]

/-- An error as it is stored: the message first. -/
def stored (error : SyntaxError) : Json :=
  .obj [("message", .str error.message), ("context", .str error.context),
    ("line", .int error.line)]

/-- The greatest line number that is read back. -/
def maxLine : Nat := 0xFFFFFFFF

open Json (Outline)

/-- An error from its three parts in the order in which they are stored. -/
def ofParts? (message context line : Outline) : Option SyntaxError := do
  let message ← message.string?
  let context ← context.string?
  let line ← line.natural?
  if line ≤ maxLine then some { message, context, line } else none

/-- The one value that an object has under a key; a key that comes twice has none. -/
def member? (key : String) (members : List (String × Outline)) : Option Outline :=
  match members.filter fun member => member.1 = key with
  | [(_, value)] => some value
  | _ => none

/-- An error from an outline: an object with its three members in any order and perhaps others, or
an array of its three parts in the order in which they are stored. -/
def ofOutline? : Outline → Option SyntaxError
  | .array [message, context, line] => ofParts? message context line
  | .object members => do
    let named ← members.mapM fun (units, value) =>
      (Json.resolve units).map fun key => (String.ofList key, value)
    ofParts? (← member? "message" named) (← member? "context" named) (← member? "line" named)
  | _ => none

/-- An error from the whole of a JSON text. -/
def ofJsonText? (text : String) : Option SyntaxError :=
  (Json.outline? text).bind ofOutline?

end SyntaxError

end ThriftIdl
