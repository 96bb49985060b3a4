import ThriftIdl.Reading
import ThriftIdl.Text.Quoted

/-!
# What a reading reports

Reading a source text is reported as a list of events: the size of the text, each declaration with
its line, and at last the syntax error if there is one. An event has a level of detail and a topic,
by which it can be selected, and one line of text.
-/

namespace ThriftIdl.Log

/-- The level of detail of an event. -/
inductive Level
  | error
  | warn
  | info
  | debug
  | trace
deriving DecidableEq

/-- A level as a number that grows with the detail. -/
def Level.detail : Level → Nat
  | error => 1
  | warn => 2
  | info => 3
  | debug => 4
  | trace => 5

/-- The name of a level. -/
def Level.name : Level → String
  | error => "ERROR"
  | warn => "WARN"
  | info => "INFO"
  | debug => "DEBUG"
  | trace => "TRACE"

/-- The value of a field of an event. -/
inductive FieldValue
  | number (value : Nat)
  /-- A text that is quoted in the line of the event. -/
  | quoted (value : String)
  /-- A text that is written as it is. -/
  | plain (value : String)
  /-- A further message, written as it is and without the name of its field. -/
  | remark (value : String)
deriving DecidableEq

/-- The value of a field as a text. -/
def FieldValue.text : FieldValue → String
  | number value => String.ofList (Number.decimalDigits value)
  | quoted value => value
  | plain value => value
  | remark value => value

/-- An event. -/
structure Event where
  level : Level
  /-- The part of the program that reports the event. -/
  topic : String
  message : String
  /-- Names and values of the details. -/
  fields : List (String × FieldValue)
deriving DecidableEq

/-- A character of a remark: a control character that a terminal could take for a command is
written by its code point. -/
def remarkChar (char : Char) : List Char :=
  match char with
  | '\x07' => "\\x07".toList
  | '\x08' => "\\x08".toList
  | '\x0c' => "\\x0c".toList
  | '\x1b' => "\\x1b".toList
  | '\x7f' => "\\x7f".toList
  | _ =>
    if 0x80 ≤ char.toNat ∧ char.toNat ≤ 0x9f then Text.pointEscape char else [char]

/-- A field in the line of its event. -/
def fieldText (key : String) : FieldValue → String
  | .quoted value => key ++ "=" ++ Text.displayQuoted value
  | .remark value => String.ofList (value.toList.flatMap remarkChar)
  | value => key ++ "=" ++ value.text

/-- The line of an event. -/
def Event.line (event : Event) : String :=
  " ".intercalate <|
    event.level.name :: event.message :: event.fields.map fun (key, value) => fieldText key value

/-- The topic of the events of a reading. -/
def readingTopic : String := "thrift_ast_core::parser"

/-- The event that begins a reading: the number of bytes of the text. -/
def Event.started (source : String) : Event where
  level := .trace
  topic := readingTopic
  message := "parsing thrift source"
  fields := [("bytes", .number source.utf8ByteSize)]

/-- The event of a declaration that was read from a line on. -/
def Event.declared (line : Nat) (declaration : Declaration) : Event where
  level := .debug
  topic := readingTopic
  message := "parsed declaration"
  fields := [("kind", .quoted declaration.kind.keyword), ("name", .quoted declaration.name),
    ("line", .number line)]

/-- The event of a syntax error. -/
def Event.failed (error : SyntaxError) : Event where
  level := .debug
  topic := readingTopic
  message := "syntax error"
  fields := [("line", .number error.line), ("message", .remark error.message)]

/-- The events of reading a source text. -/
def eventsOf (source : String) (reading : Reading) : List Event :=
  Event.started source ::
    reading.declared.map (fun (line, declaration) => Event.declared line declaration) ++
    reading.failure.toList.map Event.failed

end ThriftIdl.Log
