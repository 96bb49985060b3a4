import ThriftIdl.Log.Event
import ThriftIdl.Log.Pattern.Reader
import ThriftIdl.Number.Decimal
import ThriftIdl.Source.Scanner
import ThriftIdl.Text.Blank

/-!
# Directives

A directive says up to which level events are admitted. It is a level, or a topic, or a condition
in brackets, or a topic and a condition, and all but the first may end with an equals sign and a
level. The condition names a span of time, or in braces a field of the event, or both; a field may
be followed by an equals sign and a pattern for its value.
-/

namespace ThriftIdl.Log

/-- Which events of its topic a directive is about. -/
inductive Condition
  | always
  /-- The event has a field. -/
  | hasField (name : String)
  /-- The event happens in a span of time with a certain name or with a certain value of a field.
  Reading a source text happens in no span. -/
  | inSpan
deriving DecidableEq

/-- A part of a filter: up to which detail some events are admitted. -/
structure Directive where
  /-- The beginning of the topics that are meant; the empty text means all. -/
  topic : String
  condition : Condition
  /-- The greatest detail that is admitted; zero admits nothing. -/
  detail : Nat
deriving DecidableEq

/-- A text with its ASCII letters in lower case. -/
def lowerCase (text : String) : String :=
  String.ofList (text.toList.map Char.toLower)

/-- The levels by name; `off` admits nothing. -/
def levelNames : List (String × Nat) :=
  [("off", 0), ("error", 1), ("warn", 2), ("info", 3), ("debug", 4), ("trace", 5)]

/-- The detail of a level that is given by its name in any case, or by its number. -/
def detail? (text : String) : Option Nat :=
  match Number.ofPlusDigits? 10 text.toList with
  | some number => if number ≤ Level.trace.detail then some number else none
  | none => levelNames.lookup (lowerCase text)

/-- Whether a text may stand for the value of a field: a number or a pattern. -/
def isFieldValue (text : String) : Bool :=
  isPattern text || (Number.Binary64.ofNumeral? text.toList).isSome ||
    ["+inf", "+infinity", "+nan"].contains (lowerCase text)

/-- Characters with the number of bytes before each of them. -/
def placed (place : Nat) : List Char → List (Nat × Char)
  | [] => []
  | char :: rest => (place, char) :: placed (place + char.utf8Size) rest

/-- The part of some characters from the first of the given ones on. -/
def fromFirst (chosen : List Char) (text : List (Nat × Char)) : List (Nat × Char) :=
  text.dropWhile fun (_, char) => !chosen.contains char

namespace Condition

/-- The condition that a span and a field with or without a value make. An equals sign after the
value ends it. -/
def ofField? (span field : String) : Option Condition :=
  match field.splitOn "=" with
  | [] => none
  | [""] => none
  | [name] => some (if span = "" then hasField name else inSpan)
  | _ :: value :: _ => if isFieldValue value then some inSpan else none

/-- The condition after an opening bracket and the characters after its closing one. The text
between two places is given by `cut`. -/
def read? (cut : Nat → Nat → Option String) (start : Nat) (text : List (Nat × Char)) :
    Option (Condition × List (Nat × Char)) :=
  match fromFirst [']', '\x7b'] text with
  | (_, ']') :: rest => some (inSpan, rest)
  | (brace, _) :: rest => do
    let span ← cut start brace
    match fromFirst ['\x7d'] rest with
    | (close, _) :: (_, ']') :: rest =>
      let condition ← ofField? span (← cut (brace + 1) close)
      return (condition, rest)
    | _ => none
  | [] => none

/-- Whether an event meets a condition. The message of an event is a field too. -/
def holds (condition : Condition) (event : Event) : Bool :=
  match condition with
  | always => true
  | hasField name => name == "message" || event.fields.any (·.1 == name)
  | inSpan => false

end Condition

namespace Directive

/-- Whether a directive may begin with a character. -/
def isStart (char : Char) : Bool :=
  Text.isAlphanumeric char || ['-', ':', '_', '['].contains char

/-- The directive on a topic and a condition with the level that the rest of its text gives. A
missing or an empty level admits everything. -/
def ofLevel? (cut : Nat → Nat → Option String) (size : Nat) (topic : String)
    (condition : Condition) : List (Nat × Char) → Option Directive
  | [] => some ⟨topic, condition, Level.trace.detail⟩
  | (place, '=') :: _ => do
    let level ← cut (place + 1) size
    if level = "" then return ⟨topic, condition, Level.trace.detail⟩
    else return ⟨topic, condition, ← detail? level⟩
  | _ => none

/-- A directive from its text. White space around it counts for its letters but not for their
places: the marks are found in the trimmed text, and the parts between them are cut at the same
places from the whole text. So a directive after white space is not malformed as a topic, though
no event has such a topic, but it is with a level. -/
def ofText? (text : String) : Option Directive := do
  let cut := (Source.Scanner.ofString text).slice?
  let size := text.utf8ByteSize
  let chars := placed 0 (Text.trim text.toList)
  let (_, first) ← chars.head?
  guard (isStart first)
  match fromFirst ['=', '['] chars with
  | [] =>
    match detail? text with
    | some detail => return ⟨"", .always, detail⟩
    | none => return ⟨text, .always, Level.trace.detail⟩
  | (place, '[') :: rest =>
    let topic ← cut 0 place
    let (condition, rest) ← Condition.read? cut (place + 1) rest
    ofLevel? cut size topic condition rest
  | (place, char) :: rest =>
    let topic ← cut 0 place
    ofLevel? cut size topic .always ((place, char) :: rest)

/-- Whether a directive is about an event. -/
def covers (directive : Directive) (event : Event) : Bool :=
  directive.topic.toList.isPrefixOf event.topic.toList && directive.condition.holds event

/-- The name of the field that a directive asks for, or the empty text. -/
def fieldName (directive : Directive) : String :=
  match directive.condition with
  | .hasField name => name
  | _ => ""

/-- Whether a directive is no less specific than another one about the same event: a longer topic is
more specific, then a field whose name comes later. -/
def overrides (directive other : Directive) : Bool :=
  other.topic.length < directive.topic.length ||
    other.topic.length == directive.topic.length &&
      decide (¬ directive.fieldName < other.fieldName)

end Directive

end ThriftIdl.Log
