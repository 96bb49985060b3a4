import ThriftIdl.Syntax.Literal

/-!
# Misses

A rule that does not match reports a miss: where it stood, which character it met there, and why it
does not match. A text that was read but is not acceptable is a graver reason than a text that is
not there, and of two equally grave misses the one further on is the better diagnosis.
-/

namespace ThriftIdl

/-- What a rule needs next. -/
inductive Expectation
  | keyword (word : String)
  | mark (char : Char)
  | identifier
  | namespaceScope
  | string
  | closingQuote
  | hexLiteral
  | hexDigit
  | number
  | exponent
  | exponentDigits
  | endOfNumber
  | integer
  | value
  | type
  | declaration
deriving DecidableEq

/-- An expectation in words. -/
def Expectation.text : Expectation → String
  | keyword word => "`" ++ word ++ "`"
  | mark char => "`" ++ String.singleton char ++ "`"
  | identifier => "identifier"
  | namespaceScope => "namespace scope"
  | string => "string"
  | closingQuote => "closing quote"
  | hexLiteral => "hexadecimal literal"
  | hexDigit => "hexadecimal digit"
  | number => "number"
  | exponent => "exponent"
  | exponentDigits => "exponent digits"
  | endOfNumber => "end of number"
  | integer => "integer"
  | value => "value"
  | type => "type"
  | declaration => "declaration"

/-- What a list of fields belongs to. -/
inductive FieldOwner
  /-- A record by its name. -/
  | record (name : String)
  /-- The arguments of a function, or the exceptions that it throws. -/
  | function
deriving DecidableEq

/-- The owner of a list of fields in words. -/
def FieldOwner.text : FieldOwner → String
  | record name => name
  | function => "argument list"

/-- Why something that was read is not acceptable. -/
inductive Rejection
  /-- A hexadecimal magnitude of `2 ^ 63` or more. -/
  | hexOutOfRange (digits : String)
  /-- A string with a malformed escape by code point. -/
  | malformedEscape (raw : String)
  /-- An enumeration item with a value that is no integer. -/
  | enumValue (item : String) (value : Literal)
  /-- An enumeration item without a value after one with the greatest value. -/
  | enumOverflow (enumeration item : String)
  /-- A field with the same number as an earlier one of its list. -/
  | duplicateId (id : Int64) (owner : FieldOwner) (field : String)

/-- A rejection in words. -/
def Rejection.text : Rejection → String
  | hexOutOfRange digits => "hexadecimal literal 0x" ++ digits ++ " is out of range"
  | malformedEscape raw => "invalid escape sequence in \"" ++ raw ++ "\""
  | enumValue item value =>
    "enum value of " ++ item ++ " must be an integer, got " ++ value.display
  | enumOverflow enumeration item => "enum " ++ enumeration ++ " overflows at " ++ item
  | duplicateId id owner field =>
    "duplicate field id " ++ String.ofList (Number.integerDigits id.toInt) ++ " in " ++
      owner.text ++ " (field `" ++ field ++ "`)"

/-- Why a rule does not match. -/
inductive Reason
  /-- The text does not go on with what the rule needs. -/
  | expected (what : Expectation)
  /-- The text is as the rule needs it but not acceptable. -/
  | rejected (why : Rejection)

/-- Whether a reason is a rejection. -/
def Reason.isRejection : Reason → Bool
  | expected _ => false
  | rejected _ => true

/-- A failure of a rule. -/
structure Miss where
  /-- The byte offset at which the rule failed. -/
  offset : Nat
  /-- The character there, unless it is the end of the text. -/
  found : Option Char
  reason : Reason

namespace Miss

/-- Whether a miss is at least as good a diagnosis as another one. -/
def outranks (miss other : Miss) : Bool :=
  match miss.reason, other.reason with
  | .rejected _, .expected _ => true
  | .expected _, .rejected _ => false
  | _, _ => other.offset ≤ miss.offset

/-- The better of a miss and an earlier one; of two equally good ones the later. -/
def better (miss : Miss) : Option Miss → Miss
  | some earlier => if miss.outranks earlier then miss else earlier
  | none => miss

/-- The best of several misses, given from the latest to the earliest. -/
def best? (misses : List Miss) : Option Miss :=
  misses.foldr (fun miss earlier => some (miss.better earlier)) none

/-- The miss that a failure is reported by: the best one recorded, or the one that the failure ended
with if nothing recorded is as good. -/
def reported (misses : List Miss) (last : Miss) : Miss :=
  match best? misses with
  | some best => if best.outranks last then best else last
  | none => last

/-- What stands where a rule failed, in words. -/
def foundText (miss : Miss) : String :=
  match miss.found with
  | none => "end of input"
  | some '\n' => "line break"
  | some '\r' => "line break"
  | some char => "`" ++ String.singleton char ++ "`"

/-- A miss in words. -/
def message (miss : Miss) : String :=
  match miss.reason with
  | .expected what => "unexpected " ++ miss.foundText ++ ", expected " ++ what.text
  | .rejected why => why.text

/-- Of any two misses one is at least as good as the other. -/
theorem outranks_total (left right : Miss) :
    left.outranks right = true ∨ right.outranks left = true := by
  unfold outranks
  cases left.reason <;> cases right.reason <;> simp <;> omega

/-- A miss at least as good as a second is at least as good as all that the second outranks. -/
theorem outranks_trans {first second third : Miss} (upper : first.outranks second = true)
    (lower : second.outranks third = true) : first.outranks third = true := by
  unfold outranks at upper lower ⊢
  cases firstReason : first.reason <;> cases secondReason : second.reason <;>
    cases thirdReason : third.reason <;>
    simp only [firstReason, secondReason, thirdReason, decide_eq_true_eq, reduceCtorEq]
      at upper lower ⊢ <;>
    omega

end Miss

end ThriftIdl
