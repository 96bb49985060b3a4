import ThriftIdl.Options
import ThriftIdl.Parser.Literal
import ThriftIdl.Parser.TypeRef
import ThriftIdl.Syntax.FieldIds
import ThriftIdl.Syntax.Numbering

/-!
# Reading the items of a declaration

Enumeration items, fields and functions. An item takes the pending comments before it when it begins
and the pending comments after it when its separator is read.
-/

namespace ThriftIdl.Parser

/-- The value of an enumeration item: an integer literal, if there is one at all. -/
def enumValue (item : String) : Option Literal → Rule (Option Int64)
  | none => return none
  | some written =>
    match written.integer? with
    | some value => return some value
    | none => rejected (.enumValue item written)

/-- An enumeration item. -/
def enumItem : Rule WrittenItem := do
  let head ← drainHead
  let name ← name
  let written ← assignment
  let value ← enumValue name written
  separator
  let tail ← drainTail
  return { name, value, comments := { head, tail } }

/-- The number of a field with the colon after it. -/
def fieldId : Rule Int64 := do
  let id ← integer
  mark ':'
  return id

/-- The qualifier of a field. -/
def qualifier : Rule Qualifier := do
  match ← probe (keyword "required") with
  | some _ => return .required
  | none =>
    keyword "optional"
    return .optional

/-- A field. -/
def field : Rule Field := do
  let head ← drainHead
  let id ← attempt fieldId
  let qualifier ← attempt qualifier
  let type ← typeRef
  let name ← name
  let defaultValue ← assignment
  separator
  let tail ← drainTail
  return { id, qualifier, type, name, defaultValue, comments := { head, tail } }

/-- Reject a list of fields with a number that comes twice, unless such fields are kept. -/
def checkIds (duplicates : DuplicateIds) (owner : FieldOwner) (fields : List Field) : Rule Unit :=
  match duplicates with
  | .keep => return ()
  | .reject =>
    match repeatedId? fields with
    | none => return ()
    | some (id, name) => rejected (.duplicateId id owner name)

/-- The arguments of a function, or the exceptions that it throws, in parentheses. -/
def fieldList (duplicates : DuplicateIds) : Rule (List Field) := do
  mark '('
  let fields ← many field
  close ')'
  checkIds duplicates .function fields
  return fields

/-- The exceptions that a function throws. -/
def throwsClause (duplicates : DuplicateIds) : Rule (List Field) := do
  keyword "throws"
  fieldList duplicates

/-- A function. -/
def function (duplicates : DuplicateIds) : Rule Function := do
  let head ← drainHead
  let oneway ← attempt (keyword "oneway")
  let returns ← typeRef
  let name ← name
  let arguments ← fieldList duplicates
  let throws ← attempt (throwsClause duplicates)
  separator
  let tail ← drainTail
  return { oneway := oneway.isSome, returns, name, arguments, throws := throws.getD [],
           comments := { head, tail } }

end ThriftIdl.Parser
