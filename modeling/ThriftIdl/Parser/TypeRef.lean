import ThriftIdl.Parser.Token
import ThriftIdl.Syntax.TypeRef

/-!
# Reading type expressions

A type is a map, a list or set, or a name; the keyword of a container that no opening bracket
follows is a name like any other. The rules for containers are given the rule for the types inside
them, and the whole is closed by a bound on the nesting, for which the length of the text is enough.
-/

namespace ThriftIdl.Parser

/-- A map type. -/
def mapType (inner : Rule TypeRef) : Rule TypeRef := do
  keyword "map"
  mark '<'
  let key ← inner
  separator
  let value ← inner
  mark '>'
  return .map key value

/-- The keyword of a list type or of a set type, as the type that it makes of an item type. -/
def sequenceKeyword : Rule (TypeRef → TypeRef) := do
  match ← probe (keyword "list") with
  | some _ => return .list
  | none =>
    keyword "set"
    return .set

/-- A list type or a set type. -/
def sequenceType (inner : Rule TypeRef) : Rule TypeRef := do
  let container ← sequenceKeyword
  mark '<'
  let item ← inner
  mark '>'
  return container item

/-- A type by its name. -/
def scalarType : Rule TypeRef :=
  TypeRef.scalar <$> name

/-- The forms of a type in the order in which they are tried, given the rule for the types inside
containers. -/
def typeForms (inner : Rule TypeRef) : List (Rule TypeRef) :=
  [mapType inner, sequenceType inner, scalarType]

/-- A type that is nested less deeply than a bound. -/
def typeWithin : Nat → Rule TypeRef
  | 0 => expected .type
  | depth + 1 => choice .type (typeForms (typeWithin depth))

/-- A type. -/
def typeRef : Rule TypeRef := do
  typeWithin ((← get).input.rest.length + 1)

end ThriftIdl.Parser
