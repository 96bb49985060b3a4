import ThriftIdl.Parser.Item
import ThriftIdl.Syntax.ModuleName

/-!
# Reading declarations

A top-level declaration is one of nine forms, each begun by its keyword. A block has comments after
its opening brace and after its end, which both belong to the declaration.
-/

namespace ThriftIdl.Parser

/-- Whether a character may stand in the scope of a namespace. -/
def isScopeChar (char : Char) : Bool :=
  isIdentChar char || char == '*'

/-- The scope of a namespace. -/
def namespaceScope : Rule String := do
  let scope ← takeWhile isScopeChar
  if scope.isEmpty then
    expected .namespaceScope
  else
    skip
    return String.ofList scope

/-- A namespace. -/
def namespaceForm : Rule Declaration := do
  let head ← drainHead
  keyword "namespace"
  let scope ← namespaceScope
  let segments ← path
  separator
  let tail ← drainTail
  return .scope { scope, path := dotted segments, comments := { head, tail } }

/-- The inclusion of another file. Escapes have no meaning in its path. -/
def includeForm : Rule Declaration := do
  let head ← drainHead
  keyword "include"
  let path := String.ofList (← quoted false)
  skip
  separator
  let tail ← drainTail
  return .inclusion { path, moduleName := moduleName path, comments := { head, tail } }

/-- A type definition. -/
def typedefForm : Rule Declaration := do
  let head ← drainHead
  keyword "typedef"
  let type ← typeRef
  let name ← name
  separator
  let tail ← drainTail
  return .typedef { type, name, comments := { head, tail } }

/-- A constant. -/
def constantForm : Rule Declaration := do
  let head ← drainHead
  keyword "const"
  let type ← typeRef
  let name ← name
  mark '='
  let value ← literal
  separator
  let tail ← drainTail
  return .constant { type, name, value, comments := { head, tail } }

/-- The keyword, the name and the opening brace of a block, with the comments after the brace. -/
def blockHeader (word : String) : Rule (String × Option String) := do
  keyword word
  let name ← name
  mark '\x7b'
  let tail ← drainTail
  return (name, tail)

/-- The values of the items of an enumeration. -/
def enumValues (enumeration : String) (written : List WrittenItem) : Rule (List EnumItem) :=
  match numberItems (some 0) written with
  | .ok items => return items
  | .error item => rejected (.enumOverflow enumeration item)

/-- An enumeration. -/
def enumerationForm : Rule Declaration := do
  let head ← drainHead
  let (name, headerTail) ← blockHeader "enum"
  let written ← many enumItem
  close '\x7d'
  separator
  let items ← enumValues name written
  let tail ← drainTail
  return .enumeration
    { name, items, comments := { head, tail := Comment.append? headerTail tail } }

/-- A structure, a union or an exception. -/
def recordForm (duplicates : DuplicateIds) (kind : RecordKind) : Rule Declaration := do
  let head ← drainHead
  let (name, headerTail) ← blockHeader kind.keyword
  let fields ← many field
  close '\x7d'
  checkIds duplicates (.record name) fields
  separator
  let tail ← drainTail
  return .record kind
    { name, fields, comments := { head, tail := Comment.append? headerTail tail } }

/-- The service that a service adds to. -/
def parentClause : Rule (List String) := do
  keyword "extends"
  path

/-- A service. -/
def serviceForm (duplicates : DuplicateIds) : Rule Declaration := do
  let head ← drainHead
  keyword "service"
  let name ← name
  let parent ← attempt parentClause
  mark '\x7b'
  let headerTail ← drainTail
  let functions ← many (function duplicates)
  close '\x7d'
  separator
  let tail ← drainTail
  return .service
    { name, parent := parent.map dotted, functions := .ofList functions
      comments := { head, tail := Comment.append? headerTail tail } }

/-- The forms of a declaration in the order in which they are tried. -/
def declarationForms (duplicates : DuplicateIds) : List (Rule Declaration) :=
  [namespaceForm, includeForm, typedefForm, constantForm, enumerationForm,
    recordForm duplicates .struct, recordForm duplicates .union,
    recordForm duplicates .exception, serviceForm duplicates]

/-- A top-level declaration. -/
def declaration (duplicates : DuplicateIds) : Rule Declaration :=
  choice .declaration (declarationForms duplicates)

end ThriftIdl.Parser
