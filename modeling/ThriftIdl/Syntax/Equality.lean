import ThriftIdl.Document

/-!
# When two documents say the same

Declarations are the same when all their parts are, comments included, with numbers compared as
numbers. The order of the declarations of a document and of the functions of a service does not
matter; the order of fields, enumeration items and list items does.
-/

namespace ThriftIdl

/-- Whether two values that may be missing are both missing or the same. -/
def sameOptional {Value : Type} (same : Value → Value → Bool) :
    Option Value → Option Value → Bool
  | none, none => true
  | some left, some right => same left right
  | _, _ => false

/-- Whether two lists have the same items in the same places. -/
def sameList {Value : Type} (same : Value → Value → Bool) : List Value → List Value → Bool
  | [], [] => true
  | left :: lefts, right :: rights => same left right && sameList same lefts rights
  | _, _ => false

/-- Whether two fields are the same. -/
def Field.same (left right : Field) : Bool :=
  left.id == right.id && left.qualifier == right.qualifier && left.type == right.type &&
    left.name == right.name && sameOptional Literal.equals left.defaultValue right.defaultValue &&
    left.comments == right.comments

/-- Whether two enumeration items are the same. -/
def EnumItem.same (left right : EnumItem) : Bool :=
  left.name == right.name && left.value == right.value && left.comments == right.comments

/-- Whether two functions are the same. -/
def Function.same (left right : Function) : Bool :=
  left.oneway == right.oneway && left.returns == right.returns && left.name == right.name &&
    sameList Field.same left.arguments right.arguments &&
    sameList Field.same left.throws right.throws && left.comments == right.comments

/-- Whether two namespaces are the same. -/
def Namespace.same (left right : Namespace) : Bool :=
  left.scope == right.scope && left.path == right.path && left.comments == right.comments

/-- Whether two includes are the same. -/
def Include.same (left right : Include) : Bool :=
  left.path == right.path && left.moduleName == right.moduleName &&
    left.comments == right.comments

/-- Whether two type definitions are the same. -/
def Typedef.same (left right : Typedef) : Bool :=
  left.type == right.type && left.name == right.name && left.comments == right.comments

/-- Whether two constants are the same. -/
def Constant.same (left right : Constant) : Bool :=
  left.type == right.type && left.name == right.name && left.value.equals right.value &&
    left.comments == right.comments

/-- Whether two enumerations are the same. -/
def Enumeration.same (left right : Enumeration) : Bool :=
  left.name == right.name && sameList EnumItem.same left.items right.items &&
    left.comments == right.comments

/-- Whether two records are the same. -/
def Record.same (left right : Record) : Bool :=
  left.name == right.name && sameList Field.same left.fields right.fields &&
    left.comments == right.comments

/-- Whether two services are the same, whatever the order of their functions. -/
def Service.same (left right : Service) : Bool :=
  left.name == right.name && left.parent == right.parent &&
    left.functions.equals Function.same right.functions && left.comments == right.comments

/-- Whether two declarations are of the same kind and have the same parts. -/
def Declaration.same : Declaration → Declaration → Bool
  | scope left, scope right => left.same right
  | inclusion left, inclusion right => left.same right
  | typedef left, typedef right => left.same right
  | constant left, constant right => left.same right
  | enumeration left, enumeration right => left.same right
  | record leftKind left, record rightKind right => leftKind == rightKind && left.same right
  | service left, service right => left.same right
  | _, _ => false

/-- Whether two documents have the same declarations, whatever their order. -/
def Document.same (left right : Document) : Bool :=
  left.declarations.equals Declaration.same right.declarations

end ThriftIdl
