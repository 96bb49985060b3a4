import ThriftIdl.Keyed
import ThriftIdl.Syntax.Literal
import ThriftIdl.Syntax.TypeRef

/-!
# Declarations

The top-level declarations of an interface file with the items inside them. Each declaration and
each item carries the comments that belong to it.
-/

namespace ThriftIdl

/-- The comments that belong to a declaration or an item. -/
structure Comments where
  /-- The comments on the lines before it. -/
  head : Option String := none
  /-- The comments on its own lines. -/
  tail : Option String := none
deriving DecidableEq

/-- Whether a field has to be present. -/
inductive Qualifier
  | required
  | optional
deriving DecidableEq

/-- The keyword of a qualifier. -/
def Qualifier.keyword : Qualifier → String
  | required => "required"
  | optional => "optional"

/-- A field of a record, an argument of a function, or an exception that it throws. -/
structure Field where
  id : Option Int64
  qualifier : Option Qualifier
  type : TypeRef
  name : String
  /-- The value that stands for the field when it is absent. -/
  defaultValue : Option Literal
  comments : Comments

/-- A named value of an enumeration. -/
structure EnumItem where
  name : String
  value : Int64
  comments : Comments

/-- A function of a service. -/
structure Function where
  /-- Whether the caller waits for no answer. -/
  oneway : Bool
  /-- The type of the answer. -/
  returns : TypeRef
  name : String
  arguments : List Field
  /-- The exceptions that may be thrown; empty as well when there is no such clause. -/
  throws : List Field
  comments : Comments

/-- The package of the generated code for one target language, or for all of them. -/
structure Namespace where
  /-- The target language, or an asterisk. -/
  scope : String
  /-- The dotted path of the package. -/
  path : String
  comments : Comments

/-- Another file whose declarations are used. -/
structure Include where
  /-- The path as it is written. -/
  path : String
  /-- The name under which declarations of the other file are referred to. -/
  moduleName : String
  comments : Comments

/-- Another name for a type. -/
structure Typedef where
  type : TypeRef
  name : String
  comments : Comments

/-- A named constant. -/
structure Constant where
  type : TypeRef
  name : String
  value : Literal
  comments : Comments

/-- An enumeration. -/
structure Enumeration where
  name : String
  items : List EnumItem
  comments : Comments

/-- The body that structures, unions and exceptions have in common. -/
structure Record where
  name : String
  fields : List Field
  comments : Comments

/-- A service. -/
structure Service where
  name : String
  /-- The service that this one adds to. -/
  parent : Option String
  functions : Keyed Function.name
  comments : Comments

/-- The three kinds of records. -/
inductive RecordKind
  | struct
  | union
  | exception
deriving DecidableEq

/-- The keyword of a kind of record. -/
def RecordKind.keyword : RecordKind → String
  | struct => "struct"
  | union => "union"
  | exception => "exception"

/-- The kinds of declarations. -/
inductive Kind
  /-- A namespace. -/
  | scope
  /-- The inclusion of another file. -/
  | inclusion
  | typedef
  | constant
  | enumeration
  | record (kind : RecordKind)
  | service
deriving DecidableEq

namespace Kind

/-- All kinds in the order in which a document lists them. -/
def all : List Kind :=
  [scope, inclusion, typedef, constant, enumeration, record .struct, record .union,
    record .exception, service]

/-- The keyword that begins a declaration. -/
def keyword : Kind → String
  | scope => "namespace"
  | inclusion => "include"
  | typedef => "typedef"
  | constant => "const"
  | enumeration => "enum"
  | record kind => kind.keyword
  | service => "service"

/-- The kind with a keyword. -/
def ofKeyword? (keyword : String) : Option Kind :=
  all.find? fun kind => kind.keyword = keyword

/-- Whether declarations of a kind are made of fields. -/
def isRecord : Kind → Bool
  | record _ => true
  | _ => false

/-- Every kind is listed. -/
theorem mem_all (kind : Kind) : kind ∈ all := by
  rcases kind with _ | _ | _ | _ | _ | kind | _
  case record => cases kind <;> decide
  all_goals decide

/-- Different kinds have different keywords. -/
theorem ofKeyword?_keyword (kind : Kind) : ofKeyword? kind.keyword = some kind := by
  rcases kind with _ | _ | _ | _ | _ | kind | _
  case record => cases kind <;> decide
  all_goals decide

end Kind

/-- A top-level declaration. -/
inductive Declaration
  | scope (declared : Namespace)
  | inclusion (declared : Include)
  | typedef (declared : Typedef)
  | constant (declared : Constant)
  | enumeration (declared : Enumeration)
  | record (kind : RecordKind) (declared : Record)
  | service (declared : Service)

namespace Declaration

/-- The kind of a declaration. -/
def kind : Declaration → Kind
  | scope _ => .scope
  | inclusion _ => .inclusion
  | typedef _ => .typedef
  | constant _ => .constant
  | enumeration _ => .enumeration
  | record kind _ => .record kind
  | service _ => .service

/-- The name of a declaration among those of its kind: a namespace goes by its scope and an include
by its module name. -/
def name : Declaration → String
  | scope declared => declared.scope
  | inclusion declared => declared.moduleName
  | typedef declared => declared.name
  | constant declared => declared.name
  | enumeration declared => declared.name
  | record _ declared => declared.name
  | service declared => declared.name

/-- What tells a declaration from the others of a document. -/
def key (declaration : Declaration) : Kind × String :=
  (declaration.kind, declaration.name)

/-- The comments that belong to a declaration. -/
def comments : Declaration → Comments
  | scope declared => declared.comments
  | inclusion declared => declared.comments
  | typedef declared => declared.comments
  | constant declared => declared.comments
  | enumeration declared => declared.comments
  | record _ declared => declared.comments
  | service declared => declared.comments

/-- The fields of a record. -/
def fields? : Declaration → Option (List Field)
  | record _ declared => some declared.fields
  | _ => none

end Declaration

end ThriftIdl
