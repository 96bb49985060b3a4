import ThriftIdl.Syntax.Declaration

/-!
# Documents

A document holds the declarations of an interface file, one for each kind and name. It lists them
kind by kind, and within a kind in the order in which their names first came; a declaration that
comes again takes the place of the earlier one.
-/

namespace ThriftIdl

/-- The declarations of an interface file. -/
structure Document where
  declarations : Keyed Declaration.key

namespace Document

/-- The document without declarations. -/
def empty : Document where
  declarations := .empty

/-- Put a declaration in, replacing the one of its kind and name if there is one. -/
def insert (document : Document) (declaration : Declaration) : Document where
  declarations := document.declarations.insert declaration

/-- Put several declarations in, one after the other. -/
def insertAll (document : Document) (declarations : List Declaration) : Document :=
  declarations.foldl insert document

/-- The document of a list of declarations. -/
def ofList (declarations : List Declaration) : Document :=
  empty.insertAll declarations

/-- The declarations of one kind. -/
def ofKind (document : Document) (kind : Kind) : List Declaration :=
  document.declarations.items.filter fun declaration => declaration.kind = kind

/-- All declarations, kind by kind. -/
def toList (document : Document) : List Declaration :=
  Kind.all.flatMap document.ofKind

/-- Whether there is a declaration of a kind. -/
def containsKind (document : Document) (kind : Kind) : Bool :=
  !(document.ofKind kind).isEmpty

/-- The kinds of which there are declarations. -/
def kinds (document : Document) : List Kind :=
  Kind.all.filter document.containsKind

/-- The names of the declarations of a kind, unless there are none. -/
def names? (document : Document) (kind : Kind) : Option (List String) :=
  match document.ofKind kind with
  | [] => none
  | declared => some (declared.map Declaration.name)

/-- The number of declarations. -/
def size (document : Document) : Nat :=
  document.declarations.size

/-- Whether there are no declarations. -/
def isEmpty (document : Document) : Bool :=
  document.size = 0

/-- The declaration of a kind with a name. -/
def find? (document : Document) (kind : Kind) (name : String) : Option Declaration :=
  document.declarations.find? (kind, name)

/-- The fields of the record of a kind with a name. -/
def fields? (document : Document) (kind : Kind) (name : String) : Option (List Field) :=
  (document.find? kind name).bind Declaration.fields?

/-- The namespace for a scope. -/
def namespace? (document : Document) (scope : String) : Option Namespace :=
  match document.find? .scope scope with
  | some (.scope declared) => some declared
  | _ => none

/-- The include with a module name. -/
def include? (document : Document) (moduleName : String) : Option Include :=
  match document.find? .inclusion moduleName with
  | some (.inclusion declared) => some declared
  | _ => none

/-- The type definition with a name. -/
def typedef? (document : Document) (name : String) : Option Typedef :=
  match document.find? .typedef name with
  | some (.typedef declared) => some declared
  | _ => none

/-- The constant with a name. -/
def constant? (document : Document) (name : String) : Option Constant :=
  match document.find? .constant name with
  | some (.constant declared) => some declared
  | _ => none

/-- The enumeration with a name. -/
def enumeration? (document : Document) (name : String) : Option Enumeration :=
  match document.find? .enumeration name with
  | some (.enumeration declared) => some declared
  | _ => none

/-- The service with a name. -/
def service? (document : Document) (name : String) : Option Service :=
  match document.find? .service name with
  | some (.service declared) => some declared
  | _ => none

/-- The includes of a document. -/
def includes (document : Document) : List Include :=
  (document.ofKind .inclusion).filterMap fun declaration =>
    match declaration with
    | .inclusion declared => some declared
    | _ => none

end Document

end ThriftIdl
