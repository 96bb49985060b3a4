/-!
# Type expressions

A type is a name or one of three containers of other types.
-/

namespace ThriftIdl

/-- A type expression. -/
inductive TypeRef
  /-- A type by its name, with dots when it belongs to another file. -/
  | scalar (name : String)
  | list (item : TypeRef)
  | set (item : TypeRef)
  | map (key value : TypeRef)
deriving DecidableEq

namespace TypeRef

/-- The name of a scalar type, and the keyword of a container. -/
def name : TypeRef → String
  | scalar name => name
  | list _ => "list"
  | set _ => "set"
  | map _ _ => "map"

/-- Whether a type holds values of other types. -/
def isContainer : TypeRef → Bool
  | scalar _ => false
  | _ => true

end TypeRef

end ThriftIdl
