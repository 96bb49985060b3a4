import ThriftIdl.Document
import ThriftIdl.Json.Value

/-!
# Documents as JSON

The interchange form of a document is an object of the kinds that occur, each an object of the
declarations by name. A record stands for its list of fields; what is absent has no member.
-/

namespace ThriftIdl

/-- A member that is left out when there is no value. -/
def optionalMember (key : String) : Option Json → List (String × Json)
  | some value => [(key, value)]
  | none => []

/-- The comments of an item as members. -/
def Comments.members (comments : Comments) : List (String × Json) :=
  optionalMember "headComment" (comments.head.map .str) ++
    optionalMember "tailComment" (comments.tail.map .str)

/-- A type: its name, or an object that names a container and its parts. -/
def TypeRef.json : TypeRef → Json
  | scalar name => .str name
  | list item => .obj [("name", .str "list"), ("valueType", item.json)]
  | set item => .obj [("name", .str "set"), ("valueType", item.json)]
  | map key value =>
    .obj [("name", .str "map"), ("keyType", key.json), ("valueType", value.json)]

namespace Literal

mutual

/-- A literal: numbers, texts and lists as such, a map as a list of entries, a reference as an
object with its path. -/
def json : Literal → Json
  | int value => .int value.toInt
  | hex value => .int value.toInt
  | double value => .float value
  | exponent value => .float value
  | bool value => .bool value
  | str value => .str value
  | list items => .arr (jsonItems items)
  | map entries => .arr (jsonEntries entries)
  | ref segments => .obj [("ref", .str (".".intercalate segments))]

/-- The items of a list. -/
def jsonItems : List Literal → List Json
  | [] => []
  | item :: rest => json item :: jsonItems rest

/-- The entries of a map, each an object with its key and its value. -/
def jsonEntries : List (Literal × Literal) → List Json
  | [] => []
  | (key, value) :: rest => .obj [("key", json key), ("value", json value)] :: jsonEntries rest

end

end Literal

/-- A field. -/
def Field.json (field : Field) : Json :=
  .obj <|
    optionalMember "id" (field.id.map fun id => .int id.toInt) ++
    optionalMember "option" (field.qualifier.map fun qualifier => .str qualifier.keyword) ++
    [("type", field.type.json), ("name", .str field.name)] ++
    optionalMember "value" (field.defaultValue.map Literal.json) ++ field.comments.members

/-- A list of fields. -/
def Field.jsonList (fields : List Field) : Json :=
  .arr (fields.map Field.json)

/-- An enumeration item. -/
def EnumItem.json (item : EnumItem) : Json :=
  .obj <| [("name", .str item.name), ("value", .int item.value.toInt)] ++ item.comments.members

/-- A function. -/
def Function.json (function : Function) : Json :=
  .obj <|
    [("type", function.returns.json), ("name", .str function.name),
      ("args", Field.jsonList function.arguments), ("throws", Field.jsonList function.throws),
      ("oneway", .bool function.oneway)] ++ function.comments.members

/-- A declaration, without its name. -/
def Declaration.json : Declaration → Json
  | scope declared => .obj <| ("value", .str declared.path) :: declared.comments.members
  | inclusion declared => .obj <| ("value", .str declared.path) :: declared.comments.members
  | typedef declared => .obj <| ("type", declared.type.json) :: declared.comments.members
  | constant declared =>
    .obj <| ("type", declared.type.json) :: ("value", declared.value.json) ::
      declared.comments.members
  | enumeration declared =>
    .obj <| ("items", .arr (declared.items.map EnumItem.json)) :: declared.comments.members
  | record _ declared => Field.jsonList declared.fields
  | service declared =>
    .obj <| optionalMember "extends" (declared.parent.map .str) ++
      ("functions", .obj <| declared.functions.items.map fun function =>
        (function.name, function.json)) :: declared.comments.members

/-- The declarations of one kind by their names. -/
def Document.kindJson (document : Document) (kind : Kind) : Json :=
  .obj <| (document.ofKind kind).map fun declaration => (declaration.name, declaration.json)

/-- A document. -/
def Document.json (document : Document) : Json :=
  .obj <| document.kinds.map fun kind => (kind.keyword, document.kindJson kind)

end ThriftIdl
