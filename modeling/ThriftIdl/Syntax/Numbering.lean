import ThriftIdl.Syntax.Declaration

/-!
# The values of enumeration items

An item without a value of its own has the value after that of the item before it; the first has
zero. There is no value after the greatest one.
-/

namespace ThriftIdl

/-- An enumeration item as it is written. -/
structure WrittenItem where
  name : String
  /-- The value that is written for it. -/
  value : Option Int64
  comments : Comments

/-- The next greater value, if there is one. -/
def nextValue? (value : Int64) : Option Int64 :=
  if value = Int64.maxValue then none else some (value + 1)

/-- The items of an enumeration with their values, given the value of the first item if it has none
of its own. Fails with the name of the first item that there is no value for. -/
def numberItems : Option Int64 → List WrittenItem → Except String (List EnumItem)
  | _, [] => .ok []
  | next, item :: rest =>
    match item.value <|> next with
    | none => .error item.name
    | some value =>
      match numberItems (nextValue? value) rest with
      | .ok numbered => .ok (⟨item.name, value, item.comments⟩ :: numbered)
      | .error name => .error name

end ThriftIdl
