import ThriftIdl.Interchange
import ThriftIdl.Proofs.Json.Text
import ThriftIdl.Proofs.Reading.Regular

/-!
# Literals in interchange form

A literal is read back from its interchange form, but for its notation: whether an integer is
hexadecimal and a fraction has an exponent, which of the infinities a number is, and whether an
empty literal is a list or a map. Main statements: `Literal.ofJson_json` and `Literal.json_eq_iff`.
-/

namespace ThriftIdl

open ThriftIdl.Layout (ArePath)

/-- A number, with one infinity for all that have no JSON form. -/
def Number.Binary64.plain (number : Binary64) : Binary64 :=
  if number.isFinite then number else ofMagnitude false infinite

namespace Literal

mutual

/-- A literal as its interchange form says it: a decimal integer or a fraction, and a list if it is
empty. -/
def plain : Literal → Literal
  | int value => int value
  | hex value => int value
  | double value => double value.plain
  | exponent value => double value.plain
  | bool value => bool value
  | str value => str value
  | list items => list (plainItems items)
  | map [] => list []
  | map (entry :: rest) => map (plainEntries (entry :: rest))
  | ref segments => ref segments

/-- The items of a list as its interchange form says them. -/
def plainItems : List Literal → List Literal
  | [] => []
  | item :: rest => plain item :: plainItems rest

/-- The entries of a map as its interchange form says them. -/
def plainEntries : List (Literal × Literal) → List (Literal × Literal)
  | [] => []
  | (key, value) :: rest => (plain key, plain value) :: plainEntries rest

end

mutual

/-- The literal that a JSON value stands for. -/
def ofJson : Json → Literal
  | .null => double (.ofMagnitude false Number.Binary64.infinite)
  | .bool value => bool value
  | .int value => int (.ofInt value)
  | .float value => double value
  | .str value => str value
  | .arr (.obj [(_, key), (_, value)] :: rest) =>
    map ((ofJson key, ofJson value) :: ofJsonEntries rest)
  | .arr items => list (ofJsonItems items)
  | .obj [(_, .str path)] => ref ((Parser.pathSegments path.toList).map String.ofList)
  | .obj _ => list []

/-- The items that JSON values stand for. -/
def ofJsonItems : List Json → List Literal
  | [] => []
  | item :: rest => ofJson item :: ofJsonItems rest

/-- The entries that JSON values stand for. -/
def ofJsonEntries : List Json → List (Literal × Literal)
  | .obj [(_, key), (_, value)] :: rest => (ofJson key, ofJson value) :: ofJsonEntries rest
  | _ => []

end

private theorem plainItems_eq (items : List Literal) : plainItems items = items.map plain := by
  induction items with
  | nil => rfl
  | cons item rest ih => rw [plainItems, ih, List.map_cons]

private theorem plainEntries_eq (entries : List (Literal × Literal)) :
    plainEntries entries = entries.map (Prod.map plain plain) := by
  induction entries with
  | nil => rfl
  | cons entry rest ih => rw [plainEntries, ih, List.map_cons, Prod.map]

private theorem jsonItems_eq (items : List Literal) : jsonItems items = items.map json := by
  induction items with
  | nil => rfl
  | cons item rest ih => rw [jsonItems, ih, List.map_cons]

/-- The interchange form of an entry. -/
def entryJson (entry : Literal × Literal) : Json :=
  .obj [("key", entry.1.json), ("value", entry.2.json)]

private theorem jsonEntries_eq (entries : List (Literal × Literal)) :
    jsonEntries entries = entries.map entryJson := by
  induction entries with
  | nil => rfl
  | cons entry rest ih => rw [jsonEntries, ih, List.map_cons, entryJson]

private theorem ofJsonItems_eq (items : List Json) : ofJsonItems items = items.map ofJson := by
  induction items with
  | nil => rfl
  | cons item rest ih => rw [ofJsonItems, ih, List.map_cons]

/-- No item of a list has the form of an entry of a map. -/
theorem json_plain_ne_entry (literal : Literal) (first second : String × Json) :
    literal.json.plain ≠ .obj [first, second] := by
  cases literal with
  | double value =>
      rw [json, Json.plain]
      split <;> intro same <;> cases same
  | exponent value =>
      rw [json, Json.plain]
      split <;> intro same <;> cases same
  | _ => simp [json]

/-- The segments of a path can be read off it. -/
theorem pathSegments_dotted {segments : List String} (arePath : ArePath segments) :
    (Parser.pathSegments (".".intercalate segments).toList).map String.ofList = segments := by
  have chars : (".".intercalate segments).toList = ['.'].intercalate (segments.map String.toList) :=
    Grammar.toList_dotted segments
  have read : Parser.pathSegments (['.'].intercalate (segments.map String.toList) ++ []) =
      segments.map String.toList :=
    Grammar.pathSegments_intercalate (by simpa using arePath.1) (by simpa using arePath.2) rfl
  rw [List.append_nil] at read
  rw [chars, read]
  simp

/-- Items of a list are not taken for entries of a map. -/
theorem ofJson_arr {items : List Literal} :
    ofJson (.arr ((items.map json).map Json.plain)) =
      list (ofJsonItems ((items.map json).map Json.plain)) := by
  cases items with
  | nil => rfl
  | cons item rest =>
      rw [List.map_cons, List.map_cons, ofJson]
      intro key first value second others same
      exact json_plain_ne_entry item _ _ (List.cons.inj same).1

/-- The plain form of a map entry is that of its key and its value. -/
@[simp] theorem plain_entryJson (entry : Literal × Literal) : (entryJson entry).plain =
    .obj [("key", entry.1.json.plain), ("value", entry.2.json.plain)] :=
  rfl

private theorem ofJsonEntries_eq {entries : List (Literal × Literal)}
    (keys : ∀ entry ∈ entries, ofJson entry.1.json.plain = entry.1.plain)
    (values : ∀ entry ∈ entries, ofJson entry.2.json.plain = entry.2.plain) :
    ofJsonEntries ((entries.map entryJson).map Json.plain) = plainEntries entries := by
  induction entries with
  | nil => rfl
  | cons entry rest ih =>
      rw [List.forall_mem_cons] at keys values
      rw [List.map_cons, List.map_cons, plain_entryJson, ofJsonEntries, keys.1, values.1,
        ih keys.2 values.2, plainEntries]

/-- **A literal can be read back** from its interchange form. -/
theorem ofJson_json {literal : Literal} (regular : literal.Regular) :
    ofJson literal.json.plain = literal.plain := by
  induction regular with
  | int value => rw [json, Json.plain, ofJson, plain, Int64.ofInt_toInt]
  | hex => rw [json, Json.plain, ofJson, plain, Int64.ofInt_toInt]
  | double =>
      rw [json, Json.plain, plain, Number.Binary64.plain]
      split <;> rw [ofJson]
  | exponent =>
      rw [json, Json.plain, plain, Number.Binary64.plain]
      split <;> rw [ofJson]
  | bool value => rw [json, Json.plain, ofJson, plain]
  | str value => rw [json, Json.plain, ofJson, plain]
  | list _ read =>
      rw [json, Json.plain_arr, jsonItems_eq, ofJson_arr, ofJsonItems_eq, plain, plainItems_eq,
        List.map_map, List.map_map]
      exact congrArg list (List.map_congr_left read)
  | @map entries _ _ keys values =>
      rw [json, Json.plain_arr, jsonEntries_eq]
      cases entries with
      | nil => rfl
      | cons entry rest =>
          rw [List.forall_mem_cons] at keys values
          rw [List.map_cons, List.map_cons, plain_entryJson, ofJson, keys.1, values.1,
            ofJsonEntries_eq keys.2 values.2, plain, plainEntries]
  | ref arePath _ _ =>
      rw [json, Json.plain, Json.plainMembers, Json.plainMembers, Json.plain, plain, ofJson,
        pathSegments_dotted arePath]

/-- What a literal loses in its interchange form is not in the form. -/
theorem json_plain {literal : Literal} (regular : literal.Regular) :
    literal.plain.json.plain = literal.json.plain := by
  -- The plain form of a fraction differs only where the form has `null` anyway.
  have fraction (value : Number.Binary64) :
      (Json.float value.plain).plain = (Json.float value).plain := by
    have exotic :
        (Number.Binary64.ofMagnitude false Number.Binary64.infinite).isFinite = false := by
      decide
    rw [Number.Binary64.plain, Json.plain, Json.plain]
    split
    · rfl
    · rw [exotic]
      rfl
  induction regular with
  | double => exact fraction _
  | exponent => exact fraction _
  | list _ same =>
      rw [plain, json, json, Json.plain_arr, Json.plain_arr, jsonItems_eq, jsonItems_eq,
        plainItems_eq, List.map_map, List.map_map, List.map_map]
      exact congrArg Json.arr (List.map_congr_left same)
  | @map entries _ _ keys values =>
      have same : ∀ entry ∈ entries, (entryJson (Prod.map plain plain entry)).plain =
          (entryJson entry).plain := by
        intro entry member
        rw [plain_entryJson, plain_entryJson, Prod.map, keys entry member, values entry member]
      have mapped : ((entries.map (Prod.map plain plain)).map entryJson).map Json.plain =
          (entries.map entryJson).map Json.plain := by
        rw [List.map_map, List.map_map, List.map_map]
        exact List.map_congr_left same
      cases entries with
      | nil => rfl
      | cons entry rest =>
          rw [plain, json, json, Json.plain_arr, Json.plain_arr, jsonEntries_eq, jsonEntries_eq,
            plainEntries_eq]
          exact congrArg Json.arr mapped
  | _ => rfl

/-- **Literals have the same interchange form** if they differ in nothing else than their
notation. -/
theorem json_eq_iff {first second : Literal} (regular : first.Regular) (regular' : second.Regular) :
    first.json.plain = second.json.plain ↔ first.plain = second.plain := by
  constructor
  · intro same
    rw [← ofJson_json regular, ← ofJson_json regular', same]
  · intro same
    rw [← json_plain regular, ← json_plain regular', same]

end Literal

end ThriftIdl
