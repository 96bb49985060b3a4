import ThriftIdl.Command.Result
import ThriftIdl.Proofs.Json.Reader

/-!
# Errors survive JSON

An error is written with its members in one of two orders, on one line or on several, and the
command ends its report with a line break. Whatever the message and the context are, each of these
texts is read as the same error, as long as the number of its line fits in thirty-two bits. Main
statement: `SyntaxError.ofJsonText?_written`.
-/

namespace ThriftIdl.SyntaxError

open Json (Outline)
open scoped List

/-- A member by its name. -/
def namedOutline (member : String × Json) : String × Outline :=
  (member.1, member.2.outline)

/-- The keys of an object that has been written are resolved to the keys it had. -/
theorem mapM_resolve (members : List (String × Json)) :
    ((members.map Json.outlineMember).mapM fun (units, value) =>
      (Json.resolve units).map fun key => (String.ofList key, value)) =
      some (members.map namedOutline) := by
  induction members with
  | nil => rfl
  | cons member rest ih =>
      rw [List.map_cons, List.mapM_cons, ih, Json.outlineMember]
      simp only [Json.resolve_map_stringUnit, Option.map_some, String.ofList_toList]
      rfl

/-- A member is found at whatever place it stands. -/
theorem member?_of_perm {key : String} {members others : List (String × Outline)}
    (same : members.Perm others) {value : Outline}
    (found : (others.filter fun member => member.1 = key) = [(key, value)]) :
    member? key members = some value := by
  have alone := same.filter fun member => member.1 = key
  rw [found, List.perm_singleton] at alone
  rw [member?, alone]

/-- **The three members of an error**, in any order. -/
theorem ofOutline?_members {error : SyntaxError} {members : List (String × Json)}
    (all : members.Perm [("message", .str error.message), ("context", .str error.context),
      ("line", .int error.line)]) :
    ofOutline? (Json.obj members).outline =
      if error.line ≤ maxLine then some error else none := by
  have named := all.map namedOutline
  have message : member? "message" (members.map namedOutline) =
      some (Json.str error.message).outline := member?_of_perm named rfl
  have context : member? "context" (members.map namedOutline) =
      some (Json.str error.context).outline := member?_of_perm named rfl
  have line : member? "line" (members.map namedOutline) =
      some (Json.int error.line).outline := member?_of_perm named rfl
  rw [Json.outline, Json.outlineMembers_eq, ofOutline?, mapM_resolve]
  simp [message, context, line, ofParts?, Json.string?_outline, Json.natural?_outline]

/-- Both orders in which the members are written will do. -/
theorem ofOutline?_written {error : SyntaxError} {value : Json}
    (written : value ∈ [error.stored, error.json]) :
    ofOutline? value.outline = if error.line ≤ maxLine then some error else none := by
  rcases List.mem_pair.mp written with rfl | rfl
  · exact ofOutline?_members (.refl _)
  · have alphabetical : [("context", Json.str error.context), ("line", Json.int error.line)] ++
        [("message", Json.str error.message)] ~ [("message", Json.str error.message)] ++
          [("context", Json.str error.context), ("line", Json.int error.line)] :=
      List.perm_append_comm
    exact ofOutline?_members alphabetical

/-- **Errors survive JSON**: an error whose line has thirty-two bits is read back from what is
stored of it and from what is reported of it, on one line or on several, and from the report of the
command. -/
theorem ofJsonText?_written {error : SyntaxError} (line : error.line ≤ maxLine) :
    (∀ value ∈ [error.stored, error.json],
      ofJsonText? value.text = some error ∧ ofJsonText? value.pretty = some error) ∧
    ∀ invocation : Command.Invocation, invocation.output = .json →
      ofJsonText? (invocation.errorReport error) = some error := by
  have read {value : Json} (written : value ∈ [error.stored, error.json]) {text : String}
      (outlined : Json.outline? text = some value.outline) : ofJsonText? text = some error := by
    rw [ofJsonText?, outlined, Option.bind_some, ofOutline?_written written, if_pos line]
  constructor
  · intro value written
    exact ⟨read written (Json.outline?_text value), read written (Json.outline?_pretty value).1⟩
  · intro invocation isJson
    have report : invocation.errorReport error = error.json.pretty ++ "\n" := by
      rw [Command.Invocation.errorReport, isJson]
      rfl
    rw [report]
    exact read (by simp) (Json.outline?_pretty error.json).2

/-- Quotes, backslashes, control characters, line separators and characters beyond sixteen bits are
read back, and so is the greatest line. -/
theorem ofJsonText?_written_hard :
    let error : SyntaxError :=
      { message := "\"\\/\x00\x1f\x7f`\x7b", context := "\r\n\t\x08\x0c\u2028𝄞",
        line := 0xFFFFFFFF }
    let invocation : Command.Invocation :=
      { action := .check, file := "a.thrift", output := .json, quiet := true, verbose := false,
        keepDuplicates := false }
    error.line ≤ maxLine ∧ invocation.output = .json ∧
      ofJsonText? error.stored.text = some error ∧ ofJsonText? error.json.pretty = some error ∧
      ofJsonText? (invocation.errorReport error) = some error := by
  intro error invocation
  have line : error.line ≤ maxLine := le_rfl
  obtain ⟨values, report⟩ := ofJsonText?_written line
  exact ⟨line, rfl, (values error.stored (by simp)).1, (values error.json (by simp)).2,
    report invocation rfl⟩

end ThriftIdl.SyntaxError
