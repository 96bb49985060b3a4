import ThriftIdl.Proofs.Document.Grouped
import ThriftIdl.Proofs.Reading.Kinds
import ThriftIdl.Proofs.Reading.Places

/-!
# What a document stores

The declarations of a source text are put into its document in the order in which they are written,
and the functions of a service into the service likewise. So a document and the functions of its
services keep the last value of each key in the place of the first (`Parser.store_lawful`).
-/

namespace ThriftIdl

namespace Grammar

open Phrase

variable {duplicates : DuplicateIds}

private theorem isIdentifier_service : IsIdentifier "service".toList := by
  decide

/-- A service up to its closing brace, with its functions as they are written. -/
def serviceBlock (duplicates : DuplicateIds) : Phrase (List Function) := do
  let _ ← drainHead
  keyword "service" isIdentifier_service
  let _ ← name
  let _ ← parentClause.optional
  mark '\x7b' plain_leftBrace
  let _ ← drainTail
  let functions ← Repeated (function duplicates)
  close '\x7d' plain_rightBrace
  return functions

/-- The functions of a service are collected from those that are written in it. -/
theorem exists_serviceBlock {before after : Parser.View} {service : Service}
    (read : declaration duplicates before (.service service) after) :
    ∃ written closed, serviceBlock duplicates before written closed ∧
      service.functions = .ofList written := by
  obtain ⟨head, opened, headed, _, named, word, name, parents, isName, parent, brace, extending,
    _, inside, open_, headerTail, first, tailed, functions, last, each, _, closed, ended, _, _, _,
    _, _, _, made, _⟩ := (declaration_iff duplicates).mp read
  cases made
  exact ⟨functions, closed, ⟨head, opened, headed, _, named, word, name, parents, isName, parent,
    brace, extending, _, inside, open_, headerTail, first, tailed, functions, last, each, _,
    closed, ended, rfl, rfl⟩, rfl⟩

end Grammar

namespace Parser

variable {options : Options} {source : String}

/-- Each service that is read holds the functions of its block. -/
theorem Declares.exists_serviceBlock {before after : State} {declared : List (Nat × Declaration)}
    (declares : Declares options before declared after) (reached : TopLevel options source before) :
    ∀ line service, (line, Declaration.service service) ∈ declared →
      ∃ state next written closed, TopLevel options source state ∧
        declaration options.duplicates (state.keeping []) = .ok (.service service) next ∧
        Grammar.serviceBlock options.duplicates state.view written closed ∧
        service.functions.Keeps written := by
  intro line service member
  obtain ⟨state, next, reached, matched, -⟩ := declares.exists_topLevel reached _ member
  obtain ⟨read, -, -⟩ := declaration_of_ok reached.sound matched
  obtain ⟨written, closed, block, functions⟩ := Grammar.exists_serviceBlock read
  exact ⟨state, next, written, closed, reached, matched, block,
    functions ▸ Keyed.keeps_ofList written⟩

/-- **Documents and services are lawful stores.** For every sequence of declarations that is put
into a document,

* the document keeps the last one of each kind and name, in the place of the first one, and it shows
  what the same insertions make in two levels, by kind and then by name;
* each accessor for a kind gives just what is stored under its name;
* it equals the document of another sequence exactly if the last declarations of each kind and name
  are equal, in whatever order they came.

A service keeps its functions in the same way, by their names. And a source text that can be read
has the document of its declarations in the order in which they are written, and each service in it
the functions of its block in the order in which they are written. -/
theorem store_lawful :
    (∀ declared : List Declaration,
      (Document.ofList declared).Keeps declared ∧ (Document.ofList declared).Typed ∧
      (Grouped.ofList declared).Shows (Document.ofList declared)) ∧
    (∀ first second : List Declaration,
      ((Document.ofList first).same (Document.ofList second) = true ↔ ∀ key,
        sameOptional Declaration.same (lastWith? Declaration.key key first)
          (lastWith? Declaration.key key second) = true) ∧
      (Grouped.ofList first).same (Grouped.ofList second) =
        (Document.ofList first).same (Document.ofList second)) ∧
    (∀ written : List Function, (Keyed.ofList written : Keyed Function.name).Keeps written) ∧
    (∀ first second : List Function,
      (Keyed.ofList first : Keyed Function.name).equals Function.same (Keyed.ofList second) = true ↔
        ∀ name, sameOptional Function.same (lastWith? Function.name name first)
          (lastWith? Function.name name second) = true) ∧
    ∀ (options : Options) (source : String) (document : Document),
      Document.parse source options = .ok document →
        ∃ declared last, Declares options (openingState source) declared last ∧
          last.input.atEnd = true ∧ document = Document.ofList (declared.map Prod.snd) ∧
          ∀ line service, (line, Declaration.service service) ∈ declared →
            ∃ state next written closed, TopLevel options source state ∧
              declaration options.duplicates (state.keeping []) = .ok (.service service) next ∧
              Grammar.serviceBlock options.duplicates state.view written closed ∧
              service.functions.Keeps written := by
  refine ⟨fun declared => ⟨Document.keeps_ofList declared, Document.typed _,
    (Grouped.represents_ofList declared).shows⟩, fun first second => ⟨?_, ?_⟩,
    Keyed.keeps_ofList, fun first second => ?_, fun options source document parsed => ?_⟩
  · rw [Document.same_iff, Prod.forall]
    simp only [(Document.keeps_ofList _).find?]
  · exact (Grouped.represents_ofList first).same_eq (Grouped.represents_ofList second)
  · rw [Keyed.equals_iff]
    simp only [Keyed.find?_ofList]
  · obtain ⟨last, declares, ended, same⟩ := declares_of_parse parsed
    exact ⟨_, last, declares, ended, same, declares.exists_serviceBlock .start⟩

/-- A type and a function that are declared twice keep their first places and their last values. -/
theorem store_lawful_redeclared :
    ∃ document declared,
      Document.parse "typedef i8 A typedef i16 B service S {
        void f() void g() oneway void f() } typedef i32 A" = .ok document ∧
      document.Keeps declared ∧ document.toList.map Declaration.name = ["A", "B", "S"] ∧
      (document.typedef? "A").map Typedef.type = some (.scalar "i32") ∧
      (document.service? "S").map (fun service => service.functions.items.map fun function =>
        (function.name, function.oneway)) = some [("f", true), ("g", false)] := by
  obtain ⟨document, parsed, seen⟩ := exists_of_map_parse {}
    "typedef i8 A typedef i16 B service S {
        void f() void g() oneway void f() } typedef i32 A"
    (fun document => (document.toList.map Declaration.name,
      (document.typedef? "A").map Typedef.type,
      (document.service? "S").map fun service => service.functions.items.map fun function =>
        (function.name, function.oneway)))
    (["A", "B", "S"], some (.scalar "i32"), some [("f", true), ("g", false)]) (by decide +kernel)
  rw [Prod.mk.injEq, Prod.mk.injEq] at seen
  obtain ⟨names, type, functions⟩ := seen
  obtain ⟨declared, -, -, -, same, -⟩ := store_lawful.2.2.2.2 {} _ document parsed
  refine ⟨document, declared.map Prod.snd, parsed, ?_, names, type, functions⟩
  rw [same]
  exact (store_lawful.1 _).1

end Parser
end ThriftIdl
