import ThriftIdl.Proofs.Grammar.Rejection
import ThriftIdl.Proofs.Reading.Regular
import ThriftIdl.Proofs.Rule.Refusal

/-!
# Declarations by their kinds

Each kind of declaration has a form of its own, which begins with the keyword of the kind. So a
declaration that is read is read by the form for its kind (`reads_declaration_iff`), and what begins
with the keyword of a kind is read or rejected as the form for this kind does
(`reads_declaration_of_leadingWord`, `Rejects.declaration`).
-/

namespace ThriftIdl

open ThriftIdl.Grammar (leadingWord)
open ThriftIdl.Parser (View Rule reads)

/-- The rule for the declarations of a kind. -/
def Parser.formOfKind (duplicates : DuplicateIds) : Kind → Rule Declaration
  | .scope => namespaceForm
  | .inclusion => includeForm
  | .typedef => typedefForm
  | .constant => constantForm
  | .enumeration => enumerationForm
  | .record kind => recordForm duplicates kind
  | .service => serviceForm duplicates

namespace Grammar

open Phrase

/-- The form of the declarations of a kind. -/
def formOfKind (duplicates : DuplicateIds) : Kind → Phrase Declaration
  | .scope => namespaceForm
  | .inclusion => includeForm
  | .typedef => typedefForm
  | .constant => constantForm
  | .enumeration => enumerationForm
  | .record kind => recordForm duplicates kind
  | .service => serviceForm duplicates

variable (duplicates : DuplicateIds)

private theorem agrees_formOfKind (kind : Kind) :
    Agrees (Parser.formOfKind duplicates kind) (formOfKind duplicates kind) anything := by
  cases kind with
  | scope => exact agrees_namespaceForm
  | inclusion => exact agrees_includeForm
  | typedef => exact agrees_typedefForm
  | constant => exact agrees_constantForm
  | enumeration => exact agrees_enumerationForm
  | record kind => exact agrees_recordForm duplicates kind
  | service => exact agrees_serviceForm duplicates

/-- What a form reads is of its kind. -/
theorem ensures_formOfKind (kind : Kind) :
    Ensures (formOfKind duplicates kind) fun declared => declared.kind = kind := by
  cases kind with
  | scope =>
      exact .after fun _ => .after fun _ => .after fun _ => .after fun _ => .after fun _ =>
        .after fun _ => .pure rfl
  | inclusion =>
      exact .after fun _ => .after fun _ => .after fun _ => .after fun _ => .after fun _ =>
        .pure rfl
  | typedef =>
      exact .after fun _ => .after fun _ => .after fun _ => .after fun _ => .after fun _ =>
        .after fun _ => .pure rfl
  | constant =>
      exact .after fun _ => .after fun _ => .after fun _ => .after fun _ => .after fun _ =>
        .after fun _ => .after fun _ => .after fun _ => .pure rfl
  | enumeration =>
      exact .after fun _ => .after fun _ => .after fun _ => .after fun _ => .after fun _ =>
        .after fun _ => .after fun _ => .pure rfl
  | record kind =>
      exact .after fun _ => .after fun _ => .after fun _ => .after fun _ => .after fun _ =>
        .after fun _ => .after fun _ => .pure rfl
  | service =>
      exact .after fun _ => .after fun _ => .after fun _ => .after fun _ => .after fun _ =>
        .after fun _ => .after fun _ => .after fun _ => .after fun _ => .after fun _ => .pure rfl

/-- A form begins with the keyword of its kind. -/
theorem starts_formOfKind (kind : Kind) :
    (formOfKind duplicates kind).Starts (leadingWord · = kind.keyword.toList) := by
  cases kind with
  | scope => exact starts_headedKeyword
  | inclusion => exact starts_headedKeyword
  | typedef => exact starts_headedKeyword
  | constant => exact starts_headedKeyword
  | enumeration => exact starts_headedBlock
  | record kind => exact starts_headedBlock
  | service => exact starts_headedKeyword

/-- A declaration is of the form for its kind. -/
theorem declaration_iff {before after : View} {value : Declaration} :
    declaration duplicates before value after ↔
      formOfKind duplicates value.kind before value after := by
  have forms : declarationForms duplicates = Kind.all.map (formOfKind duplicates) := rfl
  constructor
  · rintro ⟨form, member, here⟩
    rw [forms] at member
    obtain ⟨kind, -, rfl⟩ := List.mem_map.mp member
    rwa [ensures_formOfKind duplicates kind here]
  · intro here
    refine ⟨formOfKind duplicates value.kind, ?_, here⟩
    rw [forms]
    exact List.mem_map_of_mem (Kind.mem_all _)

/-- A declaration begins with the keyword of its kind. -/
theorem leadingWord_of_declaration {before after : View} {value : Declaration}
    (here : declaration duplicates before value after) :
    leadingWord before.rest = value.kind.keyword.toList :=
  starts_formOfKind duplicates _ ((declaration_iff duplicates).mp here)

/-- The first word of a declaration tells its kind. -/
theorem kind_of_leadingWord {before after : View} {value : Declaration} {kind : Kind}
    (here : declaration duplicates before value after)
    (leads : leadingWord before.rest = kind.keyword.toList) : value.kind = kind :=
  Kind.keyword_injective
    (String.toList_inj.mp ((leadingWord_of_declaration duplicates here).symm.trans leads))

end Grammar

namespace Parser

variable (duplicates : DuplicateIds)

/-- **Declarations are read by their kinds.** The rule for declarations reads a declaration exactly
if the rule for its kind does. -/
theorem reads_declaration_iff {before after : View} {value : Declaration} :
    reads (declaration duplicates) before = some (value, after) ↔
      reads (formOfKind duplicates value.kind) before = some (value, after) := by
  rw [(Grammar.agrees_declaration duplicates).always, Grammar.declaration_iff,
    (Grammar.agrees_formOfKind duplicates _).always]

/-- What begins with the keyword of a kind is read as the form for this kind reads it. -/
theorem reads_declaration_of_leadingWord (kind : Kind) {before : View}
    (leads : leadingWord before.rest = kind.keyword.toList) :
    reads (declaration duplicates) before = reads (formOfKind duplicates kind) before := by
  apply Option.ext
  rintro ⟨declared, after⟩
  rw [reads_declaration_iff]
  constructor
  · intro read
    have here := (Grammar.agrees_formOfKind duplicates _).always.mp read
    have same := Grammar.kind_of_leadingWord duplicates
      ((Grammar.declaration_iff duplicates).mpr here) leads
    rwa [same] at read
  · intro read
    have same := Grammar.ensures_formOfKind duplicates kind
      ((Grammar.agrees_formOfKind duplicates kind).always.mp read)
    rwa [same]

/-- Where a keyword begins, the text has not ended. -/
theorem unread_of_leadingWord (kind : Kind) {state : State}
    (leads : leadingWord state.view.rest = kind.keyword.toList) : state.input.atEnd = false := by
  by_contra ended
  have nothing : leadingWord [] = "".toList := rfl
  rw [(atEnd_iff state).mp (by simpa using ended), nothing, String.toList_inj] at leads
  have found := Kind.ofKeyword?_keyword kind
  rw [← leads] at found
  cases found

/-- What begins with the keyword of a kind is rejected as the form for this kind rejects it. -/
theorem Rejects.declaration {why : Rejection → Prop} (kind : Kind) {before : View}
    (leads : leadingWord before.rest = kind.keyword.toList)
    (rejects : Rejects why (formOfKind duplicates kind) before) :
    Rejects why (Parser.declaration duplicates) before := by
  have table : Grammar.declarationTable duplicates = Kind.all.map fun kind =>
      (kind.keyword, formOfKind duplicates kind, Grammar.formOfKind duplicates kind) := rfl
  apply Rejects.choice_of_keys leadingWord _ _ .declaration
    (Grammar.candid_declarationTable duplicates) (Grammar.missed_declarationTable duplicates)
  · intro entry member same
    rw [table] at member
    obtain ⟨other, -, rfl⟩ := List.mem_map.mp member
    obtain rfl : kind = other :=
      Kind.keyword_injective (String.toList_inj.mp (leads.symm.trans same))
    exact rejects
  · exact ⟨_, table ▸ List.mem_map_of_mem (Kind.mem_all kind), leads⟩

end Parser

end ThriftIdl
