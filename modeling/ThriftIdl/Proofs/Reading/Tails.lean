import ThriftIdl.Proofs.Grammar.Tokens
import ThriftIdl.Proofs.Reading.Joining
import ThriftIdl.Proofs.Reading.Kinds

/-!
# The comments that an item takes after it

An item ends by taking the comments that wait for the item just read. An enumeration item or a
field takes those that waited when it began and all that its own tokens have added; a function or a
declaration may have lost some of them to the items inside it, and a block takes those of its
header as well. Main statements: `takes_field`, `takes_function` and `takes_formOfKind`.
-/

namespace ThriftIdl

open ThriftIdl.Comment (append?)
open ThriftIdl.Comment.Queue (together together_append)
open ThriftIdl.Parser (View Rule Formed reads)

namespace Grammar

variable {Value First : Type}

/-- A rule for items that ends by taking the comments that wait. It reads tokens with an effect, and
what waits behind them comes after comments that are taken already. -/
structure Takes (comments : Value → Comments) (taken : List String) (effect : Effect)
    (rule : Rule Value) : Prop where
  formed : Formed rule
  traced : ∀ {before value after}, reads rule before = some (value, after) →
    ∃ tokens last, Lexes before.rest tokens last.rest ∧ effect before tokens last ∧
      (comments value).tail = together (taken ++ last.tail) ∧ after = { last with tail := [] }

namespace Takes

variable {comments : Value → Comments} {taken : List String} {effect : Effect}

private theorem bind (lawful : effect.Lawful) {rule : Rule First} {next : First → Rule Value}
    (first : Traces effect rule) (later : ∀ value, Takes comments taken effect (next value)) :
    Takes comments taken effect (rule >>= next) := by
  refine ⟨first.formed.bind fun value => (later value).formed, fun {before value after} read => ?_⟩
  obtain ⟨found, middle, here, there⟩ :=
    (Parser.reads_bind_eq_some_iff _ first.formed fun value => (later value).formed).mp read
  obtain ⟨front, lexes, effect⟩ := first.traced here
  obtain ⟨back, last, lexes', effect', tail, same⟩ := (later found).traced there
  exact ⟨front ++ back, last, lexes.append lexes', lawful.append effect effect', tail, same⟩

/-- An item that takes its comments reads tokens. -/
theorem traces (lawful : effect.Lawful) (dropsTail : effect.DropsTail) {rule : Rule Value}
    (takes : Takes comments taken effect rule) : Traces effect rule := by
  refine ⟨takes.formed, fun read => ?_⟩
  obtain ⟨tokens, last, lexes, effect, -, rfl⟩ := takes.traced read
  refine ⟨tokens, lexes, ?_⟩
  rw [← List.append_nil tokens]
  exact lawful.append effect (dropsTail last)

/-- The end of an item. -/
theorem ending (lawful : effect.Lawful) {make : Option String → Value}
    (appends : ∀ tail, (comments (make tail)).tail = append? (together taken) tail) :
    Takes comments taken effect (Parser.drainTail >>= fun tail => pure (make tail)) := by
  refine ⟨Formed.drainTail.bind fun _ => .pure _, fun {before value after} read => ?_⟩
  rw [Parser.reads_bind _ _ .drainTail fun _ => .pure _, Parser.reads_drainTail, Option.bind_some,
    Parser.reads_pure] at read
  cases read
  refine ⟨[], before, .done _, lawful.nothing _, ?_, rfl⟩
  rw [appends, together_append]

/-- The comments after the header of a block are taken at once, and the block goes on with them. -/
theorem header {next : Option String → Rule Value} (formed : ∀ tail, Formed (next tail))
    (later : ∀ taken, Takes comments taken Effect.KeepsTail (next (together taken))) :
    Takes comments [] Effect.KeepsTail (Parser.drainTail >>= next) := by
  refine ⟨Formed.drainTail.bind formed, fun {before value after} read => ?_⟩
  rw [Parser.reads_bind _ _ .drainTail formed, Parser.reads_drainTail, Option.bind_some] at read
  obtain ⟨tokens, last, lexes, keeps, tail, rfl⟩ := (later before.tail).traced read
  exact ⟨tokens, { last with tail := before.tail ++ last.tail }, lexes, keeps.append_left _,
    tail, rfl⟩

end Takes

/-! ## Items -/

section Items

variable {effect : Effect} (lawful : effect.Lawful) (dropsHead : effect.DropsHead)

include lawful dropsHead

/-- An item of an enumeration takes the comments behind it. -/
theorem takes_enumItem : Takes WrittenItem.comments [] effect Parser.enumItem :=
  .bind lawful (.drainHead dropsHead) fun _ => .bind lawful (traces_name lawful) fun _ =>
    .bind lawful (traces_assignment lawful dropsHead) fun _ =>
    .bind lawful (traces_enumValue lawful.nothing _ _) fun _ =>
    .bind lawful (traces_separator lawful) fun _ => .ending lawful fun _ => rfl

/-- A field takes the comments behind it. -/
theorem takes_field : Takes Field.comments [] effect Parser.field :=
  .bind lawful (.drainHead dropsHead) fun _ =>
    .bind lawful (.attempt lawful (traces_fieldId lawful)) fun _ =>
    .bind lawful (.attempt lawful (traces_qualifier lawful)) fun _ =>
    .bind lawful (traces_typeRef lawful) fun _ => .bind lawful (traces_name lawful) fun _ =>
    .bind lawful (traces_assignment lawful dropsHead) fun _ =>
    .bind lawful (traces_separator lawful) fun _ => .ending lawful fun _ => rfl

variable (dropsTail : effect.DropsTail) (duplicates : DuplicateIds)

include dropsTail

/-- A list of fields is made of tokens. -/
theorem traces_fieldList : Traces effect (Parser.fieldList duplicates) :=
  .bind lawful (traces_mark lawful rfl) fun _ =>
    .bind lawful (.many lawful ((takes_field lawful dropsHead).traces lawful dropsTail)) fun _ =>
    .bind lawful (traces_close lawful dropsHead rfl) fun _ =>
    .bind lawful (traces_checkIds lawful.nothing _ _ _) fun _ => .pure lawful.nothing _

/-- A function takes the comments behind it. -/
theorem takes_function : Takes Function.comments [] effect (Parser.function duplicates) := by
  have fields := traces_fieldList lawful dropsHead dropsTail duplicates
  have throws : Traces effect (Parser.throwsClause duplicates) :=
    .bind lawful (traces_keyword lawful (by decide)) fun _ => fields
  exact .bind lawful (.drainHead dropsHead) fun _ =>
    .bind lawful (.attempt lawful (traces_keyword lawful (by decide))) fun _ =>
    .bind lawful (traces_typeRef lawful) fun _ => .bind lawful (traces_name lawful) fun _ =>
    .bind lawful fields fun _ => .bind lawful (.attempt lawful throws) fun _ =>
    .bind lawful (traces_separator lawful) fun _ => .ending lawful fun _ => rfl

end Items

/-! ## Declarations -/

section Declarations

variable (duplicates : DuplicateIds)

/-- The end of a declaration with the separator after it. -/
theorem takes_ending {taken : List String} {make : Option String → Declaration}
    (appends : ∀ tail, (make tail).comments.tail = append? (together taken) tail) :
    Takes Declaration.comments taken Effect.KeepsTail (do
      Parser.separator
      let tail ← Parser.drainTail
      return make tail) :=
  have lawful := Effect.lawful_keepsTail
  .bind lawful (traces_separator lawful) fun _ => .ending lawful appends

/-- Blocks take the comments of their header and those that are left behind their items. -/
theorem takes_block {word : String} (isWord : IsIdentifier word.toList)
    {next : Option String → String × Option String → Rule Declaration}
    (formed : ∀ head name tail, Formed (next head (name, tail)))
    (later : ∀ head name taken,
      Takes Declaration.comments taken Effect.KeepsTail (next head (name, together taken))) :
    Takes Declaration.comments [] Effect.KeepsTail
      (Parser.drainHead >>= fun head => Parser.blockHeader word >>= next head) := by
  have lawful := Effect.lawful_keepsTail
  refine .bind lawful (.drainHead Effect.dropsHead_keepsTail) fun head => ?_
  simp only [Parser.blockHeader, bind_assoc, pure_bind]
  exact .bind lawful (traces_keyword lawful isWord) fun _ => .bind lawful (traces_name lawful)
    fun name => .bind lawful (traces_mark lawful rfl) fun _ =>
    .header (formed head name) (later head name)

/-- **Declarations take the comments after them.** -/
theorem takes_formOfKind (kind : Kind) :
    Takes Declaration.comments [] Effect.KeepsTail (Parser.formOfKind duplicates kind) := by
  have lawful := Effect.lawful_keepsTail
  have head := Effect.dropsHead_keepsTail
  have tail := Effect.dropsTail_keepsTail
  cases kind with
  | scope =>
      exact .bind lawful (.drainHead head) fun _ =>
        .bind lawful (traces_keyword lawful (by decide)) fun _ =>
        .bind lawful (traces_scope lawful) fun _ => .bind lawful (traces_path lawful) fun _ =>
        takes_ending fun _ => rfl
  | inclusion =>
      show Takes _ _ _ Parser.includeForm
      rw [Parser.includeForm_eq]
      exact .bind lawful (.drainHead head) fun _ =>
        .bind lawful (traces_keyword lawful (by decide)) fun _ =>
        .bind lawful (traces_includePath lawful) fun _ => takes_ending fun _ => rfl
  | typedef =>
      exact .bind lawful (.drainHead head) fun _ =>
        .bind lawful (traces_keyword lawful (by decide)) fun _ =>
        .bind lawful (traces_typeRef lawful) fun _ => .bind lawful (traces_name lawful) fun _ =>
        takes_ending fun _ => rfl
  | constant =>
      exact .bind lawful (.drainHead head) fun _ =>
        .bind lawful (traces_keyword lawful (by decide)) fun _ =>
        .bind lawful (traces_typeRef lawful) fun _ => .bind lawful (traces_name lawful) fun _ =>
        .bind lawful (traces_mark lawful rfl) fun _ =>
        .bind lawful (traces_literal lawful head) fun _ => takes_ending fun _ => rfl
  | enumeration =>
      have item := (takes_enumItem lawful head).traces lawful tail
      refine takes_block (by decide) (fun _ _ _ => Formed.enumItem.many.bind fun _ =>
        (Formed.close _).bind fun _ => Formed.separator.bind fun _ =>
        (Formed.enumValues _ _).bind fun _ => Formed.drainTail.bind fun _ => .pure _) ?_
      exact fun _ _ _ => .bind lawful (.many lawful item) fun _ =>
        .bind lawful (traces_close lawful head rfl) fun _ =>
        .bind lawful (traces_separator lawful) fun _ =>
        .bind lawful (traces_enumValues lawful.nothing _ _) fun _ => .ending lawful fun _ => rfl
  | record kind =>
      have item := (takes_field lawful head).traces lawful tail
      refine takes_block (by cases kind <;> decide) (fun _ _ _ => Formed.field.many.bind fun _ =>
        (Formed.close _).bind fun _ => (Formed.checkIds _ _ _).bind fun _ =>
        Formed.ending _) ?_
      exact fun _ _ _ => .bind lawful (.many lawful item) fun _ =>
        .bind lawful (traces_close lawful head rfl) fun _ =>
        .bind lawful (traces_checkIds lawful.nothing _ _ _) fun _ => takes_ending fun _ => rfl
  | service =>
      have item := (takes_function lawful head tail duplicates).traces lawful tail
      refine .bind lawful (.drainHead head) fun _ =>
        .bind lawful (traces_keyword lawful (by decide)) fun _ =>
        .bind lawful (traces_name lawful) fun _ =>
        .bind lawful (.attempt lawful (traces_parentClause lawful)) fun _ =>
        .bind lawful (traces_mark lawful rfl) fun _ => .header ?_ ?_
      · exact fun _ => (Formed.function duplicates).many.bind fun _ => (Formed.close _).bind
          fun _ => Formed.ending _
      · exact fun _ => .bind lawful (.many lawful item) fun _ =>
          .bind lawful (traces_close lawful head rfl) fun _ =>
          takes_ending fun _ => rfl

/-- What a declaration reads and takes. -/
theorem takes_declaration :
    Takes Declaration.comments [] Effect.KeepsTail (Parser.declaration duplicates) := by
  refine ⟨.declaration duplicates, fun read => ?_⟩
  exact (takes_formOfKind duplicates _).traced ((Parser.reads_declaration_iff duplicates).mp read)

end Declarations

end Grammar
end ThriftIdl
