import ThriftIdl.Proofs.Grammar.Rejection
import ThriftIdl.Proofs.Rule.Strictness

/-!
# Rejecting and keeping repeated numbers

Whether repeated numbers of fields are rejected makes a difference in one rule. Followed through the
grammar, the difference stays what it is: as long as nothing is rejected where repeated numbers are
kept, the declaration is read in the same way where they are rejected, or else nothing but repeated
numbers has been rejected (`stricter_declaration`). And every declaration that is read where they
are rejected is read where they are kept (`declaration_entails_keep`).
-/

namespace ThriftIdl

open Source (Stops)
open ThriftIdl.Parser (View Rule Formed reads isIdentStart isSeparator Quiet Candid Clean Records
  Diverges Faulted Stricter Nowhere Everywhere)

namespace Grammar

open Phrase

/-! ## Keeping reads at least as much -/

section Entails

variable (duplicates : DuplicateIds) (bound : Nat)

private theorem idsAllowed_keep (fields : List Field) : IdsAllowed .keep fields :=
  fun impossible => nomatch impossible

private theorem provided_entails_keep (fields : List Field) :
    EntailsBelow bound (provided (IdsAllowed duplicates fields))
      (provided (IdsAllowed .keep fields)) :=
  fun _ _ _ _ here => ⟨idsAllowed_keep fields, here.2⟩

private theorem fieldList_entails_keep :
    EntailsBelow bound (fieldList duplicates) (fieldList .keep) :=
  (EntailsBelow.refl _).bind (Lexeme.narrows_phrase _) fun _ =>
    (EntailsBelow.refl _).bind advances_field.narrows.repeated fun fields =>
    (EntailsBelow.refl _).bind advances_close.narrows fun _ =>
    (provided_entails_keep duplicates bound fields).bind (narrows_provided _) fun _ => .refl _

private theorem optional_entails {Value : Type} {phrase other : Phrase Value} {bound : Nat}
    (entails : EntailsBelow bound phrase other) :
    EntailsBelow bound phrase.optional other.optional := by
  intro before found after shorter here
  cases found with
  | none => exact here
  | some value => exact entails shorter here

private theorem function_entails_keep :
    EntailsBelow bound (function duplicates) (function .keep) := by
  have list := fieldList_entails_keep duplicates bound
  have clause : EntailsBelow bound (throwsClause duplicates) (throwsClause .keep) :=
    (EntailsBelow.refl _).bind (Lexeme.narrows_phrase _) fun _ => list
  have clauseNarrows : (throwsClause duplicates).Narrows :=
    (Lexeme.narrows_phrase _).bind fun _ => (advances_fieldList _).narrows
  exact (EntailsBelow.refl _).bind .drainHead fun _ =>
    (EntailsBelow.refl _).bind (Lexeme.narrows_phrase _).optional fun _ =>
    (EntailsBelow.refl _).bind advances_type.only.narrows fun _ =>
    (EntailsBelow.refl _).bind (Lexeme.narrows_phrase _) fun _ =>
    list.bind (advances_fieldList _).narrows fun _ =>
    (optional_entails clause).bind clauseNarrows.optional fun _ => .refl _

private theorem recordForm_entails_keep (kind : RecordKind) :
    EntailsBelow bound (recordForm duplicates kind) (recordForm .keep kind) :=
  (EntailsBelow.refl _).bind .drainHead fun _ =>
    (EntailsBelow.refl _).bind (advances_blockHeader _ _).narrows fun _ =>
    (EntailsBelow.refl _).bind advances_field.narrows.repeated fun fields =>
    (EntailsBelow.refl _).bind advances_close.narrows fun _ =>
    (provided_entails_keep duplicates bound fields).bind (narrows_provided _) fun _ => .refl _

private theorem serviceForm_entails_keep :
    EntailsBelow bound (serviceForm duplicates) (serviceForm .keep) :=
  (EntailsBelow.refl _).bind .drainHead fun _ =>
    (EntailsBelow.refl _).bind (Lexeme.narrows_phrase _) fun _ =>
    (EntailsBelow.refl _).bind (Lexeme.narrows_phrase _) fun _ =>
    (EntailsBelow.refl _).bind
      ((Lexeme.narrows_phrase _).bind fun _ => Lexeme.narrows_phrase _).optional fun _ =>
    (EntailsBelow.refl _).bind (Lexeme.narrows_phrase _) fun _ =>
    (EntailsBelow.refl _).bind .drainTail fun _ =>
    ((function_entails_keep duplicates bound).repeated (advances_function _).narrows).bind
      (advances_function _).narrows.repeated fun _ => .refl _

/-- Every declaration is one where repeated numbers are kept. -/
theorem declaration_entails_keep :
    EntailsBelow bound (declaration duplicates) (declaration .keep) := by
  rintro before value after shorter ⟨form, member, here⟩
  have kept (other : Phrase Declaration) (inside : other ∈ declarationForms .keep)
      (there : other before value after) : declaration .keep before value after :=
    ⟨other, inside, there⟩
  simp only [declarationForms, List.mem_cons, List.not_mem_nil, or_false] at member
  rcases member with rfl | rfl | rfl | rfl | rfl | rfl | rfl | rfl | rfl
  case inr.inr.inr.inr.inr.inl =>
    exact kept _ (by simp [declarationForms]) (recordForm_entails_keep _ bound _ shorter here)
  case inr.inr.inr.inr.inr.inr.inl =>
    exact kept _ (by simp [declarationForms]) (recordForm_entails_keep _ bound _ shorter here)
  case inr.inr.inr.inr.inr.inr.inr.inl =>
    exact kept _ (by simp [declarationForms]) (recordForm_entails_keep _ bound _ shorter here)
  case inr.inr.inr.inr.inr.inr.inr.inr =>
    exact kept _ (by simp [declarationForms]) (serviceForm_entails_keep _ bound shorter here)
  all_goals exact kept _ (by simp only [declarationForms, List.mem_cons, true_or, or_true]) here

end Entails

/-! ## Rejecting rejects nothing but repeated numbers -/

/-- The rejection of a repeated number. -/
def IsDuplicate (why : Rejection) : Prop :=
  ∃ id owner name, why = .duplicateId id owner name

private theorem stricter_checkIds (owner : FieldOwner) (fields : List Field) :
    Stricter IsDuplicate (Parser.checkIds .reject owner fields)
      (Parser.checkIds .keep owner fields) Nowhere Everywhere := by
  refine ⟨.checkIds _ _ _, .checkIds _ _ _, fun {before} _ _ => ?_⟩
  unfold Parser.checkIds
  cases repeatedId? fields with
  | none => exact .inl rfl
  | some repeated =>
      obtain ⟨id, name⟩ := repeated
      refine .inr (.error ⟨[before.missFor (.rejected (.duplicateId id owner name))], rfl, ?_,
        _, List.mem_singleton_self _, rfl⟩ trivial)
      intro miss member why same
      obtain rfl := List.mem_singleton.mp member
      exact ⟨id, owner, name, (Reason.rejected.inj same).symm⟩

private theorem stricter_fieldList :
    Stricter IsDuplicate (Parser.fieldList .reject) (Parser.fieldList .keep) Nowhere
      fun text => text.head? = some '(' := by
  refine .after (.mark _) (fun _ => .afterInside Formed.field.many fun fields =>
    .afterInside (.close _) fun _ => (stricter_checkIds .function fields).bindSame fun _ => .pure _)
    ?_
  exact fun read _ => starts_mark ((agrees_mark rfl).always.mp read)

private theorem stricter_throwsClause :
    Stricter IsDuplicate (Parser.throwsClause .reject) (Parser.throwsClause .keep) Nowhere
      ThrowsAhead := by
  refine .after (.keyword _) (fun _ => stricter_fieldList) ?_
  intro before _ after read opens
  obtain ⟨leads, rfl⟩ := keyword_iff.mp ((agrees_keyword (by decide)).always.mp read)
  exact ⟨leads, opens⟩

/-- After a repeated number among the exceptions a function leaves their list, and after one among
the arguments it is not read at all. -/
theorem stricter_function :
    Stricter IsDuplicate (Parser.function .reject) (Parser.function .keep) ThrowsAhead
      StartsFunction := by
  have named : Stricter IsDuplicate Parser.name Parser.name Nowhere
      fun text => text.head?.any isIdentStart := .refl .name
  refine .drainHead fun head => .after (.attempt (.keyword _)) (fun oneway =>
    .after .typeRef (fun returns => named.bind (fun name => stricter_fieldList.inside.bind
      (fun arguments => stricter_throwsClause.bindAttempt (fun throws => quiet_ending _) ?_)
      fun _ _ => trivial) fun read _ => starts_name (agrees_name.always.mp read))
    startsFunction_of_reads_typeRef) startsFunction_of_reads_oneway
  intro before throws
  have plain : Stops isSeparator before.rest :=
    stops_isSeparator_of_head rfl rfl (isIdentStart_of_throwsAhead throws)
  exact ⟨_, _, reads_ending _ plain, throws⟩

private theorem stricter_functions :
    Stricter IsDuplicate (Parser.many (Parser.function .reject))
      (Parser.many (Parser.function .keep)) Unclosed Nowhere := by
  refine stricter_function.many (fun {before} sound throws => ?_)
    (fun _ throws => unclosed_of_isIdentStart (isIdentStart_of_throwsAhead throws))
    fun _ starts => unclosed_of_isIdentStart starts.1
  have missed : reads (Parser.function .reject) before.view = none :=
    missed_function_of_throwsAhead throws
  cases result : Parser.function .reject before with
  | ok value after =>
      rw [((Formed.function .reject).reads_of_ok sound result).1] at missed
      cases missed
  | error miss after =>
      have clean := ((candid_function .reject).error sound result).resolve_right
        fun starts => starts.2 throws
      exact ⟨miss, after, rfl, clean.records⟩

/-! ## Declarations -/

private theorem stricter_recordForm (kind : RecordKind) :
    Stricter IsDuplicate (Parser.recordForm .reject kind) (Parser.recordForm .keep kind) Nowhere
      (leadingWord · = kind.keyword.toList) := by
  refine .drainHead fun head => .after (.blockHeader _) (fun header =>
    .afterInside Formed.field.many fun fields => .afterInside (.close _) fun _ =>
      (stricter_checkIds _ fields).bindSame fun _ => (quiet_ending _).formed) ?_
  intro before header after read _
  obtain ⟨_, _, keyed, -⟩ := (agrees_blockHeader (isIdentifier_keyword kind)).always.mp read
  exact (keyword_iff.mp keyed).1

private theorem stricter_serviceForm :
    Stricter IsDuplicate (Parser.serviceForm .reject) (Parser.serviceForm .keep) Nowhere
      (leadingWord · = "service".toList) := by
  refine .drainHead fun head => .after (.keyword _) (fun _ => .afterInside .name fun name =>
    .afterInside (.attempt .parentClause) fun parent => .afterInside (.mark _) fun _ =>
    .afterInside .drainTail fun headerTail => stricter_functions.bindStuck
      (fun functions => (quiet_close _).bind fun _ => quiet_ending _) ?_) ?_
  · intro functions before unclosed
    exact missed_close rfl (fun _ => (quiet_ending _).formed) unclosed.2
  · intro before _ after read _
    exact (keyword_iff.mp ((agrees_keyword (by decide)).always.mp read)).1

/-- **Declarations.** As long as nothing is rejected where repeated numbers are kept, a declaration
is read in the same way where they are rejected, or nothing but repeated numbers is rejected and it
is not read. -/
theorem stricter_declaration :
    Stricter IsDuplicate (Parser.declaration .reject) (Parser.declaration .keep) Nowhere
      Everywhere := by
  let table := (declarationTable .reject).zip (declarationTable .keep)
  have each : ∀ entry ∈ table, Stricter IsDuplicate entry.1.2.1 entry.2.2.1 Nowhere
      (leadingWord · = entry.1.1.toList) := by
    simp only [table, declarationTable, declarationWords, Parser.declarationForms,
      declarationForms, List.zip_cons_cons, List.zip_nil_left, List.forall_mem_cons,
      List.not_mem_nil, false_implies, implies_true, and_true]
    exact ⟨.refl .namespaceForm, .refl .includeForm, .refl .typedefForm, .refl .constantForm,
      .refl .enumerationForm, stricter_recordForm .struct, stricter_recordForm .union,
      stricter_recordForm .exception, stricter_serviceForm⟩
  have inside : ∀ entry ∈ table, entry.1 ∈ declarationTable .reject :=
    fun entry member => (List.of_mem_zip member).1
  have words : (table.map (·.1.1)).Nodup := nodup_declarationWords
  have words : (table.map (·.1.1.toList)).Nodup :=
    List.pairwise_map.mpr ((List.pairwise_map.mp words).imp fun differs same =>
      differs (String.toList_inj.mp same))
  have chosen : Stricter IsDuplicate (Parser.choice .declaration (table.map (·.1.2.1)))
      (Parser.choice .declaration (table.map (·.2.2.1))) Nowhere
      fun text => ∃ entry ∈ table, leadingWord text = entry.1.1.toList :=
    Stricter.choice_of_keys leadingWord _ _ _ .declaration each
      (fun entry member => candid_declarationTable .reject entry.1 (inside entry member))
      (fun entry member => missed_declarationTable .reject entry.1 (inside entry member)) words
  exact chosen.inside

end Grammar
end ThriftIdl
