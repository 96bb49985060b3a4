import ThriftIdl.Proofs.Grammar.Strictness
import ThriftIdl.Proofs.Reading.Failure
import ThriftIdl.Proofs.Reading.Rejection

/-!
# What the options of a reading do

Two readings of one text with different options are compared. Keeping repeated numbers of fields
reads every text that rejecting them reads, with the same document; where it reads more, the error
of the other reading is about a repeated number. The context width has no influence but on the
context of an error. Main statement: `options_two_runs`.
-/

namespace ThriftIdl

open ThriftIdl.Grammar (Agrees anything IsDuplicate)
open ThriftIdl.Grammar.Phrase (Repeated Advances)

namespace Grammar

variable {Value : Type}

/-- Of two sequences of phrases from one view on, one that comes to the end of the text goes on
where the other one stops. -/
theorem Phrase.Repeated.goes_on {rule : Parser.Rule Value} {phrase : Phrase Value}
    (agrees : Agrees rule phrase anything) (advances : Advances phrase)
    {before between last : Parser.View} {values all : List Value}
    (first : Repeated phrase before values between) (whole : Repeated phrase before all last)
    (ended : last.rest = []) : ∃ later, Repeated phrase between later last := by
  induction first generalizing all with
  | done => exact ⟨all, whole⟩
  | next here _ ih =>
      cases whole with
      | done =>
          have shorter := advances here
          simp [ended] at shorter
      | next there rest =>
          have same := (agrees.always.mpr here).symm.trans (agrees.always.mpr there)
          simp only [Option.some.injEq, Prod.mk.injEq] at same
          obtain ⟨rfl, rfl⟩ := same
          exact ih rest

end Grammar

namespace Parser

variable {options other : Options} {source : String}

/-! ## Keeping and rejecting repeated numbers -/

/-- What is read where repeated numbers are rejected is read where they are kept. -/
theorem parse_keep_of_parse {duplicates : DuplicateIds} {width width' : Nat} {document : Document}
    (parsed : Document.parse source { duplicates, contextWidth := width } = .ok document) :
    Document.parse source { duplicates := .keep, contextWidth := width' } = .ok document := by
  obtain ⟨declared, last, repeated, ended, same⟩ := parse_eq_ok_iff.mp parsed
  have entails := (Grammar.declaration_entails_keep duplicates
    ((View.opening (withoutMark source.toList)).rest.length + 1)).repeated
    (Grammar.advances_declaration duplicates).narrows
  exact parse_eq_ok_iff.mpr ⟨declared, last, entails (Nat.lt_succ_self _) repeated, ended, same⟩

private theorem duplicateId_text (id : Int64) (owner : FieldOwner) (name : String) :
    ∃ rest, (Rejection.duplicateId id owner name).text = "duplicate field id " ++ rest := by
  unfold Rejection.text
  simp only [String.append_assoc]
  exact ⟨_, rfl⟩

private theorem duplicateId_message {best : Miss} (rejected : best.reason.isRejection = true)
    (kind : ∀ why, best.reason = .rejected why → IsDuplicate why) :
    ∃ rest, best.message = "duplicate field id " ++ rest := by
  cases reason : best.reason with
  | expected what =>
      rw [reason] at rejected
      cases rejected
  | rejected why =>
      obtain ⟨id, owner, name, rfl⟩ := kind why reason
      obtain ⟨rest, text⟩ := duplicateId_text id owner name
      exact ⟨rest, by rw [Miss.message, reason]; exact text⟩

/-- A declaration that is read where repeated numbers are kept, and not where they are rejected, is
rejected for a repeated number. -/
theorem message_of_kept_declaration {state failed : State} {miss : Miss} {declared : Declaration}
    {view : View} (sound : state.Sound)
    (kept : Grammar.declaration .keep state.view declared view)
    (missed : declaration .reject (state.keeping []) = .error miss failed) (width : Nat) :
    ∃ rest, (failed.syntaxError width miss).message = "duplicate field id " ++ rest := by
  obtain ⟨after, matched, -, -⟩ := (Formed.declaration .keep).ok_of_reads (sound.keeping [])
    ((Grammar.agrees_declaration .keep).always.mpr kept)
  have clean : Clean (state.keeping []) after :=
    ((Grammar.candid_declaration .keep).ok (sound.keeping []) matched).resolve_right id
  rcases Grammar.stricter_declaration.run (sound.keeping []) (by rw [matched]; exact clean) with
    same | diverges
  · rw [missed, matched] at same
    cases same
  · obtain ⟨miss', failed', same, ⟨added, misses, each, rejected, member, rejection⟩, -⟩ :=
      diverges.of_nowhere
    rw [missed] at same
    obtain ⟨rfl, rfl⟩ := EStateM.Result.error.inj same
    have recorded : failed.misses = added := by simpa [State.keeping] using misses
    obtain ⟨best, inside, found, isRejection⟩ := Miss.best?_of_rejected member rejection
    have last := mem_misses_of_declaration_error missed
    rw [recorded] at last
    rw [State.syntaxError, recorded, Miss.reported_eq last found]
    exact duplicateId_message isRejection (each best inside)

/-- Where only rejecting fails, it fails for a repeated number. -/
theorem message_of_parse_keep {width width' : Nat} {document : Document} {error : SyntaxError}
    (parsed : Document.parse source { duplicates := .keep, contextWidth := width } = .ok document)
    (failed : Document.parse source { duplicates := .reject, contextWidth := width' } =
      .error error) : ∃ rest, error.message = "duplicate field id " ++ rest := by
  have sound := sound_openingState source
  obtain ⟨all, last, whole, ended, -⟩ := parse_eq_ok_iff.mp parsed
  obtain ⟨between, miss, missed, declares, unread, result, rfl⟩ := declares_of_parse_error failed
  have shorter := (Grammar.advances_declaration .reject).narrows
  have first := (Grammar.declaration_entails_keep .reject _).repeated shorter
    (Nat.lt_succ_self _) (declares.repeated sound)
  rw [view_openingState] at first
  obtain ⟨later, rest⟩ := first.goes_on (Grammar.agrees_declaration .keep)
    (Grammar.advances_declaration .keep) whole ended
  cases rest with
  | done =>
      rw [(atEnd_iff between).mpr ended] at unread
      cases unread
  | next here _ => exact message_of_kept_declaration (declares.sound sound) here result width'

/-! ## The width of the context -/

/-- Whether and how declarations are read does not depend on the width of the context. -/
theorem Declares.congr {before after : State} {declared : List (Nat × Declaration)}
    (declares : Declares options before declared after)
    (same : other.duplicates = options.duplicates) : Declares other before declared after := by
  induction declares with
  | done => exact .done _
  | next unread matched _ ih => exact .next unread (same ▸ matched) ih

/-- Readings that differ in the width of the context find the same document or fail at the same
place for the same reason. -/
theorem parse_width (duplicates : DuplicateIds) (width width' : Nat) :
    (∃ document,
      Document.parse source { duplicates, contextWidth := width } = .ok document ∧
      Document.parse source { duplicates, contextWidth := width' } = .ok document) ∨
    ∃ error error' before rest,
      Document.parse source { duplicates, contextWidth := width } = .error error ∧
      Document.parse source { duplicates, contextWidth := width' } = .error error' ∧
      error.message = error'.message ∧ error.line = error'.line ∧
      source.toList = before ++ rest ∧ error.context = String.ofList (rest.take width) ∧
      error'.context = String.ofList (rest.take width') := by
  cases parsed : Document.parse source { duplicates, contextWidth := width } with
  | ok document =>
      obtain ⟨declared, last, repeated, ended, same⟩ := parse_eq_ok_iff.mp parsed
      exact .inl ⟨document, rfl, parse_eq_ok_iff.mpr ⟨declared, last, repeated, ended, same⟩⟩
  | error error =>
      obtain ⟨last, miss, missed, declares, unread, result, rfl⟩ := declares_of_parse_error parsed
      obtain ⟨before, split, -⟩ := declares.split
      have same : (⟨duplicates, width'⟩ : Options).duplicates = duplicates := rfl
      have reached := (declares.congr same).topLevel .start
      have input : missed.input = last.input :=
        (input_of_declaration_error result : missed.input = (last.keeping []).input)
      refine .inr ⟨_, _, before, last.input.rest, rfl, reached.parse_eq_error unread result, rfl,
        rfl, split, ?_, ?_⟩
      · rw [← input]
        rfl
      · rw [← input]
        rfl

/-! ## Two readings of one text -/

/-- **Options do what they say and nothing else.** A text that can be read where repeated numbers
are rejected has the same document where they are kept. A text that can only be read where they are
kept fails with a message about a repeated number. And the width of the context has no influence but
on the context, which is the beginning of the same rest of the text. -/
theorem options_two_runs (source : String) (width width' : Nat) :
    (∀ document,
      Document.parse source { duplicates := .reject, contextWidth := width } = .ok document →
      Document.parse source { duplicates := .keep, contextWidth := width' } = .ok document) ∧
    (∀ document error,
      Document.parse source { duplicates := .keep, contextWidth := width } = .ok document →
      Document.parse source { duplicates := .reject, contextWidth := width' } = .error error →
      ∃ rest, error.message = "duplicate field id " ++ rest) ∧
    ∀ duplicates,
      (∃ document,
        Document.parse source { duplicates, contextWidth := width } = .ok document ∧
        Document.parse source { duplicates, contextWidth := width' } = .ok document) ∨
      ∃ error error' before rest,
        Document.parse source { duplicates, contextWidth := width } = .error error ∧
        Document.parse source { duplicates, contextWidth := width' } = .error error' ∧
        error.message = error'.message ∧ error.line = error'.line ∧
        source.toList = before ++ rest ∧ error.context = String.ofList (rest.take width) ∧
        error'.context = String.ofList (rest.take width') :=
  ⟨fun _ parsed => parse_keep_of_parse parsed,
    fun _ _ parsed failed => message_of_parse_keep parsed failed,
    fun duplicates => parse_width duplicates width width'⟩

/-- Two exceptions of a function with one number: where they are kept there is a document, and where
they are rejected the error is about the number. -/
theorem options_two_runs_exceptions :
    ∃ document error,
      Document.parse "service S { void f() throws (1: E a; 1: E b) }"
        { duplicates := .keep, contextWidth := 4 } = .ok document ∧
      Document.parse "service S { void f() throws (1: E a; 1: E b) }"
        { duplicates := .reject, contextWidth := 9 } = .error error ∧
      (∃ rest, error.message = "duplicate field id " ++ rest) ∧
      error.context = "service S" := by
  let source := "service S { void f() throws (1: E a; 1: E b) }"
  have kept : (Document.parse source { duplicates := .keep, contextWidth := 4 }).isOk = true := by
    decide +kernel
  have rejected : (Reading.ofSource { duplicates := .reject, contextWidth := 9 } source).failure.map
      SyntaxError.context = some "service S" := by decide +kernel
  obtain ⟨error, failure, context⟩ := Option.map_eq_some_iff.mp rejected
  have failed := parse_eq_error_iff.mpr failure
  cases parsed : Document.parse source { duplicates := .keep, contextWidth := 4 } with
  | error error => simp [parsed, Except.isOk, Except.toBool] at kept
  | ok document =>
      exact ⟨document, error, rfl, failed,
        (options_two_runs source 4 9).2.1 document error parsed failed, context⟩

end Parser
end ThriftIdl
