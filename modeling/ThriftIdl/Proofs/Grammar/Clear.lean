import ThriftIdl.Proofs.Grammar.Declaration

/-!
# Where phrases end

A token takes the gap after it along, so what comes after a declaration begins with no gap
(`clears_declaration`).
-/

namespace ThriftIdl

open ThriftIdl.Source (gap)
open ThriftIdl.Parser (View)

namespace Grammar

open Phrase

variable {Value First Second : Type}

/-- Phrases of a kind leave no gap behind them. -/
def Clears (phrase : Phrase Value) : Prop :=
  ∀ ⦃before value after⦄, phrase before value after → gap after.rest = []

/-- Phrases of a kind that begin where no gap is leave none behind them. -/
def StaysClear (phrase : Phrase Value) : Prop :=
  ∀ ⦃before value after⦄, gap before.rest = [] → phrase before value after → gap after.rest = []

namespace StaysClear

private theorem pure (value : Value) : StaysClear (pure value) := by
  rintro before found after clear ⟨-, rfl⟩
  exact clear

private theorem provided (condition : Prop) : StaysClear (provided condition) := by
  rintro before value after clear ⟨-, rfl⟩
  exact clear

private theorem given (value? : Option Value) : StaysClear (given value?) := by
  rintro before value after clear ⟨-, rfl⟩
  exact clear

private theorem drainTail : StaysClear drainTail := by
  rintro before value after clear ⟨-, rfl⟩
  exact clear

private theorem bind {phrase : Phrase First} {next : First → Phrase Second}
    (first : StaysClear phrase)
    (second : ∀ value, StaysClear (next value)) : StaysClear (phrase >>= next) := by
  rintro before value after clear ⟨found, middle, here, there⟩
  exact second found (first clear here) there

end StaysClear

namespace Clears

private theorem bind {phrase : Phrase First} {next : First → Phrase Second}
    (second : ∀ value, Clears (next value)) : Clears (phrase >>= next) := by
  rintro before value after ⟨found, middle, -, there⟩
  exact second found there

private theorem before {phrase : Phrase First} {next : First → Phrase Second}
    (first : Clears phrase)
    (second : ∀ value, StaysClear (next value)) : Clears (phrase >>= next) := by
  rintro before value after ⟨found, middle, here, there⟩
  exact second found (first here) there

private theorem map {phrase : Phrase First} {change : First → Second} (clears : Clears phrase) :
    Clears (change <$> phrase) :=
  clears.before fun value => .pure (change value)

private theorem only {phrase : Phrase Value} {test : Value → Prop} (clears : Clears phrase) :
    Clears (phrase.only test) :=
  fun _ _ _ here => clears here.1

private theorem oneOf {phrases : List (Phrase Value)} (each : ∀ phrase ∈ phrases, Clears phrase) :
    Clears (oneOf phrases) := by
  rintro before value after ⟨phrase, member, here⟩
  exact each phrase member here

end Clears

private theorem Lexeme.clears_phrase (lexeme : Lexeme Value) : Clears lexeme.phrase := by
  rintro before value after ⟨chars, more, rest, spells, ended, rfl⟩
  exact Source.gap_drop_gapChars more

private theorem staysClear_separator : StaysClear separator := by
  rintro before value after clear (here | ⟨-, rfl⟩)
  · exact Lexeme.clears_phrase _ here
  · exact clear

private theorem staysClear_ending (make : Option String → Value) :
    StaysClear (do
      separator
      let tail ← drainTail
      return make tail) :=
  staysClear_separator.bind fun _ => StaysClear.drainTail.bind fun _ => .pure _

private theorem clears_close (char : Char) (plain : Source.opensGap char = false) :
    Clears (close char plain) :=
  .bind fun _ => Lexeme.clears_phrase _

private theorem clears_literal : Clears literal := by
  rintro before value after ⟨depth, here⟩
  cases depth with
  | zero => exact here.elim
  | succ depth =>
      have token {Value : Type} (lexeme : Lexeme Value) := lexeme.clears_phrase
      refine Clears.oneOf (forall_literalForms (token _).map (token _).map (token _) (token _)
        (token _) ?_ ?_ (token _).only.map) here
      all_goals exact .bind fun _ => .bind fun _ => (clears_close _ _).before fun _ => .pure _

/-- No gap stands after a declaration. -/
theorem clears_declaration (duplicates : DuplicateIds) : Clears (declaration duplicates) := by
  have token {Value : Type} (lexeme : Lexeme Value) := lexeme.clears_phrase
  have ending (make : Option String → Declaration) := staysClear_ending make
  have record (kind : RecordKind) : Clears (recordForm duplicates kind) :=
    .bind fun _ => .bind fun _ => .bind fun _ => (clears_close _ _).before fun _ =>
      (StaysClear.provided _).bind fun _ => ending _
  refine .oneOf (forall_declarationForms ?scope ?inclusion ?typedef ?constant ?enumeration record
    ?service)
  case scope | typedef =>
    exact .bind fun _ => .bind fun _ => .bind fun _ => (token _).before fun _ => ending _
  case inclusion =>
    exact .bind fun _ => .bind fun _ => (token _).before fun _ => ending _
  case constant =>
    exact .bind fun _ => .bind fun _ => .bind fun _ => .bind fun _ => .bind fun _ =>
      clears_literal.before fun _ => ending _
  case enumeration =>
    exact .bind fun _ => .bind fun _ => .bind fun _ => (clears_close _ _).before fun _ =>
      staysClear_separator.bind fun _ => (StaysClear.given _).bind fun _ =>
      StaysClear.drainTail.bind fun _ => .pure _
  case service =>
    exact .bind fun _ => .bind fun _ => .bind fun _ => .bind fun _ => .bind fun _ => .bind fun _ =>
      .bind fun _ => (clears_close _ _).before fun _ => ending _

end Grammar
end ThriftIdl
