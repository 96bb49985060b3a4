import ThriftIdl.Proofs.Grammar.Declaration

/-!
# Phrases in other surroundings

A phrase looks no further than to the end of the gap after it, so it stays a phrase when the text
from there on gives way to another one. The new text must end the line that it is put on, for a name
or a line comment would go on otherwise, and it must not begin with a separator. What the new text
begins with in comments is then waiting for the next item. Main statements: `Local.bind`,
`Lexeme.local_phrase` and `local_declaration`.
-/

namespace ThriftIdl

open Source (Stops EndsLine opensGap gap gapChars gapComments firstLine laterLines)
open ThriftIdl.Parser (View isSeparator)

namespace Grammar

open Phrase

variable {Value First Second : Type} {old new : List Char}

/-- A text that may come after any phrase. -/
structure Handover (text : List Char) : Prop where
  ends : EndsLine text
  separates : Stops isSeparator (View.ofText text).skip.rest

/-- The view in which the last part of a text has given way to another text. A view of that part
alone becomes one past the gap that the new text begins with. -/
inductive Rebased (old new : List Char) (view : View) : View → Prop
  | within {front : List Char} : front ≠ [] → view.rest = front ++ old →
      Rebased old new view { view with rest := front ++ new }
  | past : view.rest = old → Rebased old new view { view with rest := new }.skip

/-- A view that ends with a text and stands right before it or else before no gap. -/
structure Settled (old : List Char) (view : View) : Prop where
  ends : old <:+ view.rest
  stands : view.rest = old ∨ Stops opensGap view.rest

/-- Phrases of a kind stay phrases when the text after them is replaced. -/
def Local (old new : List Char) (phrase : Phrase Value) : Prop :=
  ∀ ⦃before value after⦄, phrase before value after → Settled old after →
    Settled old before ∧ ∀ ⦃moved⦄, Rebased old new before moved →
      ∃ reached, Rebased old new after reached ∧ phrase moved value reached

/-! ## Gaps -/

/-- Going on past a gap and then past the gap of a text put in its place is going on past both. -/
theorem skip_skip {front : List Char} {head tail : List String}
    (whole : gapChars (gap (front ++ old)) = front) (ends : EndsLine new) :
    View.skip ⟨front ++ new, head, tail⟩ =
      { View.skip ⟨front ++ old, head, tail⟩ with rest := new }.skip := by
  have pieces := Source.gap_append_of_gapChars_eq whole fun _ => ends
  simp only [View.skip, pieces, Source.firstLine_append _ ends, Source.laterLines_append _ ends,
    Source.firstLine_gap ends, Source.laterLines_gap ends, Source.gapChars_append, whole,
    gapComments, List.filterMap_append, List.append_assoc, View.mk.injEq, List.filterMap_nil,
    List.append_nil, and_true]
  rw [List.length_append, ← List.drop_drop, List.drop_left]

/-- The gap before a text that gives way to another stays, with its comments. -/
theorem rebased_skip {front : List Char} {head tail : List String} (ends : EndsLine new)
    (settled : Settled old (View.skip ⟨front ++ old, head, tail⟩)) :
    Rebased old new (View.skip ⟨front ++ old, head, tail⟩)
      (View.skip ⟨front ++ new, head, tail⟩) := by
  have split := Source.gap_append (front ++ old)
  obtain ⟨kept, same⟩ := settled.ends
  have rest : (View.skip ⟨front ++ old, head, tail⟩).rest =
    (front ++ old).drop (gapChars (gap (front ++ old))).length := rfl
  rw [← rest, ← same, ← List.append_assoc] at split
  have front_eq := List.append_cancel_right split
  -- The gap either reaches the old text, or it ends before and what is left begins with no gap.
  by_cases none : kept = []
  · subst none
    rw [List.append_nil] at front_eq
    rw [skip_skip front_eq ends]
    exact .past same.symm
  · have stops : Stops opensGap (kept ++ old) := by
      rw [same]
      refine settled.stands.resolve_left fun alone => none ?_
      rw [alone] at same
      simpa using same
    have begins : ∀ {test : Char → Bool}, Stops test (kept ++ old) → Stops test (kept ++ new) := by
      intro test stops
      obtain ⟨first, others, rfl⟩ := List.exists_cons_of_ne_nil none
      exact stops
    have whole : gapChars (gap (gapChars (gap (front ++ old)) ++ (kept ++ old))) =
        gapChars (gap (front ++ old)) := by
      rw [← List.append_assoc, front_eq]
    have pieces : gap (gapChars (gap (front ++ old)) ++ (kept ++ new)) =
        gap (gapChars (gap (front ++ old)) ++ (kept ++ old)) ++ gap (kept ++ new) :=
      Source.gap_append_of_gapChars_eq whole begins
    rw [← List.append_assoc, ← List.append_assoc, front_eq, Source.gap_eq_nil (begins stops),
      List.append_nil] at pieces
    have drop_front : (front ++ new).drop (gapChars (gap (front ++ old))).length = kept ++ new := by
      conv => lhs; arg 2; rw [← front_eq]
      rw [List.append_assoc, List.drop_left]
    have moved : View.skip ⟨front ++ new, head, tail⟩ =
        { View.skip ⟨front ++ old, head, tail⟩ with rest := kept ++ new } := by
      simp only [View.skip, pieces, View.mk.injEq, and_self, and_true]
      exact drop_front
    rw [moved]
    exact .within none same.symm

/-! ## Closure -/

/-- Where a view stands depends on its text alone. -/
theorem Settled.same_rest {view other : View} (settled : Settled old view)
    (same : other.rest = view.rest) : Settled old other :=
  ⟨same ▸ settled.ends, same ▸ settled.stands⟩

/-- Where more than a text is left, the text may give way within the view only. -/
theorem Rebased.within_of_length {view moved : View} (rebased : Rebased old new view moved)
    (longer : old.length < view.rest.length) :
    ∃ front, front ≠ [] ∧ view.rest = front ++ old ∧
      moved = { view with rest := front ++ new } := by
  cases rebased with
  | within nonempty same => exact ⟨_, nonempty, same, rfl⟩
  | past same =>
      rw [same] at longer
      exact absurd longer (Nat.lt_irrefl _)

private theorem Settled.length_le {view : View} (settled : Settled old view) :
    old.length ≤ view.rest.length :=
  settled.ends.length_le

namespace Local

private theorem pure (value : Value) : Local old new (pure value) := by
  rintro before found after ⟨same, rfl⟩ settled
  exact ⟨settled, fun moved rebased => ⟨moved, rebased, same, rfl⟩⟩

private theorem bind {phrase : Phrase First} {next : First → Phrase Second}
    (first : Local old new phrase)
    (second : ∀ value, Local old new (next value)) : Local old new (phrase >>= next) := by
  rintro before value after ⟨found, middle, here, there⟩ settled
  obtain ⟨settledMiddle, later⟩ := second found there settled
  obtain ⟨settledBefore, earlier⟩ := first here settledMiddle
  refine ⟨settledBefore, fun moved rebased => ?_⟩
  obtain ⟨reached, rebasedMiddle, here'⟩ := earlier rebased
  obtain ⟨last, rebasedAfter, there'⟩ := later rebasedMiddle
  exact ⟨last, rebasedAfter, found, reached, here', there'⟩

private theorem map {phrase : Phrase First} {change : First → Second}
    (first : Local old new phrase) :
    Local old new (change <$> phrase) :=
  first.bind fun value => .pure (change value)

private theorem optional {phrase : Phrase Value} (inner : Local old new phrase) :
    Local old new phrase.optional := by
  intro before found after here settled
  cases found with
  | none =>
      cases here
      exact ⟨settled, fun moved rebased => ⟨moved, rebased, rfl⟩⟩
  | some value => exact inner here settled

private theorem only {phrase : Phrase Value} {test : Value → Prop} (inner : Local old new phrase) :
    Local old new (phrase.only test) := by
  rintro before value after ⟨here, passes⟩ settled
  obtain ⟨settledBefore, later⟩ := inner here settled
  refine ⟨settledBefore, fun moved rebased => ?_⟩
  obtain ⟨reached, rebasedAfter, here'⟩ := later rebased
  exact ⟨reached, rebasedAfter, here', passes⟩

private theorem oneOf {phrases : List (Phrase Value)}
    (each : ∀ phrase ∈ phrases, Local old new phrase) :
    Local old new (oneOf phrases) := by
  rintro before value after ⟨phrase, member, here⟩ settled
  obtain ⟨settledBefore, later⟩ := each phrase member here settled
  refine ⟨settledBefore, fun moved rebased => ?_⟩
  obtain ⟨reached, rebasedAfter, here'⟩ := later rebased
  exact ⟨reached, rebasedAfter, phrase, member, here'⟩

/-- Repetitions stay phrases if what they repeat does. -/
theorem repeated {phrase : Phrase Value} (inner : Local old new phrase) :
    Local old new (Repeated phrase) := by
  intro before values after repeated settled
  induction repeated with
  | done view => exact ⟨settled, fun moved rebased => ⟨moved, rebased, .done moved⟩⟩
  | next here _ ih =>
      obtain ⟨settledMiddle, later⟩ := ih settled
      obtain ⟨settledBefore, earlier⟩ := inner here settledMiddle
      refine ⟨settledBefore, fun moved rebased => ?_⟩
      obtain ⟨reached, rebasedMiddle, here'⟩ := earlier rebased
      obtain ⟨last, rebasedAfter, there'⟩ := later rebasedMiddle
      exact ⟨last, rebasedAfter, .next here' there'⟩

private theorem provided (condition : Prop) : Local old new (provided condition) := by
  rintro before value after ⟨holds, rfl⟩ settled
  exact ⟨settled, fun moved rebased => ⟨moved, rebased, holds, rfl⟩⟩

private theorem given (value? : Option Value) : Local old new (given value?) := by
  rintro before value after ⟨found, rfl⟩ settled
  exact ⟨settled, fun moved rebased => ⟨moved, rebased, found, rfl⟩⟩

/-- The comments after an item stay what they are, since the new text is not on their line. -/
theorem drainTail (ends : EndsLine new) : Local old new drainTail := by
  rintro before value after ⟨rfl, rfl⟩ settled
  refine ⟨settled.same_rest rfl, fun moved rebased => ?_⟩
  cases rebased with
  | within nonempty same => exact ⟨_, .within nonempty same, rfl, rfl⟩
  | past same =>
      refine ⟨_, .past same, ?_, ?_⟩ <;>
        simp [View.skip, Source.firstLine_gap ends, gapComments]

/-- A part that changes waiting comments only, before a part that takes characters: the text after
them gives way within what the second part takes. -/
theorem bind_advancing {phrase : Phrase First} {next : First → Phrase Second}
    (comments : ∀ {before value after}, phrase before value after → after.rest = before.rest ∧
      ∀ rest, phrase { before with rest } value { after with rest })
    (later : ∀ value, Local old new (next value)) (advances : (phrase >>= next).Advances) :
    Local old new (phrase >>= next) := by
  intro before value after whole settled
  have longer := settled.length_le.trans_lt (advances whole)
  obtain ⟨found, middle, here, there⟩ := whole
  obtain ⟨rest, elsewhere⟩ := comments here
  obtain ⟨settledMiddle, later⟩ := later found there settled
  refine ⟨settledMiddle.same_rest rest.symm, fun moved rebased => ?_⟩
  obtain ⟨front, nonempty, same, rfl⟩ := rebased.within_of_length longer
  obtain ⟨reached, rebasedAfter, there'⟩ := later (.within nonempty (rest.trans same))
  exact ⟨reached, rebasedAfter, found, _, elsewhere _, there'⟩

private theorem drainHead {next : Option String → Phrase Value}
    (later : ∀ head, Local old new (next head)) (advances : (Phrase.drainHead >>= next).Advances) :
    Local old new (Phrase.drainHead >>= next) := by
  refine bind_advancing ?_ later advances
  rintro before value after ⟨rfl, rfl⟩
  exact ⟨rfl, fun _ => ⟨rfl, rfl⟩⟩

private theorem discardHead {next : Unit → Phrase Value}
    (later : ∀ value, Local old new (next value))
    (advances : (Phrase.discardHead >>= next).Advances) :
    Local old new (Phrase.discardHead >>= next) := by
  refine bind_advancing ?_ later advances
  rintro before value after rfl
  exact ⟨rfl, fun _ => rfl⟩

/-- A kind of phrases that is put together from levels. -/
theorem of_levels {level : Nat → Phrase Value} (each : ∀ depth, Local old new (level depth)) :
    Local old new fun before value after => ∃ depth, level depth before value after := by
  rintro before value after ⟨depth, here⟩ settled
  obtain ⟨settledBefore, later⟩ := each depth here settled
  refine ⟨settledBefore, fun moved rebased => ?_⟩
  obtain ⟨reached, rebasedAfter, here'⟩ := later rebased
  exact ⟨reached, rebasedAfter, depth, here'⟩

end Local

/-! ## Tokens -/

private theorem Lexeme.local_phrase (lexeme : Lexeme Value) (ends : EndsLine new) :
    Local old new lexeme.phrase := by
  rintro ⟨text, head, tail⟩ value after ⟨chars, more, rest, spells, ended, rfl⟩ settled
  obtain rfl : text = chars ++ more := rest
  obtain ⟨first, others, rfl, plain⟩ := lexeme.opens spells
  obtain ⟨front, rfl⟩ : old <:+ more := settled.ends.trans (List.drop_suffix _ _)
  refine ⟨⟨⟨_, by rw [List.append_assoc]⟩, .inr (Source.stops_cons.mpr plain)⟩, ?_⟩
  intro moved rebased
  have longer : old.length < (first :: others ++ (front ++ old)).length := by
    simp only [List.length_append, List.length_cons]
    omega
  obtain ⟨whole, nonempty, same, rfl⟩ := rebased.within_of_length longer
  obtain rfl : first :: others ++ front = whole :=
    List.append_cancel_right (by rw [List.append_assoc]; exact same)
  exact ⟨_, rebased_skip ends settled, first :: others, front ++ new, List.append_assoc _ _ _,
    spells, lexeme.settles ended ends, rfl⟩

private theorem local_separator (handover : Handover new) : Local old new separator := by
  rintro before value after (here | ⟨stops, rfl⟩) settled
  · obtain ⟨settledBefore, later⟩ := Lexeme.separator.local_phrase handover.ends here settled
    refine ⟨settledBefore, fun moved rebased => ?_⟩
    obtain ⟨reached, rebasedAfter, here'⟩ := later rebased
    exact ⟨reached, rebasedAfter, .inl here'⟩
  · refine ⟨settled, fun moved rebased => ⟨moved, rebased, .inr ⟨?_, rfl⟩⟩⟩
    cases rebased with
    | within nonempty same =>
        obtain ⟨first, others, rfl⟩ := List.exists_cons_of_ne_nil nonempty
        rw [same] at stops
        exact stops
    | past same => exact handover.separates

private theorem local_close {char : Char} {plain : opensGap char = false} (ends : EndsLine new) :
    Local old new (close char plain) :=
  .discardHead (fun _ => Lexeme.local_phrase _ ends) advances_close

/-! ## Types and literals -/

section Nested

variable (handover : Handover new)

include handover

private theorem local_typeWithin (depth : Nat) : Local old new (typeWithin depth) := by
  have token {Value : Type} (lexeme : Lexeme Value) : Local old new lexeme.phrase :=
    lexeme.local_phrase handover.ends
  induction depth with
  | zero => exact fun _ _ _ here => here.elim
  | succ depth ih =>
      refine .oneOf (forall_typeForms ?map ?sequence (token _).map)
      case map =>
        exact (token _).bind fun _ => (token _).bind fun _ => ih.bind fun _ =>
          (local_separator handover).bind fun _ => ih.bind fun _ => (token _).bind fun _ => .pure _
      case sequence =>
        exact (token _).bind fun _ => (token _).bind fun _ => ih.bind fun _ =>
          (token _).bind fun _ => .pure _

private theorem local_type : Local old new type :=
  .of_levels (local_typeWithin handover)

private theorem local_literalWithin (depth : Nat) : Local old new (literalWithin depth) := by
  have token {Value : Type} (lexeme : Lexeme Value) : Local old new lexeme.phrase :=
    lexeme.local_phrase handover.ends
  induction depth with
  | zero => exact fun _ _ _ here => here.elim
  | succ depth ih =>
      have separated : Local old new separator := local_separator handover
      have item : Local old new (listItem (literalWithin depth)) :=
        ih.bind fun _ => separated.bind fun _ => .pure _
      have entry : Local old new (mapEntry (literalWithin depth)) :=
        ih.bind fun _ => (token _).bind fun _ => ih.bind fun _ => separated.bind fun _ => .pure _
      refine .oneOf (forall_literalForms (token _).map (token _).map (token _) (token _) (token _)
        ?list ?map (token _).only.map)
      case list =>
        exact (token _).bind fun _ => item.repeated.bind fun _ =>
          (local_close handover.ends).bind fun _ => .pure _
      case map =>
        exact (token _).bind fun _ => entry.repeated.bind fun _ =>
          (local_close handover.ends).bind fun _ => .pure _

private theorem local_literal : Local old new literal :=
  .of_levels (local_literalWithin handover)

/-! ## Items -/

private theorem local_initializer : Local old new initializer :=
  (Lexeme.local_phrase _ handover.ends).bind fun _ => local_literal handover

/-- The separator and the comments with which an item or a declaration ends. -/
theorem local_ending (make : Option String → Value) :
    Local old new (do
      separator
      let tail ← drainTail
      return make tail) :=
  (local_separator handover).bind fun _ => (Local.drainTail handover.ends).bind fun _ => .pure _

private theorem local_enumItem : Local old new enumItem :=
  .drainHead (fun _ => (Lexeme.local_phrase _ handover.ends).bind fun _ =>
    (local_initializer handover).optional.bind fun _ => (Local.given _).bind fun _ =>
    local_ending handover _) advances_enumItem

private theorem local_integer : Local old new integer := by
  refine .oneOf ?_
  simp only [List.forall_mem_cons, List.not_mem_nil, false_implies, implies_true, and_true]
  refine ⟨Lexeme.local_phrase _ handover.ends, fun before value after here settled => ?_⟩
  exact Lexeme.local_phrase Lexeme.decimal handover.ends here settled

private theorem local_typeAfter {Value : Type} (table : List (String × Value))
    (found : Option Value) :
    Local old new (typeAfter table found) :=
  (local_type handover).only

private theorem local_field : Local old new field := by
  have token {Value : Type} (lexeme : Lexeme Value) : Local old new lexeme.phrase :=
    lexeme.local_phrase handover.ends
  have id : Local old new fieldId :=
    (local_integer handover).bind fun _ => (token _).bind fun _ => .pure _
  exact .drainHead (fun _ => id.optional.bind fun _ => (token _).optional.bind fun _ =>
    (local_typeAfter handover _ _).bind fun _ => (token _).bind fun _ =>
    (local_initializer handover).optional.bind fun _ => local_ending handover _) advances_field

private theorem local_fieldList (duplicates : DuplicateIds) :
    Local old new (fieldList duplicates) :=
  (Lexeme.local_phrase _ handover.ends).bind fun _ => (local_field handover).repeated.bind fun _ =>
    (local_close handover.ends).bind fun _ => (Local.provided _).bind fun _ => .pure _

private theorem local_function (duplicates : DuplicateIds) :
    Local old new (function duplicates) := by
  have token {Value : Type} (lexeme : Lexeme Value) : Local old new lexeme.phrase :=
    lexeme.local_phrase handover.ends
  have fields : Local old new (fieldList duplicates) := local_fieldList handover duplicates
  have throws : Local old new (throwsClause duplicates) := (token _).bind fun _ => fields
  exact .drainHead (fun _ => (token _).optional.bind fun _ => (local_typeAfter handover _ _).bind
    fun _ => (token _).bind fun _ => fields.bind fun _ => throws.optional.bind fun _ =>
    local_ending handover _) (advances_function duplicates)

/-! ## Declarations -/

private theorem local_blockHeader (word : String) (isWord : IsIdentifier word.toList) :
    Local old new (blockHeader word isWord) :=
  (Lexeme.local_phrase _ handover.ends).bind fun _ =>
    (Lexeme.local_phrase _ handover.ends).bind fun _ =>
    (Lexeme.local_phrase _ handover.ends).bind fun _ =>
    (Local.drainTail handover.ends).bind fun _ => .pure _

/-- **Declarations** stay what they are when the text after them is replaced. -/
theorem local_declaration (duplicates : DuplicateIds) : Local old new (declaration duplicates) := by
  have token {Value : Type} (lexeme : Lexeme Value) : Local old new lexeme.phrase :=
    lexeme.local_phrase handover.ends
  have ending (make : Option String → Declaration) : Local old new (do
      separator
      let tail ← drainTail
      return make tail) := local_ending handover make
  have close : Local old new (close '\x7d' plain_rightBrace) := local_close handover.ends
  refine .oneOf fun form among => ?_
  refine forall_declarationForms (motive := fun form => form.Advances → Local old new form)
    ?scope ?inclusion ?typedef ?constant ?enumeration (fun kind => ?record) ?service form among
    (advances_declarationForms duplicates form among)
  case scope =>
    exact .drainHead fun _ => (token _).bind fun _ => (token _).bind fun _ =>
      (token _).bind fun _ => ending _
  case inclusion =>
    exact .drainHead fun _ => (token _).bind fun _ => (token _).bind fun _ => ending _
  case typedef =>
    exact .drainHead fun _ => (token _).bind fun _ => (local_type handover).bind fun _ =>
      (token _).bind fun _ => ending _
  case constant =>
    exact .drainHead fun _ => (token _).bind fun _ => (local_type handover).bind fun _ =>
      (token _).bind fun _ => (token _).bind fun _ => (local_literal handover).bind fun _ =>
      ending _
  case enumeration =>
    exact .drainHead fun _ => (local_blockHeader handover _ _).bind fun _ =>
      (local_enumItem handover).repeated.bind fun _ => close.bind fun _ =>
      (local_separator handover).bind fun _ => (Local.given _).bind fun _ =>
      (Local.drainTail handover.ends).bind fun _ => .pure _
  case record =>
    exact .drainHead fun _ => (local_blockHeader handover _ _).bind fun _ =>
      (local_field handover).repeated.bind fun _ => close.bind fun _ =>
      (Local.provided _).bind fun _ => ending _
  case service =>
    exact .drainHead fun _ => (token _).bind fun _ => (token _).bind fun _ =>
      ((token _).bind fun _ => token _).optional.bind fun _ => (token _).bind fun _ =>
      (Local.drainTail handover.ends).bind fun _ => (local_function handover _).repeated.bind
      fun _ => close.bind fun _ => ending _

end Nested

end Grammar
end ThriftIdl
