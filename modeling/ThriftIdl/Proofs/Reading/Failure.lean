import ThriftIdl.Proofs.Grammar.Clear
import ThriftIdl.Proofs.Grammar.Local
import ThriftIdl.Proofs.Reading.Joining

/-!
# Where a reading fails

A reading fails at the beginning of the first declaration that cannot be read. What lies before it
is a text with a document, and what lies from there on fails in the same way on its own. Main
statement: `parse_failure`.
-/

namespace ThriftIdl

open ThriftIdl.Source (Stops gap Input Cursor)

/-! ## Misses further on -/

namespace Miss

variable (shift : Nat)

private theorem outranks_moved (miss other : Miss) :
    (miss.moved shift).outranks (other.moved shift) = miss.outranks other := by
  unfold outranks moved
  simp only
  split <;> simp

private theorem best?_moved (misses : List Miss) :
    best? (misses.map (moved shift)) = (best? misses).map (moved shift) := by
  induction misses with
  | nil => rfl
  | cons miss earlier ih =>
      unfold best? at ih ⊢
      rw [List.map_cons, List.foldr_cons, List.foldr_cons, ih]
      generalize List.foldr (fun miss earlier => some (miss.better earlier)) none earlier = best
      cases best with
      | none => rfl
      | some other =>
          simp only [Option.map_some, better, outranks_moved]
          split <;> rfl

private theorem reported_moved (misses : List Miss) (last : Miss) :
    reported (misses.map (moved shift)) (last.moved shift) =
      (reported misses last).moved shift := by
  rw [reported, reported, best?_moved]
  cases best? misses with
  | none => rfl
  | some best =>
      simp only [Option.map_some, outranks_moved]
      split <;> rfl

end Miss

namespace Parser

open ThriftIdl.Grammar (Rebased Settled Handover)

variable {options : Options}

/-- Where declarations have been read, no gap comes next. -/
theorem Declares.gap_eq_nil {source : String} {last : State} {declared : List (Nat × Declaration)}
    (declares : Declares options (openingState source) declared last) :
    gap last.view.rest = [] := by
  have clear : gap (openingState source).view.rest = [] := by
    rw [view_openingState]
    exact View.gap_opening _
  have sound := sound_openingState source
  generalize openingState source = before at declares clear sound
  induction declares with
  | done => exact clear
  | next _ matched _ ih =>
      obtain ⟨here, soundBetween, -⟩ := declaration_of_ok sound matched
      exact ih (Grammar.clears_declaration _ here) soundBetween

/-- Without a mark and a gap at its start, a text is read from its first character on. -/
theorem input_openingState_of_clear {source : String} (noMark : source.toList.head? ≠ some '\ufeff')
    (clear : gap source.toList = []) : (openingState source).input = Input.ofString source := by
  have none : (State.ofString source).input.peek ≠ some '\ufeff' := noMark
  have clear : gap (State.ofString source).input.rest = [] := clear
  unfold openingState skipByteOrderMark
  rw [if_neg none]
  simp only [State.skipLeading, clear]
  rfl

/-- A declaration that cannot be read is missed without a move. -/
theorem input_of_declaration_error {duplicates : DuplicateIds} {before failed : State} {miss : Miss}
    (missed : declaration duplicates before = .error miss failed) :
    failed.input = before.input := by
  have restored : failed = before.keeping failed.misses :=
    choice_error (growing_declarationForms duplicates) missed
  rw [restored]
  rfl

/-- A reading ends at a declaration that is missed. -/
theorem declarations_of_error {state failed : State} {miss : Miss}
    (unread : state.input.atEnd = false)
    (missed : declaration options.duplicates (state.keeping []) = .error miss failed) :
    declarations options state = ⟨[], some (failed.syntaxError options.contextWidth miss)⟩ := by
  have missed : declaration options.duplicates { state with misses := [] } = .error miss failed :=
    missed
  rw [declarations.eq_def, if_neg (by simp [unread]), missed]

/-- The place reached in a source text splits it in two. -/
theorem Declares.split {source : String} {last : State} {declared : List (Nat × Declaration)}
    (declares : Declares options (openingState source) declared last) :
    ∃ before, source.toList = before ++ last.input.rest ∧
      last.input.cursor = Cursor.start.pass before := by
  obtain ⟨first, opened⟩ := input_openingState source
  obtain ⟨second, moved⟩ := declares.input
  rw [opened, Input.advance_advance] at moved
  refine ⟨source.toList.take (first + second), ?_, ?_⟩
  · rw [moved]
    exact (List.take_append_drop _ _).symm
  · rw [moved]
    rfl

/-- **What lies before the place reached** is a text whose document has the declarations read. -/
theorem Declares.parse_before {source : String} {last : State} {before : List Char}
    {declared : List (Nat × Declaration)}
    (declares : Declares options (openingState source) declared last)
    (split : source.toList = before ++ last.input.rest) :
    Document.parse (String.ofList before) options =
      .ok (Document.ofList (declared.map Prod.snd)) := by
  have repeated := declares.repeated (sound_openingState source)
  rw [view_openingState] at repeated
  have handover : Handover [] := ⟨rfl, by
    rw [View.skip_of_stops (Source.stops_nil)]
    rfl⟩
  have settled : Settled last.input.rest last.view := ⟨List.suffix_rfl, .inl rfl⟩
  obtain ⟨settledStart, later⟩ :=
    (Grammar.local_declaration handover options.duplicates).repeated repeated settled
  have unmarked : withoutMark source.toList = withoutMark before ++ last.input.rest := by
    rw [split]
    refine withoutMark_append _ (Classical.or_iff_not_imp_left.mpr fun none mark => ?_)
    -- The mark that the text begins with is not left over where nothing has been read.
    obtain rfl : before = [] := by simpa using none
    obtain ⟨others, rest⟩ := List.head?_eq_some_iff.mp mark
    have unread := settledStart.ends.length_le.trans (List.drop_suffix _ _).length_le
    rw [split, rest] at unread
    simp only [List.nil_append, withoutMark, List.head?_cons, if_true, List.drop_succ_cons,
      List.drop_zero, View.ofText, List.length_cons] at unread
    omega
  rw [unmarked] at settledStart later
  obtain ⟨reached, rebased, front⟩ := later (View.rebased_opening handover.ends settledStart)
  refine parse_eq_ok_iff.mpr ⟨_, reached, ?_, ?_, rfl⟩
  · rwa [List.append_nil, ← String.toList_ofList (l := before)] at front
  · cases rebased with
    | within nonempty same =>
        have none := List.append_left_eq_self.mp same.symm
        exact absurd none nonempty
    | past same =>
        rw [View.skip_of_stops (Source.stops_nil)]

/-- **What lies from the place of a failure on** fails on its own, with the same message about the
same text. -/
theorem Declares.parse_after {source : String} {last failed : State} {miss : Miss}
    {declared : List (Nat × Declaration)}
    (declares : Declares options (openingState source) declared last)
    (unread : last.input.atEnd = false)
    (missed : declaration options.duplicates (last.keeping []) = .error miss failed)
    (noMark : last.input.rest.head? ≠ some '\ufeff') :
    ∃ error, Document.parse (String.ofList last.input.rest) options = .error error ∧
      error.message = (failed.syntaxError options.contextWidth miss).message ∧
      error.context = (failed.syntaxError options.contextWidth miss).context := by
  let alone := openingState (String.ofList last.input.rest)
  have text : withoutMark (String.ofList last.input.rest).toList = last.input.rest := by
    rw [String.toList_ofList]
    exact if_neg noMark
  have view : alone.view = View.ofText last.input.rest := by
    rw [view_openingState, text]
    exact View.opening_of_gap_eq_nil declares.gap_eq_nil
  have input : alone.input = Input.ofString (String.ofList last.input.rest) :=
    input_openingState_of_clear (by rwa [String.toList_ofList])
      (by rw [String.toList_ofList]; exact declares.gap_eq_nil)
  -- The two readings differ by the offset of the place and by the comments before it.
  have aligned : Aligned last.input.cursor.offset [] [] (last.keeping []) (alone.keeping []) :=
    ⟨(congrArg View.rest view).symm, declares.tail.trans (congrArg View.tail view).symm,
      (declares.sound (sound_openingState _)).keeping _, (sound_openingState _).keeping _,
      by rw [State.keeping, State.keeping, input]; exact (Nat.zero_add _).symm, [], rfl, rfl⟩
  have unreadAlone : alone.input.atEnd = false := by
    rw [input, Input.ofString, String.toList_ofList]
    exact unread
  rcases declaration_aligned options.duplicates aligned with
    ⟨bare, next, _, matched, -, -⟩ | ⟨miss', missed', failed', missedHere, missedAlone, after⟩
  · rw [missed] at matched
    cases matched
  · rw [missed] at missedHere
    cases missedHere
    obtain ⟨kept, misses, misses'⟩ := after.misses
    rw [List.append_nil] at misses misses'
    have reading : Document.parse (String.ofList last.input.rest) options =
        (declarations options alone).document := rfl
    rw [reading, declarations_of_error unreadAlone missedAlone]
    refine ⟨_, rfl, ?_, ?_⟩
    · unfold State.syntaxError
      rw [misses, misses', Miss.reported_moved]
      rfl
    · exact congrArg (fun rest => String.ofList (rest.take options.contextWidth)) after.rest.symm

/-- **The place of an error.** A text that cannot be read splits in two. The first part has a
document, that of the declarations read so far. The second part is where the error lies: its
beginning is the context, the line breaks before it make the line, and, unless it begins with what
looks like a byte order mark, it fails on its own with the same message and the same context. -/
theorem parse_failure {source : String} {error : SyntaxError}
    (failed : Document.parse source options = .error error) :
    ∃ before after : String, source = before ++ after ∧
      error.context = String.ofList (after.toList.take options.contextWidth) ∧
      error.line = 1 + max (before.toList.count '\n') (before.toList.count '\r') ∧
      Document.parse before options =
        .ok (Document.ofList ((Reading.ofSource options source).declared.map Prod.snd)) ∧
      (after.toList.head? ≠ some '\ufeff' → ∃ error',
        Document.parse after options = .error error' ∧ error'.message = error.message ∧
        error'.context = error.context) := by
  obtain ⟨last, miss, missed, declares, unread, result, rfl⟩ := declares_of_parse_error failed
  obtain ⟨before, split, cursor⟩ := declares.split
  have input : missed.input = last.input :=
    (input_of_declaration_error result : missed.input = (last.keeping []).input)
  refine ⟨String.ofList before, String.ofList last.input.rest, ?_, ?_, ?_,
    declares.parse_before split, fun noMark => ?_⟩
  · rw [← String.ofList_append, ← split, String.ofList_toList]
  · rw [String.toList_ofList, State.syntaxError, input]
    rfl
  · rw [String.toList_ofList, State.syntaxError, input, cursor, Cursor.start_pass, Cursor.line,
      Nat.add_comm]
  · rw [String.toList_ofList] at noMark
    exact declares.parse_after unread result noMark

/-- A structure without a name on the second line: the first line can be read, and the second fails
by itself. -/
theorem parse_failure_second_line :
    ∃ error before after, Document.parse "include 'a.thrift'\nstruct \x7b" = .error error ∧
      "include 'a.thrift'\nstruct \x7b" = before ++ after ∧ error.line = 2 ∧
      error.context = String.ofList (after.toList.take ({} : Options).contextWidth) ∧
      (∃ document, Document.parse before = .ok document) ∧
      (after.toList.head? ≠ some '\ufeff' →
        ∃ error', Document.parse after = .error error' ∧ error'.message = error.message) := by
  have unreadable : (Reading.ofSource {} "include 'a.thrift'\nstruct \x7b").failure.map
      SyntaxError.line = some 2 := by decide +kernel
  obtain ⟨error, failure, line⟩ := Option.map_eq_some_iff.mp unreadable
  have failed := parse_eq_error_iff.mpr failure
  obtain ⟨before, after, split, context, -, readable, alone⟩ := parse_failure failed
  refine ⟨error, before, after, failed, split, line, context, ⟨_, readable⟩, ?_⟩
  intro noMark
  obtain ⟨error', again, message, -⟩ := alone noMark
  exact ⟨error', again, message⟩

end Parser
end ThriftIdl
