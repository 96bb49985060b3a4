import ThriftIdl.Proofs.Grammar.Scanning
import ThriftIdl.Proofs.Layout.Text
import ThriftIdl.Proofs.Rule.Rollback

/-!
# Passing a gap

A gap is any sequence of blanks, line breaks and comments in front of a text that begins with none
of them; an open block comment is not one. A text splits in this way in exactly one manner
(`gap_eq_iff`). Passing the gap stops where the sequence ends, and what is stored of its comments
goes to one queue up to the first line break outside a comment, and from there on to the other. The
two loops of a scanner, one for the rest of the line and one for the later lines, find the same
(`skip_gap`).
-/

namespace ThriftIdl

open Source (Stops EndsLine Input Piece gap gapChars gapComments firstLine laterLines isSpace
  isLineBreak throughCommentEnd?)

namespace Text

/-- A text that does not end in white space is what is left when the white space behind it is
removed. -/
theorem trimEnd_append {kept lost : List Char} (blank : ∀ char ∈ lost, isBlank char)
    (ends : Stops isBlank kept.reverse) : trimEnd (kept ++ lost) = kept := by
  have reversed : ∀ char ∈ lost.reverse, isBlank char := fun char member =>
    blank char (List.mem_reverse.mp member)
  rw [trimEnd, List.reverse_append, ends.dropWhile_append reversed, List.reverse_reverse]

private theorem stops_reverse_trimEnd (text : List Char) :
    Stops isBlank (trimEnd text).reverse := by
  rw [trimEnd, List.reverse_reverse]
  exact Source.stops_dropWhile isBlank text.reverse

end Text

namespace Layout

/-! ## Sequences of pieces -/

/-- A piece as it may be written, whatever stands around it. The text between `/*` and `*/` goes up
to the first comment end, and the two marks have no character in common. -/
inductive IsPiece : Piece → Prop
  | space {char : Char} : isSpace char → IsPiece (.space char)
  | lineBreak {char : Char} : isLineBreak char → IsPiece (.lineBreak char)
  | block {body : List Char} : IsInside body → IsPiece (.block ('/' :: '*' :: (body ++ ['*', '/'])))
  | line {mark body : List Char} : IsLineMark mark → (∀ char ∈ body, ¬isLineBreak char) →
      IsPiece (.line (mark ++ body))

/-- Pieces in front of a text. A line comment goes on to a line break or to the end of all. -/
inductive IsSequence (following : List Char) : List Piece → Prop
  | nil : IsSequence following []
  | cons {piece : Piece} {rest : List Piece} : IsPiece piece →
      (∀ text, piece = .line text → EndsLine (gapChars rest ++ following)) →
      IsSequence following rest → IsSequence following (piece :: rest)

/-- A text that begins with neither a blank, a line break nor a comment. -/
structure OpensNoGap (text : List Char) : Prop where
  space : Stops isSpace text
  lineBreak : Stops isLineBreak text
  line : ∀ mark, IsLineMark mark → ¬mark <+: text
  block : ∀ body, ¬('/' :: '*' :: (body ++ ['*', '/'])) <+: text

/-- A comment end is found where there is one. -/
theorem throughCommentEnd?_ne_none (body more : List Char) :
    throughCommentEnd? (body ++ ['*', '/'] ++ more) ≠ none := by
  induction body with
  | nil => simp [throughCommentEnd?]
  | cons char rest ih =>
      rw [List.cons_append, List.cons_append]
      unfold throughCommentEnd?
      split
      · simp
      · next same => simpa [← (List.cons.inj same).2] using ih
      · next same => cases same

/-- What is found goes up to the first comment end. -/
theorem exists_isInside_of_throughCommentEnd? {text found : List Char}
    (through : throughCommentEnd? text = some found) :
    ∃ body, found = body ++ ['*', '/'] ∧ IsInside body := by
  fun_induction throughCommentEnd? text generalizing found with
  | case1 rest =>
      refine ⟨[], (Option.some.inj through).symm, fun front back same => ?_⟩
      have lengths := congrArg List.length same
      simp only [List.nil_append, List.length_append, List.length_cons, List.length_nil] at lengths
      exact List.length_eq_zero_iff.mp (by omega)
  | case2 char rest noEnd ih =>
      obtain ⟨inner, innerFound, rfl⟩ := Option.map_eq_some_iff.mp through
      obtain ⟨body, rfl, inside⟩ := ih innerFound
      refine ⟨char :: body, rfl, fun front back same => ?_⟩
      cases front with
      | nil =>
          -- A comment end at the very beginning would have been found there.
          obtain ⟨rfl, begins⟩ := List.cons.inj same
          have begins : body ++ ['*', '/'] = '/' :: back := begins
          obtain ⟨more, split⟩ := Source.isPrefix_of_throughCommentEnd? innerFound
          rw [begins] at split
          exact absurd split.symm (noEnd _ rfl)
      | cons first others => exact inside others back (List.cons.inj same).2
  | case3 => cases through

/-- A piece that is found is one, and a line comment is found up to the end of its line. -/
theorem isPiece_of_next? {text : List Char} {piece : Piece}
    (found : Piece.next? text = some piece) :
    IsPiece piece ∧ ∀ body, piece = .line body → EndsLine (text.drop piece.chars.length) := by
  -- Both marks of line comments are followed by the same run.
  have line {mark rest : List Char} (isMark : IsLineMark mark) :
      let piece := Piece.line (mark ++ rest.takeWhile fun char => !isLineBreak char)
      IsPiece piece ∧ EndsLine ((mark ++ rest).drop piece.chars.length) := by
    refine ⟨.line isMark fun char member => by simpa using List.mem_takeWhile_imp member, ?_⟩
    have split : mark ++ rest = (mark ++ rest.takeWhile fun char => !isLineBreak char) ++
        rest.dropWhile fun char => !isLineBreak char := by
      rw [List.append_assoc, List.takeWhile_append_dropWhile]
    rw [Piece.chars, split, List.drop_left]
    exact Source.stops_dropWhile _ rest
  unfold Piece.next? at found
  split at found
  · cases found
  · obtain ⟨inner, through, rfl⟩ := Option.map_eq_some_iff.mp found
    obtain ⟨body, rfl, inside⟩ := exists_isInside_of_throughCommentEnd? through
    exact ⟨.block inside, by simp⟩
  · next rest =>
      cases found
      obtain ⟨isPiece, ends⟩ := @line ['/', '/'] rest (.inl rfl)
      refine ⟨isPiece, ?_⟩
      rintro body -
      exact ends
  · next char rest _ _ =>
      split at found
      · next space =>
          cases found
          exact ⟨.space space, by simp⟩
      · split at found
        · next breaks =>
            cases found
            exact ⟨.lineBreak breaks, by simp⟩
        · split at found
          · next sign =>
              cases found
              subst sign
              obtain ⟨isPiece, ends⟩ := @line ['#'] rest (.inr rfl)
              refine ⟨isPiece, ?_⟩
              rintro body -
              exact ends
          · cases found

/-- A piece is found before whatever follows it. -/
theorem next?_of_isPiece {piece : Piece} (isPiece : IsPiece piece) {more : List Char}
    (ends : ∀ text, piece = .line text → EndsLine more) :
    Piece.next? (piece.chars ++ more) = some piece := by
  cases isPiece with
  | space space => exact Piece.next?_space space more
  | lineBreak breaks => exact Piece.next?_lineBreak breaks more
  | block inside => exact next?_block inside more
  | line isMark inside => exact next?_line isMark inside (ends _ rfl)

/-- **Where no piece is found**, none could have been written. -/
theorem next?_eq_none_iff {text : List Char} : Piece.next? text = none ↔ OpensNoGap text := by
  constructor
  · intro none
    refine ⟨?_, ?_, ?_, ?_⟩
    · cases text with
      | nil => rfl
      | cons char rest =>
          refine Source.stops_cons.mpr ?_
          by_contra space
          rw [Piece.next?_space (by simpa using space)] at none
          cases none
    · cases text with
      | nil => rfl
      | cons char rest =>
          refine Source.stops_cons.mpr ?_
          by_contra breaks
          rw [Piece.next?_lineBreak (by simpa using breaks)] at none
          cases none
    · rintro mark (rfl | rfl) ⟨rest, rfl⟩
      · cases none
      · simp [Piece.next?, isSpace, isLineBreak] at none
    · rintro body ⟨rest, rfl⟩
      simp only [List.cons_append, Piece.next?, Option.map_eq_none_iff] at none
      exact throughCommentEnd?_ne_none body rest none
  · rintro ⟨noSpace, noBreak, noLine, noBlock⟩
    by_contra some
    obtain ⟨piece, found⟩ := Option.ne_none_iff_exists'.mp some
    have begins := Piece.chars_of_next? found
    cases (isPiece_of_next? found).1 with
    | space space =>
        obtain ⟨rest, rfl⟩ := begins
        rw [Piece.chars, List.singleton_append, Source.stops_cons, space] at noSpace
        cases noSpace
    | lineBreak breaks =>
        obtain ⟨rest, rfl⟩ := begins
        rw [Piece.chars, List.singleton_append, Source.stops_cons, breaks] at noBreak
        cases noBreak
    | block => exact noBlock _ begins
    | line isMark => exact noLine _ isMark ((List.prefix_append _ _).trans begins)

private theorem isSequence_gap (text : List Char) :
    IsSequence (text.drop (gapChars (gap text)).length) (gap text) := by
  fun_induction gap text with
  | case1 text none => exact .nil
  | case2 text piece found ih =>
      obtain ⟨isPiece, ends⟩ := isPiece_of_next? found
      have whole : gapChars (piece :: gap (text.drop piece.chars.length)) =
          piece.chars ++ gapChars (gap (text.drop piece.chars.length)) := rfl
      rw [whole, List.length_append, ← List.drop_drop]
      refine .cons isPiece (fun body isLine => ?_) ih
      rw [Source.gap_append]
      exact ends body isLine

/-- **What a gap is**: a text splits into a sequence of pieces and a text that opens no gap, and
there is only one such sequence. -/
theorem gap_eq_iff {text : List Char} {pieces : List Piece} : gap text = pieces ↔
    ∃ following, text = gapChars pieces ++ following ∧ IsSequence following pieces ∧
      OpensNoGap following := by
  constructor
  · rintro rfl
    refine ⟨text.drop (gapChars (gap text)).length, (Source.gap_append text).symm,
      isSequence_gap text, next?_eq_none_iff.mp ?_⟩
    by_contra some
    obtain ⟨piece, found⟩ := Option.ne_none_iff_exists'.mp some
    have none := Source.gap_drop_gapChars text
    rw [Source.gap_of_some found] at none
    cases none
  · rintro ⟨following, rfl, isSequence, opensNoGap⟩
    induction isSequence with
    | nil => exact Source.gap_of_none (next?_eq_none_iff.mpr opensNoGap)
    | @cons piece rest isPiece ends _ ih =>
        have found := next?_of_isPiece isPiece ends
        have whole : gapChars (piece :: rest) = piece.chars ++ gapChars rest := rfl
        rw [whole, List.append_assoc, Source.gap_of_some found, List.drop_left, ih]

/-! ## What is stored of a gap -/

/-- What is stored of a sequence of pieces: each block comment as it is written, each line comment
up to the white space at its end. -/
inductive Stored : List Piece → List String → Prop
  | nil : Stored [] []
  | space {char : Char} {rest : List Piece} {texts : List String} : Stored rest texts →
      Stored (.space char :: rest) texts
  | lineBreak {char : Char} {rest : List Piece} {texts : List String} : Stored rest texts →
      Stored (.lineBreak char :: rest) texts
  | block {text : List Char} {rest : List Piece} {texts : List String} : Stored rest texts →
      Stored (.block text :: rest) (String.ofList text :: texts)
  | line {kept lost : List Char} {rest : List Piece} {texts : List String} :
      Stops Text.isBlank kept.reverse → (∀ char ∈ lost, Text.isBlank char) → Stored rest texts →
      Stored (.line (kept ++ lost) :: rest) (String.ofList kept :: texts)

private theorem stored_iff {pieces : List Piece} {texts : List String} :
    Stored pieces texts ↔ gapComments pieces = texts := by
  constructor
  · intro stored
    induction stored with
    | nil => rfl
    | space _ ih => exact ih
    | lineBreak _ ih => exact ih
    | block _ ih => rw [← ih]; rfl
    | @line kept lost rest _ ends blank _ ih =>
        have comment : (Piece.line (kept ++ lost)).comment? = some (String.ofList kept) := by
          rw [Piece.comment?, Text.trimEnd_append blank ends]
        rw [gapComments, List.filterMap_cons_some comment, ← ih]
        rfl
  · rintro rfl
    induction pieces with
    | nil => exact .nil
    | cons piece rest ih =>
        cases piece with
        | space char => exact .space ih
        | lineBreak char => exact .lineBreak ih
        | block text => exact .block ih
        | line text =>
            obtain ⟨lost, split, blank⟩ := Text.exists_trimEnd_append text
            have line := Stored.line (Text.stops_reverse_trimEnd text) blank ih
            rwa [← split] at line

end Layout

namespace Parser

open Layout (IsSequence OpensNoGap Stored)

/-! ## Passing the sequence -/

/-- **Skipping a gap.** Let a sequence of blanks, line breaks, block comments and line comments
stand in front of a text that opens no gap. Skipping stops where that text begins. The sequence has
a part without line breaks outside comments and a part that begins with the first of them, unless it
is empty; what is stored of the first part is added, in order, to the queue for what was just read,
and what is stored of the second part to the queue for what comes next. Nothing else changes.

By bytes, one loop goes to the end of the line and passes what is stored of the first part, and
another one goes on from there, passes what is stored of the second part and stops at the same
place. -/
theorem skip_gap {pieces : List Piece} {following : List Char}
    (isSequence : IsSequence following pieces) (opensNoGap : OpensNoGap following) {state : State}
    (unread : state.input.rest = gapChars pieces ++ following) :
    ∃ first later tails heads, pieces = first ++ later ∧ (∀ piece ∈ first, piece.isBreak = false) ∧
      (∀ piece ∈ later.head?, piece.isBreak = true) ∧ Stored first tails ∧ Stored later heads ∧
      skip state = .ok ()
        { state with
          input := ⟨following, state.input.cursor.pass (gapChars pieces)⟩
          comments :=
            { head := state.comments.head.pushAll heads
              tail := state.comments.tail.pushAll tails } } ∧
      ∀ source, state.input.Within source →
        (state.input.scanner source).skipLine.1 = tails ∧
        (state.input.scanner source).skipLine.2.skipLines =
          (heads, Input.scanner ⟨following, state.input.cursor.pass (gapChars pieces)⟩ source) := by
  -- The gap of the text is the sequence, because nothing behind it opens a gap.
  have read : gap state.input.rest = pieces :=
    Layout.gap_eq_iff.mpr ⟨following, unread, isSequence, opensNoGap⟩
  have input : state.input.advance (gapChars pieces).length =
      ⟨following, state.input.cursor.pass (gapChars pieces)⟩ := by
    have whole : state.input = ⟨gapChars pieces ++ following, state.input.cursor⟩ := by
      rw [← unread]
    rw [whole, Input.advance_append]
  refine ⟨firstLine pieces, laterLines pieces, gapComments (firstLine pieces),
    gapComments (laterLines pieces), List.takeWhile_append_dropWhile.symm, fun piece member => ?_,
    fun piece member => ?_, Layout.stored_iff.mpr rfl, Layout.stored_iff.mpr rfl, ?_,
    fun source within => ?_⟩
  · simpa using List.mem_takeWhile_imp member
  · have stops := List.head?_dropWhile_not (fun piece : Piece => !piece.isBreak) pieces
    simp only [laterLines, Option.mem_def] at member
    rw [member] at stops
    simpa using stops
  · rw [← input, ← read]
    rfl
  · have loops := within.skip_eq
    rwa [read, input] at loops

/-- White space beyond ASCII at the end of a line comment, a line break of two characters, a block
comment over two lines and one that begins like a closed one, in front of one that is never
closed. -/
theorem skip_gap_mixed :
    let source := " // tail \u00a0\r\n# one\t\n/* two\n*/\t/*/ three *//* open"
    let pieces : List Piece := [.space ' ', .line "// tail \u00a0".toList, .lineBreak '\r',
      .lineBreak '\n', .line "# one\t".toList, .lineBreak '\n', .block "/* two\n*/".toList,
      .space '\t', .block "/*/ three */".toList]
    let following := "/* open".toList
    let state := State.ofString source
    IsSequence following pieces ∧ OpensNoGap following ∧
      state.input.rest = gapChars pieces ++ following ∧ state.input.Within source ∧
      (state.input.scanner source).skipLine.1 = ["// tail"] ∧
      ∃ next, skip state = .ok () next ∧ next.input.rest = following ∧
        next.comments.tail.items = ["// tail"] ∧
        next.comments.head.items = ["# one", "/* two\n*/", "/*/ three */"] := by
  intro source pieces following state
  have read : gap (gapChars pieces ++ following) = pieces := by decide +kernel
  have unread : state.input.rest = gapChars pieces ++ following := by decide +kernel
  have within : state.input.Within source := Input.within_ofString source
  obtain ⟨same, split, isSequence, opensNoGap⟩ := Layout.gap_eq_iff.mp read
  obtain rfl : following = same := List.append_cancel_left split
  obtain ⟨first, later, tails, heads, -, -, -, -, -, skipped, loops⟩ :=
    skip_gap isSequence opensNoGap unread
  have stored : (ending (skip state)).comments.tail.items = ["// tail"] ∧
      (ending (skip state)).comments.head.items = ["# one", "/* two\n*/", "/*/ three */"] := by
    decide +kernel
  rw [skipped] at stored
  have line : (state.input.scanner source).skipLine.1 = ["// tail"] :=
    (loops source within).1.trans stored.1
  exact ⟨isSequence, opensNoGap, unread, within, line, _, skipped, rfl, stored⟩

end Parser
end ThriftIdl
