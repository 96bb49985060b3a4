import Mathlib.Data.List.TakeWhile
import ThriftIdl.Source.Gap

/-!
# What a gap depends on

Where a gap ends, no further piece begins, and a piece depends on its own characters and, for a line
comment, on what ends its line. So a gap stays what it is when another text follows it, provided the
new text also ends the line where the old one did. Main statements: `gap_drop_gapChars` and
`gap_append_of_gapChars_eq`.
-/

namespace ThriftIdl.Source

/-- A text stops a run of characters with a property if it does not begin with one. -/
def Stops (test : Char → Bool) (text : List Char) : Prop :=
  text.head?.any test = false

/-- Whether nothing of a text stands on the current line: it is empty or begins with a line
break. -/
def EndsLine (text : List Char) : Prop :=
  Stops (fun char => !isLineBreak char) text

/-- Whether a piece of a gap may begin with a character. -/
def opensGap (char : Char) : Bool :=
  isSpace char || isLineBreak char || char == '#' || char == '/'

section Runs

variable {test : Char → Bool} {text front more : List Char}

theorem stops_nil : Stops test [] := rfl

@[simp] theorem stops_cons {char : Char} : Stops test (char :: text) ↔ test char = false := by
  simp [Stops]

/-- A text that stops a run stops every run of fewer characters. -/
theorem Stops.mono {other : Char → Bool} (stops : Stops test text)
    (implies : ∀ char, other char → test char) : Stops other text := by
  cases text with
  | nil => rfl
  | cons char rest =>
      rw [stops_cons] at stops ⊢
      by_contra passes
      rw [implies char (by simpa using passes)] at stops
      cases stops

/-- A text that stops a run still does so with another end, if the other end does so alone. -/
theorem Stops.replace (stops : Stops test (front ++ text)) (alone : Stops test more) :
    Stops test (front ++ more) := by
  cases front with
  | nil => exact alone
  | cons char rest => exact stops

/-- What is left of a text without its longest run stops the run. -/
theorem stops_dropWhile (test : Char → Bool) (text : List Char) :
    Stops test (text.dropWhile test) := by
  induction text with
  | nil => rfl
  | cons char rest ih =>
      by_cases passes : test char
      · simpa [passes] using ih
      · simp [passes]

/-- Dropping as many characters as a run has is dropping the run. -/
theorem drop_takeWhile (test : Char → Bool) (text : List Char) :
    text.drop (text.takeWhile test).length = text.dropWhile test := by
  induction text with
  | nil => rfl
  | cons char rest ih =>
      by_cases passes : test char
      · simpa [passes] using ih
      · simp [passes]

/-- A run is read up to the text that stops it. -/
theorem Stops.takeWhile_append (stops : Stops test more) (inside : ∀ char ∈ front, test char) :
    (front ++ more).takeWhile test = front := by
  have none : more.takeWhile test = [] := by
    cases more with
    | nil => rfl
    | cons char rest => simp [stops_cons.mp stops]
  rw [List.takeWhile_append_of_pos inside, none, List.append_nil]

/-- A run in front of a text that stops it is dropped as a whole and alone. -/
theorem Stops.dropWhile_append (stops : Stops test more) (inside : ∀ char ∈ front, test char) :
    (front ++ more).dropWhile test = more := by
  rw [← drop_takeWhile, stops.takeWhile_append inside, List.drop_left]

/-- What ends a line stops every run of characters other than line breaks. -/
theorem EndsLine.stops (ends : EndsLine text)
    (plain : ∀ char, isLineBreak char → test char = false) : Stops test text := by
  cases text with
  | nil => rfl
  | cons char rest => exact stops_cons.mpr (plain char (by simpa [EndsLine] using ends))

end Runs

private theorem ne_nil_of_throughCommentEnd? {text body : List Char}
    (found : throughCommentEnd? text = some body) : body ≠ [] := by
  fun_induction throughCommentEnd? text with
  | case1 rest => cases found; simp
  | case2 char rest _ _ =>
      obtain ⟨inner, _, rfl⟩ := Option.map_eq_some_iff.mp found
      exact List.cons_ne_nil _ _
  | case3 => cases found

/-- A comment end that is found is found again whatever follows it. -/
theorem throughCommentEnd?_append {text body : List Char}
    (found : throughCommentEnd? text = some body) (more : List Char) :
    throughCommentEnd? (body ++ more) = some body := by
  fun_induction throughCommentEnd? text generalizing body with
  | case1 rest =>
      cases found
      rfl
  | case2 char rest noEnd ih =>
      obtain ⟨inner, innerFound, rfl⟩ := Option.map_eq_some_iff.mp found
      have again := ih innerFound
      obtain ⟨back, same⟩ := isPrefix_of_throughCommentEnd? innerFound
      rw [List.cons_append, throughCommentEnd?.eq_2, again, Option.map_some]
      rintro rest' rfl opened
      cases inner with
      | nil => exact ne_nil_of_throughCommentEnd? innerFound rfl
      | cons first others =>
          simp only [List.cons_append, List.cons.injEq] at opened
          rw [opened.1] at same
          exact noEnd _ rfl same.symm
  | case3 => cases found

namespace Piece

/-- A piece is read again whatever follows it, if a line that ended with it still does. -/
theorem next?_append {text : List Char} {piece : Piece} (found : next? text = some piece)
    {more : List Char} (ends : EndsLine (text.drop piece.chars.length) → EndsLine more) :
    next? (piece.chars ++ more) = some piece := by
  unfold next? at found
  split at found
  · cases found
  · obtain ⟨body, bodyFound, rfl⟩ := Option.map_eq_some_iff.mp found
    simp only [chars, List.cons_append, next?, throughCommentEnd?_append bodyFound,
      Option.map_some]
  · next rest =>
      cases found
      -- A line comment goes up to the end of its line, so what follows has to end the line too.
      have ended : EndsLine more := ends (by
        simpa [EndsLine, chars, drop_takeWhile] using
          stops_dropWhile (fun char => !isLineBreak char) rest)
      have inside : ∀ char ∈ rest.takeWhile fun char => !isLineBreak char, !isLineBreak char :=
        fun _ => List.mem_takeWhile_imp
      have again := ended.takeWhile_append inside
      simp only [chars, List.cons_append, next?, again]
  · next char rest noBlock noLine =>
      split at found
      · next space =>
          cases found
          have plain : char ≠ '/' := by rintro rfl; cases space
          simp [chars, next?, plain, space]
      · next noSpace =>
          split at found
          · next breaks =>
              cases found
              have plain : char ≠ '/' := by rintro rfl; cases breaks
              simp [chars, next?, plain, noSpace, breaks]
          · next noBreak =>
              split at found
              · next sign =>
                  cases found
                  have ended : EndsLine more :=
                    ends (by
                      simpa [EndsLine, chars, drop_takeWhile] using
                        stops_dropWhile (fun char => !isLineBreak char) rest)
                  have inside :
                      ∀ char ∈ rest.takeWhile fun char => !isLineBreak char, !isLineBreak char :=
                    fun _ => List.mem_takeWhile_imp
                  have again := ended.takeWhile_append inside
                  have noSpace : isSpace '#' = false := rfl
                  have noBreak : isLineBreak '#' = false := rfl
                  simp [chars, next?, again, noSpace, noBreak]
              · cases found

/-- A blank is a piece of its own. -/
theorem next?_space {char : Char} (space : isSpace char) (more : List Char) :
    next? (char :: more) = some (.space char) := by
  have plain : char ≠ '/' := by rintro rfl; cases space
  simp [next?, plain, space]

/-- A line break is a piece of its own. -/
theorem next?_lineBreak {char : Char} (breaks : isLineBreak char) (more : List Char) :
    next? (char :: more) = some (.lineBreak char) := by
  have plain : char ≠ '/' := by rintro rfl; cases breaks
  have noSpace : isSpace char = false := by
    simp only [isLineBreak, Bool.or_eq_true, beq_iff_eq] at breaks
    rcases breaks with rfl | rfl <;> rfl
  simp [next?, plain, noSpace, breaks]

/-- No piece begins with a character that opens none. -/
theorem next?_eq_none {text : List Char} (plain : Stops opensGap text) : next? text = none := by
  cases text with
  | nil => rfl
  | cons char rest =>
      simp only [stops_cons, opensGap, Bool.or_eq_false_iff, beq_eq_false_iff_ne, ne_eq] at plain
      obtain ⟨⟨⟨noSpace, noBreak⟩, noSign⟩, noSlash⟩ := plain
      simp [next?, noSlash, noSpace, noBreak, noSign]

end Piece

/-- Where no piece begins there is no gap. -/
theorem gap_of_none {text : List Char} (none : Piece.next? text = none) : gap text = [] := by
  rw [gap.eq_def]
  split
  · rfl
  · next found => rw [none] at found; cases found

/-- A gap is its first piece and the gap behind that. -/
theorem gap_of_some {text : List Char} {piece : Piece} (found : Piece.next? text = some piece) :
    gap text = piece :: gap (text.drop piece.chars.length) := by
  rw [gap.eq_def]
  split
  · next none => rw [none] at found; cases found
  · next other => rw [found] at other; cases other; rfl

/-- A gap may go on behind a blank. -/
theorem gap_space {char : Char} (space : isSpace char) (more : List Char) :
    gap (char :: more) = .space char :: gap more :=
  gap_of_some (Piece.next?_space space more)

/-- A gap may go on behind a line break. -/
theorem gap_lineBreak {char : Char} (breaks : isLineBreak char) (more : List Char) :
    gap (char :: more) = .lineBreak char :: gap more :=
  gap_of_some (Piece.next?_lineBreak breaks more)

/-- Where no gap opens there is none. -/
theorem gap_eq_nil {text : List Char} (plain : Stops opensGap text) : gap text = [] :=
  gap_of_none (Piece.next?_eq_none plain)

private theorem gap_nil : gap [] = [] :=
  gap_eq_nil rfl

/-- A text that is not empty and begins with no gap stands on the current line. -/
theorem eq_nil_of_endsLine {text : List Char} (closed : gap text = []) (ends : EndsLine text) :
    text = [] := by
  cases text with
  | nil => rfl
  | cons char rest =>
      simp only [EndsLine, stops_cons, Bool.not_eq_false'] at ends
      rw [gap_lineBreak ends] at closed
      cases closed

/-- The gap after the end of a line begins with a line break, if there is one. -/
theorem firstLine_gap {text : List Char} (ends : EndsLine text) : firstLine (gap text) = [] := by
  cases text with
  | nil =>
      rw [gap_nil]
      rfl
  | cons char rest =>
      have breaks : isLineBreak char := by simpa [EndsLine] using ends
      rw [gap_lineBreak breaks]
      rfl

/-- Pieces in front of a gap that ends its line at once keep their first line. -/
theorem firstLine_append (pieces : List Piece) {text : List Char} (ends : EndsLine text) :
    firstLine (pieces ++ gap text) = firstLine pieces := by
  induction pieces with
  | nil => exact firstLine_gap ends
  | cons piece others ih =>
      unfold firstLine at ih ⊢
      rw [List.cons_append, List.takeWhile_cons, List.takeWhile_cons, ih]

/-- Pieces in front of a gap that ends its line at once have their later lines, and then that
gap. -/
theorem laterLines_append (pieces : List Piece) {text : List Char} (ends : EndsLine text) :
    laterLines (pieces ++ gap text) = laterLines pieces ++ gap text := by
  induction pieces with
  | nil =>
      have split := List.takeWhile_append_dropWhile
        (p := fun piece : Piece => !piece.isBreak) (l := gap text)
      have none := firstLine_gap ends
      unfold firstLine at none
      rwa [none] at split
  | cons piece others ih =>
      unfold laterLines at ih ⊢
      rw [List.cons_append, List.dropWhile_cons, List.dropWhile_cons, ih]
      split <;> rfl

/-- A gap that ends its line at once is all on later lines. -/
theorem laterLines_gap {text : List Char} (ends : EndsLine text) :
    laterLines (gap text) = gap text :=
  laterLines_append [] ends

/-- **A gap is read to its end.** -/
theorem gap_drop_gapChars (text : List Char) :
    gap (text.drop (gapChars (gap text)).length) = [] := by
  fun_induction gap text with
  | case1 text none => exact gap_of_none none
  | case2 text piece found ih =>
      simpa [gapChars, List.drop_drop] using ih

/-- **What follows a gap does not change it.** When the text after a gap gives way to another one,
the pieces of the gap stay, and the pieces that the new text begins with come after them. -/
theorem gap_append_of_gapChars_eq {front back more : List Char}
    (whole : gapChars (gap (front ++ back)) = front) (ends : EndsLine back → EndsLine more) :
    gap (front ++ more) = gap (front ++ back) ++ gap more := by
  -- Induction on the length of the gap, which loses its first piece in each step.
  induction count : front.length using Nat.strongRecOn generalizing front with
  | _ length ih =>
      match found : Piece.next? (front ++ back) with
      | none =>
          rw [gap_of_none found] at whole ⊢
          cases whole
          rfl
      | some piece =>
          obtain ⟨rest, split⟩ : piece.chars <+: front := by
            rw [gap_of_some found] at whole
            exact ⟨_, whole⟩
          subst split
          rw [List.append_assoc] at found
          have later : EndsLine ((piece.chars ++ (rest ++ back)).drop piece.chars.length) →
              EndsLine (rest ++ more) := by
            rw [List.drop_left]
            cases rest with
            | nil => exact ends
            | cons char others => simp [EndsLine]
          have again := Piece.next?_append found later
          rw [List.append_assoc, List.append_assoc, gap_of_some found, gap_of_some again,
            List.drop_left, List.drop_left, List.cons_append]
          have nonempty := List.length_pos_iff.mpr (Piece.chars_ne_nil_of_next? found)
          have shorter : rest.length < length := by
            rw [← count, List.length_append]
            omega
          have inner : gapChars (gap (rest ++ back)) = rest := by
            rw [List.append_assoc, gap_of_some found, List.drop_left] at whole
            exact List.append_cancel_left whole
          rw [ih rest.length shorter inner rfl]

/-- The characters of two runs of pieces are those of the one and then those of the other. -/
theorem gapChars_append (front back : List Piece) :
    gapChars (front ++ back) = gapChars front ++ gapChars back :=
  List.flatMap_append

end ThriftIdl.Source
