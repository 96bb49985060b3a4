import ThriftIdl.Text.Blank

/-!
# Gaps between tokens

Between two tokens stand blanks, line breaks and comments. A gap is read into its pieces, which
together are exactly the characters of the gap. A block comment that is never closed is no comment.
Main statements: `Piece.chars_of_next?` and `gap_append`.
-/

namespace ThriftIdl.Source

/-- Whether a character ends a line. -/
def isLineBreak (char : Char) : Bool :=
  char == '\n' || char == '\r'

/-- Whether a character is a blank within a line. -/
def isSpace (char : Char) : Bool :=
  char == ' ' || char == '\t'

/-- A text up to the end of its first comment end, if there is one. -/
def throughCommentEnd? : List Char → Option (List Char)
  | '*' :: '/' :: _ => some ['*', '/']
  | char :: rest => (throughCommentEnd? rest).map (char :: ·)
  | [] => none

/-- A piece of a gap. -/
inductive Piece
  /-- A space or a tab. -/
  | space (char : Char)
  /-- A line feed or a carriage return. -/
  | lineBreak (char : Char)
  /-- A comment between `/*` and `*/`, as it is written. -/
  | block (text : List Char)
  /-- A comment from `//` or `#` up to the end of its line, as it is written. -/
  | line (text : List Char)
deriving DecidableEq

namespace Piece

/-- The characters of a piece. -/
def chars : Piece → List Char
  | space char => [char]
  | lineBreak char => [char]
  | block text => text
  | line text => text

/-- The comment that a piece is: a line comment loses the white space at its end. -/
def comment? : Piece → Option String
  | block text => some (String.ofList text)
  | line text => some (String.ofList (Text.trimEnd text))
  | _ => none

/-- Whether a piece ends a line. -/
def isBreak : Piece → Bool
  | lineBreak _ => true
  | _ => false

/-- The piece at the start of a text, if the text starts with one. -/
def next? : List Char → Option Piece
  | [] => none
  | '/' :: '*' :: rest => (throughCommentEnd? rest).map fun body => block ('/' :: '*' :: body)
  | '/' :: '/' :: rest =>
    some (line ('/' :: '/' :: rest.takeWhile fun char => !isLineBreak char))
  | char :: rest =>
    if isSpace char then some (space char)
    else if isLineBreak char then some (lineBreak char)
    else if char = '#' then some (line ('#' :: rest.takeWhile fun char => !isLineBreak char))
    else none

end Piece

/-- What is found ends the text before it. -/
theorem isPrefix_of_throughCommentEnd? {text body : List Char}
    (found : throughCommentEnd? text = some body) : body <+: text := by
  fun_induction throughCommentEnd? text generalizing body with
  | case1 rest => exact Option.some.inj found ▸ ⟨rest, rfl⟩
  | case2 char rest _ step =>
    obtain ⟨inner, innerFound, rfl⟩ := Option.map_eq_some_iff.mp found
    exact List.cons_prefix_cons.mpr ⟨rfl, step innerFound⟩
  | case3 => cases found

namespace Piece

/-- A piece has the characters that the text starts with. -/
theorem chars_of_next? {text : List Char} {piece : Piece} (found : next? text = some piece) :
    piece.chars <+: text := by
  unfold next? at found
  split at found
  · cases found
  · obtain ⟨body, bodyFound, rfl⟩ := Option.map_eq_some_iff.mp found
    have inside := isPrefix_of_throughCommentEnd? bodyFound
    exact List.cons_prefix_cons.mpr ⟨rfl, List.cons_prefix_cons.mpr ⟨rfl, inside⟩⟩
  · cases found
    exact List.cons_prefix_cons.mpr
      ⟨rfl, List.cons_prefix_cons.mpr ⟨rfl, List.takeWhile_prefix _⟩⟩
  · split at found
    · cases found
      exact ⟨_, rfl⟩
    · split at found
      · cases found
        exact ⟨_, rfl⟩
      · split at found
        · next sign =>
          cases found
          exact List.cons_prefix_cons.mpr ⟨sign.symm, List.takeWhile_prefix _⟩
        · cases found

/-- No piece is empty. -/
theorem chars_ne_nil_of_next? {text : List Char} {piece : Piece}
    (found : next? text = some piece) : piece.chars ≠ [] := by
  unfold next? at found
  split at found
  · cases found
  · obtain ⟨_, _, rfl⟩ := Option.map_eq_some_iff.mp found
    simp [chars]
  · cases found
    simp [chars]
  · split at found
    · cases found
      simp [chars]
    · split at found
      · cases found
        simp [chars]
      · split at found
        · cases found
          simp [chars]
        · cases found

end Piece

/-- The pieces of the gap at the start of a text. -/
def gap (text : List Char) : List Piece :=
  match _found : Piece.next? text with
  | none => []
  | some piece => piece :: gap (text.drop piece.chars.length)
termination_by text.length
decreasing_by
  have nonempty := List.length_pos_iff.mpr (Piece.chars_ne_nil_of_next? _found)
  have within := (Piece.chars_of_next? _found).length_le
  simp only [List.length_drop]
  omega

/-- The characters of a gap. -/
def gapChars (pieces : List Piece) : List Char :=
  pieces.flatMap Piece.chars

/-- The comments of a gap. -/
def gapComments (pieces : List Piece) : List String :=
  pieces.filterMap Piece.comment?

/-- The pieces before the first line break of a gap. -/
def firstLine (pieces : List Piece) : List Piece :=
  pieces.takeWhile fun piece => !piece.isBreak

/-- The pieces from the first line break of a gap on. -/
def laterLines (pieces : List Piece) : List Piece :=
  pieces.dropWhile fun piece => !piece.isBreak

/-- The pieces of a gap are the text that they are read from, up to where the gap ends. -/
theorem gap_append (text : List Char) :
    gapChars (gap text) ++ text.drop (gapChars (gap text)).length = text := by
  fun_induction gap text with
  | case1 text none => rfl
  | case2 text piece found step =>
    obtain ⟨rest, rfl⟩ := Piece.chars_of_next? found
    simp only [List.drop_left] at step
    simp only [gapChars, List.flatMap_cons, List.drop_left, List.length_append,
      List.append_assoc] at step ⊢
    rw [List.drop_append, List.drop_eq_nil_of_le (by omega), List.nil_append,
      Nat.add_sub_cancel_left, step]

end ThriftIdl.Source
