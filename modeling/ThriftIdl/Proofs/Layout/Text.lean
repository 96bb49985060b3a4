import ThriftIdl.Proofs.Source.Gap
import ThriftIdl.Parser.Declaration

/-!
# Layouts

A layout of a list of tokens is a text with the tokens in their order and gaps before, between and
after them: blanks, line breaks and comments in any number and order. Only where two tokens would
grow together must there be a gap that is not empty. Main statement: `gapChars_of_isGap`, a gap is
read as it was laid out.
-/

namespace ThriftIdl

open ThriftIdl.Source (Stops EndsLine opensGap isSpace isLineBreak Piece gap gapChars)

namespace Layout

/-- A token as it is written. -/
abbrev Token := List Char

/-- Whether a text between `/*` and `*/` does not end the comment itself. -/
def IsInside (body : List Char) : Prop :=
  ∀ front back, body ++ ['*', '/'] = front ++ '*' :: '/' :: back → back = []

/-- How a line comment may begin. -/
def IsLineMark (mark : List Char) : Prop :=
  mark = ['/', '/'] ∨ mark = ['#']

/-- A gap: blanks, line breaks, block comments and line comments. A line comment goes on to a line
break; if the gap is the last thing in a text, also to the end of it. -/
inductive IsGap (last : Prop) : List Char → Prop
  | nil : IsGap last []
  | blank {char : Char} {rest : List Char} : isSpace char ∨ isLineBreak char → IsGap last rest →
      IsGap last (char :: rest)
  | block {body rest : List Char} : IsInside body → IsGap last rest →
      IsGap last ('/' :: '*' :: (body ++ ['*', '/']) ++ rest)
  | line {mark body rest : List Char} : IsLineMark mark → (∀ char ∈ body, ¬isLineBreak char) →
      EndsLine rest → (rest = [] → last) → IsGap last rest → IsGap last (mark ++ body ++ rest)

/-- Whether a character may be part of a word, in the widest sense. -/
def isWordChar (char : Char) : Bool :=
  Parser.isNameChar char || char == '*'

/-- Whether a token would grow together with the text after it. -/
def GrowsInto (token following : List Char) : Prop :=
  token.getLast?.any isWordChar ∧ following.head?.any isWordChar

instance (token following : List Char) : Decidable (GrowsInto token following) :=
  inferInstanceAs (Decidable (_ ∧ _))

/-- Tokens in their order with a gap after each of them. -/
inductive Laid : List Token → List Char → Prop
  | nil : Laid [] []
  | cons {token : Token} {tokens : List Token} {gap rest : List Char} :
      IsGap (tokens = []) gap → ¬GrowsInto token (gap ++ rest) → Laid tokens rest →
      Laid (token :: tokens) (token ++ (gap ++ rest))

/-- A layout of a list of tokens: a gap, and then each token with a gap after it. There may be a
byte order mark before all. -/
def IsLayout (tokens : List Token) (text : List Char) : Prop :=
  ∃ mark gap rest, (mark = [] ∨ mark = ['\ufeff']) ∧ text = mark ++ (gap ++ rest) ∧
    IsGap (tokens = []) gap ∧ Laid tokens rest

/-! ## Gaps are read as they are laid out -/

private theorem throughCommentEnd?_of_isInside {body : List Char} (inside : IsInside body)
    (more : List Char) :
    Source.throughCommentEnd? (body ++ ['*', '/'] ++ more) = some (body ++ ['*', '/']) := by
  induction body with
  | nil => rfl
  | cons char rest ih =>
      have later : IsInside rest := fun front back same =>
        inside (char :: front) back (by rw [List.cons_append, same, List.cons_append])
      have again := ih later
      rw [List.cons_append, List.cons_append, Source.throughCommentEnd?.eq_2, again,
        Option.map_some]
      rintro others rfl closes
      have early := inside [] (rest ++ ['*', '/']).tail (by
        cases rest with
        | nil => cases closes
        | cons first further =>
            simp only [List.cons_append, List.cons.injEq] at closes
            simp [closes.1])
      cases rest with
      | nil => cases closes
      | cons first further => simp at early

/-- A closed block comment is the next piece, whatever follows it. -/
theorem next?_block {body : List Char} (inside : IsInside body) (more : List Char) :
    Piece.next? ('/' :: '*' :: (body ++ ['*', '/']) ++ more) =
      some (.block ('/' :: '*' :: (body ++ ['*', '/']))) := by
  simp only [List.cons_append, Piece.next?, throughCommentEnd?_of_isInside inside, Option.map_some]

/-- A line comment that ends with its line is the next piece. -/
theorem next?_line {mark body : List Char} (isMark : IsLineMark mark)
    (inside : ∀ char ∈ body, ¬isLineBreak char) {more : List Char} (ends : EndsLine more) :
    Piece.next? (mark ++ body ++ more) = some (.line (mark ++ body)) := by
  have whole : (body ++ more).takeWhile (fun char => !isLineBreak char) = body :=
    Stops.takeWhile_append ends fun char member => by simpa using inside char member
  rcases isMark with rfl | rfl
  · simp only [List.cons_append, List.nil_append, Piece.next?, whole]
  · have noSpace : isSpace '#' = false := rfl
    have noBreak : isLineBreak '#' = false := rfl
    simp [Piece.next?, noSpace, noBreak, whole]

/-- A gap may begin with a block comment. -/
theorem gap_block {body : List Char} (inside : IsInside body) (more : List Char) :
    gap ('/' :: '*' :: (body ++ ['*', '/']) ++ more) =
      .block ('/' :: '*' :: (body ++ ['*', '/'])) :: gap more := by
  rw [Source.gap_of_some (next?_block inside more), Piece.chars, List.drop_left]

/-- A gap may begin with a line comment, if the line ends behind it. -/
theorem gap_line {mark body : List Char} (isMark : IsLineMark mark)
    (inside : ∀ char ∈ body, ¬isLineBreak char) {more : List Char} (ends : EndsLine more) :
    gap (mark ++ body ++ more) = .line (mark ++ body) :: gap more := by
  rw [Source.gap_of_some (next?_line isMark inside ends), Piece.chars, List.drop_left]

/-- A gap may begin with a blank, which is a piece of one character and no comment. -/
theorem gap_blank {char : Char} (blank : isSpace char ∨ isLineBreak char) (more : List Char) :
    ∃ piece, gap (char :: more) = piece :: gap more ∧ piece.chars = [char] ∧
      piece.comment? = none := by
  rcases blank with space | breaks
  · exact ⟨_, Source.gap_space space more, rfl, rfl⟩
  · exact ⟨_, Source.gap_lineBreak breaks more, rfl, rfl⟩

/-- **A gap is read as it was laid out**, if what follows it opens no further gap. -/
theorem gapChars_of_isGap {last : Prop} {between following : List Char} (isGap : IsGap last between)
    (stops : Stops opensGap following) (ended : last → following = []) :
    gapChars (gap (between ++ following)) = between := by
  induction isGap with
  | nil => rw [List.nil_append, Source.gap_eq_nil stops]; rfl
  | @blank char rest blank _ ih =>
      obtain ⟨piece, found, chars, -⟩ := gap_blank blank (rest ++ following)
      rw [List.cons_append, found]
      simpa [gapChars, chars] using ih
  | @block body rest inside _ ih =>
      rw [List.append_assoc, gap_block inside]
      simpa [gapChars, Piece.chars] using ih
  | @line mark body rest isMark inside ends final _ ih =>
      have endsAll : EndsLine (rest ++ following) := by
        cases rest with
        | nil =>
            rw [ended (final rfl)]
            rfl
        | cons char others => exact ends
      rw [List.append_assoc, gap_line isMark inside endsAll]
      simpa [gapChars, Piece.chars] using ih

end Layout
end ThriftIdl
