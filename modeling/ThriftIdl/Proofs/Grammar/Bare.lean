import ThriftIdl.Proofs.Grammar.Literal

/-!
# Bare literals

A literal without quotes and brackets is a single token: a number, a truth value or a reference. Of
what kind it is decides what ends it. A decimal number goes on over all characters of names, a
reference over a dot if another segment follows, and the others over no dot at all. Main statement:
`literal_iff_bare`.
-/

namespace ThriftIdl

open Source (Stops)
open ThriftIdl.Parser (View isIdentChar isIdentStart isNameChar isQuote isSign decimalLiteral?)

/-- Whether a literal is a decimal number without an exponent. -/
def Literal.isDecimal : Literal → Bool
  | .int _ | .double _ => true
  | _ => false

namespace Grammar

open Phrase

/-- The spellings of bare literals. -/
inductive Bare (chars : List Char) : Literal → Prop
  | hex {value : Int64} : Lexeme.hex.spells chars value → Bare chars (.hex value)
  | exponent {value : Number.Binary64} : Lexeme.exponent.spells chars value →
      Bare chars (.exponent value)
  | decimal {value : Literal} : Lexeme.decimal.spells chars value → Bare chars value
  | truth {value : Literal} : (Lexeme.words [("true", Literal.bool true),
      ("false", Literal.bool false)] areWords_bool).spells chars value → Bare chars value
  | reference {segments : List String} : Lexeme.path.spells chars segments →
      ¬IsTruthValue segments → Bare chars (.ref segments)

/-- Whether a bare literal would go on into the text after it. -/
def bareRunsOn : Literal → List Char → Bool
  | .int _, text | .double _, text => text.head?.any isNameChar
  | .ref _, text => pathRunsOn text
  | _, text => text.head?.any isIdentChar

variable {chars : List Char} {value : Literal}

/-! ## By kinds -/

private theorem isDecimal_of_decimalLiteral? {numeral : List Char}
    (denotes : decimalLiteral? numeral = some value) : value.isDecimal = true := by
  unfold decimalLiteral? at denotes
  split at denotes
  · obtain ⟨number, -, rfl⟩ := Option.map_eq_some_iff.mp denotes
    rfl
  · obtain ⟨integer, -, rfl⟩ := Option.map_eq_some_iff.mp denotes
    rfl

/-- A decimal numeral spells a decimal value. -/
theorem isDecimal_of_spells (spells : Lexeme.decimal.spells chars value) :
    value.isDecimal = true := by
  obtain ⟨_, _, -, -, -, -, denotes⟩ := spells
  exact isDecimal_of_decimalLiteral? denotes

private theorem bareRunsOn_of_isDecimal (decimal : value.isDecimal = true) (text : List Char) :
    bareRunsOn value text = text.head?.any isNameChar := by
  cases value <;> first | rfl | cases decimal

private theorem bareRunsOn_of_truth
    (spells : (Lexeme.words [("true", Literal.bool true), ("false", Literal.bool false)]
      areWords_bool).spells chars value) (text : List Char) :
    bareRunsOn value text = text.head?.any isIdentChar := by
  obtain ⟨word, member, -⟩ := spells
  simp only [List.mem_cons, Prod.mk.injEq, List.not_mem_nil, or_false] at member
  rcases member with ⟨-, rfl⟩ | ⟨-, rfl⟩ <;> rfl

/-- What does not end a name ends every bare literal. -/
theorem bareRunsOn_of_stops (value : Literal) {text : List Char} (stops : Stops isNameChar text)
    (path : pathRunsOn text = false) : bareRunsOn value text = false := by
  have word : text.head?.any isIdentChar = false := stops.mono fun _ => isNameChar_of_isIdentChar
  cases value <;> first | exact stops | exact path | exact word

/-- A point before a figure ends every bare literal but a decimal number. -/
theorem bareRunsOn_point (apart : value.isDecimal = false) {figure : Char} {more : List Char}
    (digit : figure.isDigit) : bareRunsOn value ('.' :: figure :: more) = false := by
  have noSegment : isIdentStart figure = false := by
    by_contra starts
    have number := isNumberStart_of_isIdentStart (by simpa using starts)
    simp [isNumberStart, Parser.isDecimalChar, digit] at number
  cases value <;> first | rfl | exact noSegment | cases apart

/-- Nothing but a dot goes on in a name behind a bare literal, and not behind a decimal number. -/
theorem eq_dot_of_bareRunsOn {next : Char} {more : List Char} (named : isNameChar next)
    (ended : bareRunsOn value (next :: more) = false) :
    next = '.' ∧ value.isDecimal = false := by
  have apart : value.isDecimal = false := by
    by_contra decimal
    rw [bareRunsOn_of_isDecimal (by simpa using decimal)] at ended
    exact absurd named (by simpa using ended)
  refine ⟨?_, apart⟩
  by_contra other
  have inWord : isIdentChar next := by simpa [isNameChar, other] using named
  have path : pathRunsOn (next :: more) = isIdentChar next :=
    pathRunsOn.eq_2 _ _ fun _ _ same => absurd same other
  cases value <;> first
    | exact absurd inWord (by simpa [bareRunsOn, path] using ended)
    | cases apart

/-! ## Bare literals are the literals that begin as a name or a number does -/

/-- **Bare literals.** Where a text begins with a character of names, its literals are bare. -/
theorem literal_iff_bare {before after : View} (named : before.rest.head?.any isNameChar) :
    literal before value after ↔ ∃ chars more, before.rest = chars ++ more ∧ Bare chars value ∧
      bareRunsOn value more = false ∧ after = { before with rest := more }.skip := by
  rw [literal_iff]
  constructor
  · rintro ⟨form, member, here⟩
    -- The forms that are not bare begin with a quote or a bracket, which no name has.
    have apart {char : Char} (first : before.rest.head? = some char)
        (other : isNameChar char = false) : False := by
      rw [first, Option.any_some, other] at named
      cases named
    simp only [literalForms, List.mem_cons, List.not_mem_nil, or_false] at member
    rcases member with rfl | rfl | rfl | rfl | rfl | rfl | rfl | rfl
    case inl =>
      obtain ⟨number, ⟨chars, more, rest, spells, ended, rfl⟩, rfl⟩ := map_iff.mp here
      exact ⟨chars, more, rest, .hex spells, ended, rfl⟩
    case inr.inl =>
      obtain ⟨number, ⟨chars, more, rest, spells, ended, rfl⟩, rfl⟩ := map_iff.mp here
      exact ⟨chars, more, rest, .exponent spells, ended, rfl⟩
    case inr.inr.inl =>
      obtain ⟨chars, more, rest, spells, ended, rfl⟩ := here
      have decimal := isDecimal_of_spells spells
      exact ⟨chars, more, rest, .decimal spells, (bareRunsOn_of_isDecimal decimal more).trans ended,
        rfl⟩
    case inr.inr.inr.inl =>
      obtain ⟨chars, more, rest, spells, ended, rfl⟩ := here
      exact ⟨chars, more, rest, .truth spells, (bareRunsOn_of_truth spells more).trans ended, rfl⟩
    case inr.inr.inr.inr.inl =>
      obtain ⟨_, more, rest, ⟨quote, raw, quotes, rfl, -, -⟩, -, -⟩ := here
      have first : before.rest.head? = some quote := by rw [rest]; rfl
      simp only [isQuote, Bool.or_eq_true, beq_iff_eq] at quotes
      rcases quotes with rfl | rfl <;> exact (apart first rfl).elim
    case inr.inr.inr.inr.inr.inl => exact (apart ((Starts.bind starts_mark) here) rfl).elim
    case inr.inr.inr.inr.inr.inr.inl => exact (apart ((Starts.bind starts_mark) here) rfl).elim
    case inr.inr.inr.inr.inr.inr.inr =>
      obtain ⟨segments, ⟨⟨chars, more, rest, spells, ended, rfl⟩, reference⟩, rfl⟩ :=
        map_iff.mp here
      exact ⟨chars, more, rest, .reference spells reference, ended, rfl⟩
  · rintro ⟨chars, more, rest, bare, ended, rfl⟩
    cases bare with
    | hex spells =>
        exact ⟨Literal.hex <$> Lexeme.hex.phrase, by simp [literalForms],
          map_iff.mpr ⟨_, ⟨chars, more, rest, spells, ended, rfl⟩, rfl⟩⟩
    | exponent spells =>
        exact ⟨Literal.exponent <$> Lexeme.exponent.phrase, by simp [literalForms],
          map_iff.mpr ⟨_, ⟨chars, more, rest, spells, ended, rfl⟩, rfl⟩⟩
    | decimal spells =>
        rw [bareRunsOn_of_isDecimal (isDecimal_of_spells spells)] at ended
        exact ⟨Lexeme.decimal.phrase, by simp [literalForms], chars, more, rest, spells, ended, rfl⟩
    | truth spells =>
        rw [bareRunsOn_of_truth spells] at ended
        exact ⟨boolLiteral, by simp [literalForms], chars, more, rest, spells, ended, rfl⟩
    | reference spells reference =>
        exact ⟨refLiteral, by simp [literalForms],
          map_iff.mpr ⟨_, ⟨⟨chars, more, rest, spells, ended, rfl⟩, reference⟩, rfl⟩⟩

/-! ## Characters of bare literals -/

/-- A bare value has at least one character. -/
theorem Bare.ne_nil (bare : Bare chars value) : chars ≠ [] := by
  cases bare with
  | hex spells => exact Lexeme.hex.ne_nil spells
  | exponent spells => exact Lexeme.exponent.ne_nil spells
  | decimal spells => exact Lexeme.decimal.ne_nil spells
  | truth spells => exact Lexeme.ne_nil _ spells
  | reference spells => exact Lexeme.path.ne_nil spells

/-- A bare literal is made of characters of names and of signs. -/
theorem Bare.inside (bare : Bare chars value) : ∀ char ∈ chars, isNameChar char ∨ isSign char := by
  cases bare with
  | hex spells => exact chars_of_hex spells
  | exponent spells => exact chars_of_exponent spells
  | decimal spells => exact chars_of_decimal spells
  | truth spells =>
      obtain ⟨word, member, rfl⟩ := spells
      exact fun char inside => .inl (isNameChar_of_isIdentChar
        ((areWords_bool _ member).inside char inside))
  | reference spells =>
      obtain ⟨segments, -, identifiers, rfl, -⟩ := spells
      exact fun char inside => .inl (isNameChar_of_mem_intercalate identifiers char inside)

/-- Figures follow a point at the start of a numeral. -/
theorem exists_figure_of_ofNumeral? {rest : List Char} {number : Number.Binary64}
    (denotes : Number.Binary64.ofNumeral? ('.' :: rest) = some number) :
    ∃ figure more, rest = figure :: more ∧ figure.isDigit := by
  have unsigned : Number.Binary64.ofNumeral? ('.' :: rest) =
      Number.Binary64.ofUnsigned? false ('.' :: rest) := rfl
  have noFigure : Char.isDigit '.' = false := rfl
  rw [unsigned] at denotes
  cases rest with
  | nil => cases denotes
  | cons figure more =>
      refine ⟨figure, more, rfl, ?_⟩
      by_contra other
      simp [Number.Binary64.ofUnsigned?, noFigure, other, Number.ofDigits?] at denotes

/-- Figures follow a point at the start of a bare literal. -/
theorem Bare.exists_figure {rest : List Char} (bare : Bare ('.' :: rest) value) :
    ∃ figure more, rest = figure :: more ∧ figure.isDigit := by
  cases bare with
  | hex spells =>
      obtain ⟨sign, marker, digits, _, atMostOne, -, -, same, -⟩ := spells
      rcases atMostOne with rfl | ⟨char, rfl, minus⟩
      · cases same
      · cases same
        cases minus
  | exponent spells =>
      obtain ⟨_, _, _, _, _, -, -, -, -, -, -, -, -, denotes⟩ := spells
      exact exists_figure_of_ofNumeral? denotes
  | decimal spells =>
      obtain ⟨_, _, -, -, -, -, denotes⟩ := spells
      rw [decimalLiteral?, if_pos (by simp)] at denotes
      obtain ⟨number, denotes, -⟩ := Option.map_eq_some_iff.mp denotes
      exact exists_figure_of_ofNumeral? denotes
  | truth spells =>
      obtain ⟨word, member, same⟩ := spells
      obtain ⟨first, others, opened, begins⟩ := (areWords_bool _ member).exists_cons
      rw [← same] at opened
      cases opened
      cases begins
  | reference spells _ =>
      have here : path (.ofText ('.' :: rest)) _ _ :=
        ⟨'.' :: rest, [], (List.append_nil _).symm, spells, rfl, rfl⟩
      cases starts_path here

end Grammar
end ThriftIdl
