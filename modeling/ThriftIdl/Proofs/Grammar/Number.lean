import Mathlib.Algebra.Order.Ring.Nat
import ThriftIdl.Proofs.Grammar.Lexeme

/-!
# The grammar of numbers

A number is an optional sign, a run of figures and points, and what tells the three kinds of numbers
apart: an `x` after the first figure, an exponent, or neither. The rules for numbers read exactly
the tokens spelt so (`agrees_hexNumber`, `agrees_exponentNumber`, `agrees_decimalNumber`), and the
first character after sign and figures decides which of them can match (`afterFigures`).
-/

namespace ThriftIdl

open Source (Stops opensGap)
open ThriftIdl.Parser (View Rule Formed reads isIdentChar isNameChar isHexDigit isDecimalChar isSign
  decimalLiteral?)

namespace Grammar

open Phrase

variable {Value : Type}

/-! ## Parts of a number

The parts of a number stand next to each other; only the whole number has a gap after it.
-/

/-- At most one character, which passes a test. -/
def AtMostOne (test : Char → Bool) (chars : List Char) : Prop :=
  chars = [] ∨ ∃ char, chars = [char] ∧ test char

private theorem forall_mem_of_atMostOne {test : Char → Bool} {chars : List Char}
    (atMostOne : AtMostOne test chars) : ∀ char ∈ chars, test char := by
  rcases atMostOne with rfl | ⟨char, rfl, passes⟩
  · simp
  · simpa using passes

/-- A character that passes a test, if it comes next. -/
def optionalChar (test : Char → Bool) : Phrase (List Char) := fun before found after =>
  ∃ more, before.rest = found ++ more ∧ AtMostOne test found ∧ (found = [] → Stops test more) ∧
    after = { before with rest := more }

/-- The characters up to the first that fails a test. -/
def characters (test : Char → Bool) : Phrase (List Char) := fun before found after =>
  ∃ more, before.rest = found ++ more ∧ found.all test ∧ Stops test more ∧
    after = { before with rest := more }

/-- Whether the text goes on with a given one. -/
def startsWith (word : List Char) : Phrase Bool := fun before found after =>
  found = word.isPrefixOf before.rest ∧ after = before

/-- A number of characters. -/
def advance (count : Nat) : Phrase Unit := fun before _ after =>
  after = { before with rest := before.rest.drop count }

/-- The end of a number with the gap after it. -/
def endOfNumber : Phrase Unit := fun before _ after =>
  Stops isIdentChar before.rest ∧ after = before.skip

/-- No text, provided that a condition holds. -/
def provided (condition : Prop) : Phrase Unit := fun before _ after =>
  condition ∧ after = before

/-- No text, with a value if there is one. -/
def given (value? : Option Value) : Phrase Value := fun before found after =>
  value? = some found ∧ after = before

/-- A condition leaves the text alone. -/
theorem narrows_provided (condition : Prop) : (provided condition).Narrows := by
  rintro before value after ⟨-, rfl⟩
  exact Nat.le_refl _

/-- A value that may be missing leaves the text alone. -/
theorem narrows_given (value? : Option Value) : (given value?).Narrows := by
  rintro before value after ⟨-, rfl⟩
  exact Nat.le_refl _

section Conditions

variable {First : Type} {condition : Prop} [Decidable condition] {rule : Rule Value}
  {phrase : Phrase Value} {follow : Value → View → Prop} {reason : Reason}

/-- A rule that misses unless a condition holds. -/
theorem agrees_provided (agrees : Agrees rule phrase follow) :
    Agrees (if condition then rule else Parser.missFor reason)
      (provided condition >>= fun _ => phrase) follow := by
  by_cases holds : condition
  · refine ⟨by rw [if_pos holds]; exact agrees.formed, fun {before value after} met => ?_⟩
    rw [if_pos holds, agrees.iff met]
    exact ⟨fun here => ⟨(), before, ⟨holds, rfl⟩, here⟩, fun ⟨_, _, ⟨_, same⟩, here⟩ => same ▸ here⟩
  · refine ⟨by rw [if_neg holds]; exact .missFor reason, fun {before value after} _ => ?_⟩
    rw [if_neg holds, Parser.reads_missFor]
    exact ⟨fun read => (by cases read), fun ⟨_, _, ⟨held, _⟩, _⟩ => absurd held holds⟩

/-- A rule that misses if a condition holds. -/
theorem agrees_unless (agrees : Agrees rule phrase follow) :
    Agrees (if condition then Parser.missFor reason else rule)
      (provided (¬condition) >>= fun _ => phrase) follow := by
  rw [← ite_not]
  exact agrees_provided agrees

private theorem agrees_given_none {later : First → Phrase Value} :
    Agrees (Parser.missFor reason) (given none >>= later) follow := by
  refine ⟨.missFor reason, fun {before value after} _ => ?_⟩
  rw [Parser.reads_missFor]
  exact ⟨fun read => (by cases read), fun ⟨_, _, ⟨absent, _⟩, _⟩ => (by cases absent)⟩

private theorem agrees_given_some {value : First} {later : First → Phrase Value}
    (agrees : Agrees rule (later value) follow) :
    Agrees rule (given (some value) >>= later) follow := by
  refine ⟨agrees.formed, fun {before found after} met => ?_⟩
  rw [agrees.iff met]
  refine ⟨fun here => ⟨value, before, ⟨rfl, rfl⟩, here⟩, ?_⟩
  rintro ⟨_, _, ⟨same, rfl⟩, here⟩
  cases same
  exact here

end Conditions

/-- A character that may be left out is read where it stands. -/
theorem agrees_optionalChar (test : Char → Bool) :
    Agrees (Parser.optionalChar test) (optionalChar test) anything := by
  refine ⟨.optionalChar test, fun {before value after} _ => ?_⟩
  obtain ⟨text, head, tail⟩ := before
  cases text with
  | nil =>
      have read : reads (Parser.optionalChar test) ⟨[], head, tail⟩ = some ([], ⟨[], head, tail⟩) :=
        rfl
      rw [read, Option.some.injEq]
      constructor
      · intro same
        cases same
        exact ⟨[], rfl, .inl rfl, fun _ => rfl, rfl⟩
      · rintro ⟨more, rest, rfl | ⟨char, rfl, passes⟩, stops, rfl⟩
        · obtain rfl : [] = more := rest
          rfl
        · cases rest
  | cons char others =>
      have read : reads (Parser.optionalChar test) ⟨char :: others, head, tail⟩ =
          if test char then some ([char], ⟨others, head, tail⟩)
          else some ([], ⟨char :: others, head, tail⟩) := by
        have looked : reads (Parser.optionalChar test) ⟨char :: others, head, tail⟩ =
            reads (if test char then do
                Parser.advance 1
                return [char]
              else return []) ⟨char :: others, head, tail⟩ := rfl
        rw [looked]
        split <;> rfl
      rw [read]
      by_cases passes : test char
      · rw [if_pos passes, Option.some.injEq]
        constructor
        · intro same
          cases same
          exact ⟨others, rfl, .inr ⟨char, rfl, passes⟩, by simp, rfl⟩
        · rintro ⟨more, rest, rfl | ⟨first, rfl, begins⟩, stops, rfl⟩
          · obtain rfl : char :: others = more := rest
            rw [Source.stops_cons.mp (stops rfl)] at passes
            cases passes
          · cases rest
            rfl
      · rw [if_neg passes, Option.some.injEq]
        constructor
        · intro same
          cases same
          exact ⟨char :: others, rfl, .inl rfl, fun _ => by simpa using passes, rfl⟩
        · rintro ⟨more, rest, rfl | ⟨first, rfl, begins⟩, stops, rfl⟩
          · obtain rfl : char :: others = more := rest
            rfl
          · cases rest
            exact absurd begins passes

private theorem agrees_characters (test : Char → Bool) :
    Agrees (Parser.takeWhile test) (characters test) anything := by
  refine ⟨.takeWhile test, fun {before value after} _ => ?_⟩
  rw [Parser.reads_takeWhile, Option.some.injEq, Prod.mk.injEq]
  constructor
  · rintro ⟨rfl, rfl⟩
    exact ⟨_, List.takeWhile_append_dropWhile.symm, List.all_takeWhile,
      Source.stops_dropWhile _ _, rfl⟩
  · rintro ⟨more, rest, inside, stops, rfl⟩
    rw [rest, stops.takeWhile_append (List.all_eq_true.mp inside),
      stops.dropWhile_append (List.all_eq_true.mp inside)]
    exact ⟨rfl, rfl⟩

private theorem agrees_startsWith (word : List Char) :
    Agrees (Parser.startsWith word) (startsWith word) anything := by
  refine ⟨.startsWith word, fun {before value after} _ => ?_⟩
  have looked : Parser.startsWith word =
      Parser.look fun text => pure (word.isPrefixOf text) := rfl
  rw [looked, Parser.reads_look, Parser.reads_pure, Option.some.injEq, Prod.mk.injEq]
  exact ⟨fun same => ⟨same.1.symm, same.2.symm⟩, fun same => ⟨same.1.symm, same.2.symm⟩⟩

private theorem agrees_advance (count : Nat) :
    Agrees (Parser.advance count) (advance count) anything := by
  refine ⟨.advance count, fun {before value after} _ => ?_⟩
  rw [Parser.reads_advance, Option.some.injEq, Prod.mk.injEq]
  exact ⟨fun same => same.2.symm, fun same => ⟨rfl, same.symm⟩⟩

private theorem agrees_endOfNumber : Agrees Parser.endOfNumber endOfNumber anything := by
  refine ⟨.endOfNumber, fun {before value after} _ => ?_⟩
  have looked : Parser.endOfNumber = Parser.look fun text =>
      if text.head?.any isIdentChar then Parser.expected .endOfNumber else Parser.skip := rfl
  rw [looked, Parser.reads_look]
  unfold endOfNumber Stops
  by_cases runs : before.rest.head?.any isIdentChar
  · simp [runs]
  · rw [if_neg runs, Parser.reads_skip]
    simp [runs, eq_comm]

/-! ## Characters of numbers -/

/-- Digits may stand in identifiers. -/
theorem isIdentChar_of_isDigit {char : Char} (digit : char.isDigit) : isIdentChar char := by
  simp [isIdentChar, Char.isAlphanum, digit]

/-- The characters of a decimal numeral may stand in names. -/
theorem isNameChar_of_isDecimalChar {char : Char} (decimal : isDecimalChar char) :
    isNameChar char := by
  simp only [isDecimalChar, Bool.or_eq_true] at decimal
  rcases decimal with digit | dot
  · exact isNameChar_of_isIdentChar (isIdentChar_of_isDigit digit)
  · simp [isNameChar, dot]

private theorem not_isSign_of_isDecimalChar {char : Char} (decimal : isDecimalChar char) :
    isSign char = false := by
  by_contra sign
  simp only [isSign, Bool.not_eq_false, Bool.or_eq_true, beq_iff_eq] at sign
  rcases sign with rfl | rfl <;> cases decimal

private theorem opensGap_of_isSign {char : Char} (sign : isSign char) : opensGap char = false := by
  simp only [isSign, Bool.or_eq_true, beq_iff_eq] at sign
  rcases sign with rfl | rfl <;> rfl

/-- Whether a number may begin with a character. -/
def isNumberStart (char : Char) : Bool :=
  isSign char || isDecimalChar char

private theorem opensGap_of_isNumberStart {char : Char} (starts : isNumberStart char) :
    opensGap char = false := by
  simp only [isNumberStart, Bool.or_eq_true] at starts
  rcases starts with sign | decimal
  · exact opensGap_of_isSign sign
  · exact opensGap_of_isNameChar (isNameChar_of_isDecimalChar decimal)

/-- A text after the sign at its start, if there is one. -/
def afterSign : List Char → List Char
  | [] => []
  | char :: rest => if isSign char then rest else char :: rest

/-- A text after the sign, the figures and the points at its start. -/
def afterFigures (text : List Char) : List Char :=
  (afterSign text).dropWhile isDecimalChar

/-- What comes after a sign is what was written behind it. -/
theorem afterSign_append {sign more : List Char} (atMostOne : AtMostOne isSign sign)
    (stops : sign = [] → Stops isSign more) : afterSign (sign ++ more) = more := by
  rcases atMostOne with rfl | ⟨char, rfl, passes⟩
  · cases more with
    | nil => rfl
    | cons char rest => simp [afterSign, Source.stops_cons.mp (stops rfl)]
  · simp [afterSign, passes]

/-- No sign stands where figures do. -/
theorem stops_isSign_of_figures {figures : List Char} (more : List Char)
    (inside : figures.all isDecimalChar) (nonempty : figures ≠ []) :
    Stops isSign (figures ++ more) := by
  obtain ⟨first, rest, rfl⟩ := List.exists_cons_of_ne_nil nonempty
  simp only [List.all_cons, Bool.and_eq_true] at inside
  exact Source.stops_cons.mpr (not_isSign_of_isDecimalChar inside.1)

/-- Sign and figures are followed by the text after the figures. -/
theorem afterFigures_append {sign figures more : List Char} (atMostOne : AtMostOne isSign sign)
    (inside : figures.all isDecimalChar) (nonempty : figures ≠ [])
    (stops : Stops isDecimalChar more) : afterFigures (sign ++ (figures ++ more)) = more := by
  rw [afterFigures,
    afterSign_append atMostOne fun _ => stops_isSign_of_figures _ inside nonempty,
    stops.dropWhile_append (List.all_eq_true.mp inside)]

/-- What begins with an optional sign and figures begins as a number does. -/
theorem exists_cons_of_figures {sign figures : List Char} (more : List Char)
    (atMostOne : AtMostOne isSign sign) (inside : figures.all isDecimalChar)
    (nonempty : figures ≠ []) :
    ∃ first rest, sign ++ (figures ++ more) = first :: rest ∧ isNumberStart first := by
  rcases atMostOne with rfl | ⟨char, rfl, passes⟩
  · obtain ⟨first, rest, rfl⟩ := List.exists_cons_of_ne_nil nonempty
    simp only [List.all_cons, Bool.and_eq_true] at inside
    exact ⟨first, rest ++ more, rfl, by simp [isNumberStart, inside.1]⟩
  · exact ⟨char, figures ++ more, rfl, by simp [isNumberStart, passes]⟩

/-- Figures with a digit among them are not empty. -/
theorem ne_nil_of_any_isDigit {figures : List Char} (digits : figures.any Char.isDigit) :
    figures ≠ [] := by
  rintro rfl
  cases digits

/-! ## Hexadecimal integers -/

/-- A hexadecimal integer by its parts. -/
def hexParts : Phrase Int64 := do
  let sign ← optionalChar (· == '-')
  let lower ← startsWith ['0', 'x']
  let upper ← startsWith ['0', 'X']
  provided (lower || upper)
  advance 2
  let digits ← characters isHexDigit
  let magnitude ← given (Number.ofDigits? 16 digits)
  provided (magnitude < 2 ^ 63)
  endOfNumber
  return Int64.ofInt (if sign.isEmpty then magnitude else -magnitude)

private theorem agrees_hexParts : Agrees Parser.hexNumber hexParts anything := by
  refine (agrees_optionalChar _).bind fun _ => (agrees_startsWith _).bind fun _ =>
    (agrees_startsWith _).bind fun _ => agrees_provided <| (agrees_advance 2).bind fun _ =>
    (agrees_characters _).bind fun digits => ?_
  cases Number.ofDigits? 16 digits with
  | none => exact agrees_given_none
  | some magnitude =>
      exact agrees_given_some <| agrees_provided <| agrees_endOfNumber.bind fun _ => .pure _

/-- A hexadecimal integer: an optional minus sign, a zero and an `x` in either case, and digits. -/
def Lexeme.hex : Lexeme Int64 where
  spells chars value := ∃ sign marker digits magnitude,
    AtMostOne (· == '-') sign ∧ (marker = 'x' ∨ marker = 'X') ∧ digits.all isHexDigit ∧
      chars = sign ++ '0' :: marker :: digits ∧ Number.ofDigits? 16 digits = some magnitude ∧
      magnitude < 2 ^ 63 ∧ value = Int64.ofInt (if sign.isEmpty then magnitude else -magnitude)
  runsOn text := text.head?.any isIdentChar
  opens := by
    rintro _ value ⟨sign, marker, digits, magnitude, atMostOne, -, -, rfl, -, -, -⟩
    rcases atMostOne with rfl | ⟨char, rfl, passes⟩
    · exact ⟨'0', _, rfl, rfl⟩
    · obtain rfl : char = '-' := by simpa using passes
      exact ⟨'-', _, rfl, rfl⟩
  settles := @settles_word

/-- Hexadecimal digits may stand in identifiers. -/
theorem isHexDigit_isIdentChar {char : Char} (digit : isHexDigit char) : isIdentChar char := by
  simp only [isHexDigit, Number.digit?, Option.isSome_filter] at digit
  have spelled : isIdentChar char =
      (char.isUpper || char.isLower || char.isDigit || char == '_') := rfl
  rw [spelled]
  split at digit
  · next figure => simp [figure]
  · split at digit
    · next lower => simp [lower]
    · split at digit
      · next upper => simp [upper]
      · simp at digit

/-- The marker of a hexadecimal numeral is a zero and an `x` of either case. -/
theorem marker_iff {text : List Char} :
    (['0', 'x'].isPrefixOf text || ['0', 'X'].isPrefixOf text) = true ↔
      ∃ marker rest, (marker = 'x' ∨ marker = 'X') ∧ text = '0' :: marker :: rest := by
  simp only [Bool.or_eq_true, List.isPrefixOf_iff_prefix]
  constructor
  · rintro (⟨rest, rfl⟩ | ⟨rest, rfl⟩)
    · exact ⟨'x', rest, .inl rfl, rfl⟩
    · exact ⟨'X', rest, .inr rfl, rfl⟩
  · rintro ⟨marker, rest, rfl | rfl, rfl⟩
    · exact .inl ⟨rest, rfl⟩
    · exact .inr ⟨rest, rfl⟩

private theorem hexParts_iff {before after : View} {value : Int64} :
    hexParts before value after ↔ Lexeme.hex.phrase before value after := by
  obtain ⟨text, head, tail⟩ := before
  constructor
  · rintro ⟨sign, _, ⟨more, same, atMostOne, -, rfl⟩, lower, _, ⟨rfl, rfl⟩, upper, _, ⟨rfl, rfl⟩,
      _, _, ⟨marked, rfl⟩, _, _, rfl, digits, _, ⟨more', rest, inside, stops, rfl⟩, magnitude, _,
      ⟨read, rfl⟩, _, _, ⟨small, rfl⟩, _, _, ⟨ended, rfl⟩, rfl, rfl⟩
    obtain ⟨marker, others, isMarker, marks⟩ := marker_iff.mp marked
    obtain rfl : text = sign ++ more := same
    obtain rfl : more = '0' :: marker :: others := marks
    obtain rfl : others = digits ++ more' := rest
    exact ⟨sign ++ '0' :: marker :: digits, more', by simp,
      ⟨sign, marker, digits, magnitude, atMostOne, isMarker, inside, rfl, read, small, rfl⟩, ended,
      rfl⟩
  · rintro ⟨_, more, same, ⟨sign, marker, digits, magnitude, atMostOne, isMarker, inside, rfl, read,
      small, rfl⟩, ended, rfl⟩
    obtain rfl : text = sign ++ '0' :: marker :: (digits ++ more) := by simpa using same
    have stops : Stops isHexDigit more :=
      Stops.mono (show Stops isIdentChar more from ended) fun _ => isHexDigit_isIdentChar
    exact ⟨sign, ⟨'0' :: marker :: (digits ++ more), head, tail⟩,
      ⟨_, rfl, atMostOne, fun _ => rfl, rfl⟩, _, _, ⟨rfl, rfl⟩, _, _, ⟨rfl, rfl⟩, (), _,
      ⟨marker_iff.mpr ⟨marker, _, isMarker, rfl⟩, rfl⟩, (), ⟨digits ++ more, head, tail⟩, rfl,
      digits, ⟨more, head, tail⟩, ⟨more, rfl, inside, stops, rfl⟩, magnitude, _, ⟨read, rfl⟩, (), _,
      ⟨small, rfl⟩, (), _, ⟨ended, rfl⟩, rfl, rfl⟩

/-- The rule for hexadecimal integers reads exactly their tokens. -/
theorem agrees_hexNumber : Agrees Parser.hexNumber Lexeme.hex.phrase anything :=
  ⟨.hexNumber, fun _ => agrees_hexParts.always.trans hexParts_iff⟩

/-- After its first figure a hexadecimal integer has an `x`. -/
theorem starts_hex : Lexeme.hex.phrase.Starts fun text =>
    (afterFigures text).head? = some 'x' ∨ (afterFigures text).head? = some 'X' := by
  refine Lexeme.starts_phrase _ fun spelt more _ => ?_
  obtain ⟨sign, marker, digits, magnitude, atMostOne, isMarker, -, rfl, -, -, -⟩ := spelt
  have signed : AtMostOne isSign sign := atMostOne.imp_right fun ⟨char, same, minus⟩ =>
    ⟨char, same, by simp [isSign, beq_iff_eq.mp minus]⟩
  have text : sign ++ '0' :: marker :: digits ++ more =
      sign ++ (['0'] ++ marker :: (digits ++ more)) := by simp
  have stops : Stops isDecimalChar (marker :: (digits ++ more)) := by
    rw [Source.stops_cons]
    rcases isMarker with rfl | rfl <;> rfl
  rw [text, afterFigures_append signed rfl (by simp) stops]
  rcases isMarker with rfl | rfl
  · exact .inl rfl
  · exact .inr rfl

/-! ## Numbers with an exponent -/

/-- Whether a character introduces an exponent. -/
def isExponentLetter (char : Char) : Bool :=
  char == 'e' || char == 'E'

/-- A number with an exponent by its parts. -/
def exponentParts : Phrase Number.Binary64 := do
  let sign ← optionalChar isSign
  let mantissa ← characters isDecimalChar
  provided (¬(!mantissa.any Char.isDigit) = true)
  let letter ← optionalChar isExponentLetter
  provided (¬letter.isEmpty = true)
  let exponentSign ← optionalChar isSign
  let digits ← characters Char.isDigit
  provided (¬digits.isEmpty = true)
  let number ← given
    (Number.Binary64.ofNumeral? (sign ++ mantissa ++ letter ++ exponentSign ++ digits))
  endOfNumber
  return number

private theorem agrees_exponentParts : Agrees Parser.exponentNumber exponentParts anything := by
  refine (agrees_optionalChar _).bind fun sign => (agrees_characters _).bind fun mantissa =>
    agrees_unless <| (agrees_optionalChar _).bind fun letter => agrees_unless <|
    (agrees_optionalChar _).bind fun second => (agrees_characters _).bind fun digits =>
    agrees_unless ?_
  cases Number.Binary64.ofNumeral? (sign ++ mantissa ++ letter ++ second ++ digits) with
  | none => exact agrees_given_none
  | some number => exact agrees_given_some <| agrees_endOfNumber.bind fun _ => .pure _

/-- A number with an exponent: an optional sign, figures and points, an `e` in either case, an
optional sign, and digits. -/
def Lexeme.exponent : Lexeme Number.Binary64 where
  spells chars value := ∃ sign mantissa letter exponentSign digits,
    AtMostOne isSign sign ∧ mantissa.all isDecimalChar ∧ mantissa.any Char.isDigit ∧
      isExponentLetter letter ∧ AtMostOne isSign exponentSign ∧ digits.all Char.isDigit ∧
      digits ≠ [] ∧ chars = sign ++ mantissa ++ [letter] ++ exponentSign ++ digits ∧
      Number.Binary64.ofNumeral? chars = some value
  runsOn text := text.head?.any isIdentChar
  opens := by
    rintro _ value ⟨sign, mantissa, letter, exponentSign, digits, atMostOne, inside, figures, -, -,
      -, -, rfl, -⟩
    obtain ⟨first, rest, same, starts⟩ := exists_cons_of_figures
      ([letter] ++ exponentSign ++ digits) atMostOne inside (ne_nil_of_any_isDigit figures)
    exact ⟨first, rest, by rw [← same]; simp, opensGap_of_isNumberStart starts⟩
  settles := @settles_word

private theorem exponentParts_iff {before after : View} {value : Number.Binary64} :
    exponentParts before value after ↔ Lexeme.exponent.phrase before value after := by
  obtain ⟨text, head, tail⟩ := before
  constructor
  · rintro ⟨sign, _, ⟨more₁, same₁, atMostOne, -, rfl⟩, mantissa, _,
      ⟨more₂, same₂, inside, stops, rfl⟩, _, _, ⟨figures, rfl⟩, letter, _,
      ⟨more₃, same₃, one, -, rfl⟩, _, _, ⟨present, rfl⟩, exponentSign, _,
      ⟨more₄, same₄, atMostOne', -, rfl⟩, digits, _, ⟨more₅, same₅, inside', -, rfl⟩, _, _,
      ⟨nonempty, rfl⟩, number, _, ⟨read, rfl⟩, _, _, ⟨ended, rfl⟩, rfl, rfl⟩
    obtain rfl : text = sign ++ more₁ := same₁
    obtain rfl : more₁ = mantissa ++ more₂ := same₂
    obtain rfl : more₂ = letter ++ more₃ := same₃
    obtain rfl : more₃ = exponentSign ++ more₄ := same₄
    obtain rfl : more₄ = digits ++ more₅ := same₅
    obtain ⟨letter, rfl, isLetter⟩ := one.resolve_left (by simpa using present)
    exact ⟨sign ++ mantissa ++ [letter] ++ exponentSign ++ digits, more₅, by simp,
      ⟨sign, mantissa, letter, exponentSign, digits, atMostOne, inside, by simpa using figures,
        isLetter, atMostOne', inside', by simpa using nonempty, rfl, read⟩, ended, rfl⟩
  · rintro ⟨_, more, same, ⟨sign, mantissa, letter, exponentSign, digits, atMostOne, inside,
      figures, isLetter, atMostOne', inside', nonempty, rfl, read⟩, ended, rfl⟩
    obtain rfl : text = sign ++ (mantissa ++ ([letter] ++ (exponentSign ++ (digits ++ more)))) := by
      simpa using same
    have unsigned := stops_isSign_of_figures
      ([letter] ++ (exponentSign ++ (digits ++ more))) inside (ne_nil_of_any_isDigit figures)
    have unsigned' := stops_isSign_of_figures more
      (List.all_eq_true.mpr fun char member => by
        simp [isDecimalChar, List.all_eq_true.mp inside' char member]) nonempty
    have stops : Stops isDecimalChar ([letter] ++ (exponentSign ++ (digits ++ more))) := by
      simp only [isExponentLetter, Bool.or_eq_true, beq_iff_eq] at isLetter
      rcases isLetter with rfl | rfl <;> rfl
    have stops' : Stops Char.isDigit more :=
      Stops.mono (show Stops isIdentChar more from ended) fun _ => isIdentChar_of_isDigit
    exact ⟨sign, ⟨_, head, tail⟩, ⟨_, rfl, atMostOne, fun _ => unsigned, rfl⟩, mantissa,
      ⟨_, head, tail⟩, ⟨_, rfl, inside, stops, rfl⟩, (), _, ⟨by simpa using figures, rfl⟩, [letter],
      ⟨_, head, tail⟩, ⟨_, rfl, .inr ⟨letter, rfl, isLetter⟩, by simp, rfl⟩, (), _, ⟨by simp, rfl⟩,
      exponentSign, ⟨_, head, tail⟩, ⟨_, rfl, atMostOne', fun _ => unsigned', rfl⟩, digits,
      ⟨_, head, tail⟩, ⟨_, rfl, inside', stops', rfl⟩, (), _, ⟨by simpa using nonempty, rfl⟩, value,
      _, ⟨read, rfl⟩, (), _, ⟨ended, rfl⟩, rfl, rfl⟩

/-- The rule for numbers with an exponent reads exactly their tokens. -/
theorem agrees_exponentNumber : Agrees Parser.exponentNumber Lexeme.exponent.phrase anything :=
  ⟨.exponentNumber, fun _ => agrees_exponentParts.always.trans exponentParts_iff⟩

/-- After its figures a number with an exponent has an `e`. -/
theorem starts_exponent : Lexeme.exponent.phrase.Starts fun text =>
    (afterFigures text).head?.any isExponentLetter := by
  refine Lexeme.starts_phrase _ fun spelt more _ => ?_
  obtain ⟨sign, mantissa, letter, exponentSign, digits, atMostOne, inside, figures, isLetter, -, -,
    -, rfl, -⟩ := spelt
  have text : sign ++ mantissa ++ [letter] ++ exponentSign ++ digits ++ more =
      sign ++ (mantissa ++ letter :: (exponentSign ++ digits ++ more)) := by simp
  have stops : Stops isDecimalChar (letter :: (exponentSign ++ digits ++ more)) := by
    rw [Source.stops_cons]
    simp only [isExponentLetter, Bool.or_eq_true, beq_iff_eq] at isLetter
    rcases isLetter with rfl | rfl <;> rfl
  rw [text, afterFigures_append atMostOne inside (ne_nil_of_any_isDigit figures) stops]
  simpa using isLetter

/-! ## Decimal numbers -/

/-- A decimal number by its parts. -/
def decimalParts : Phrase Literal := do
  let sign ← optionalChar isSign
  let body ← characters isDecimalChar
  provided (¬(!body.any Char.isDigit) = true)
  let literal ← given (decimalLiteral? (sign ++ body))
  endOfNumber
  return literal

private theorem agrees_decimalParts : Agrees Parser.decimalNumber decimalParts anything := by
  refine (agrees_optionalChar _).bind fun sign => (agrees_characters _).bind fun body =>
    agrees_unless ?_
  cases decimalLiteral? (sign ++ body) with
  | none => exact agrees_given_none
  | some number => exact agrees_given_some <| agrees_endOfNumber.bind fun _ => .pure _

/-- A decimal number: an optional sign, figures and points. -/
def Lexeme.decimal : Lexeme Literal where
  spells chars value := ∃ sign body, AtMostOne isSign sign ∧ body.all isDecimalChar ∧
    body.any Char.isDigit ∧ chars = sign ++ body ∧ decimalLiteral? chars = some value
  runsOn text := text.head?.any isNameChar
  opens := by
    rintro _ value ⟨sign, body, atMostOne, inside, figures, rfl, -⟩
    obtain ⟨first, rest, same, starts⟩ := exists_cons_of_figures [] atMostOne inside
      (ne_nil_of_any_isDigit figures)
    exact ⟨first, rest, by rw [← same]; simp, opensGap_of_isNumberStart starts⟩
  settles := settles_head fun _ => opensGap_of_isNameChar

private theorem decimalParts_iff {before after : View} {value : Literal} :
    decimalParts before value after ↔ Lexeme.decimal.phrase before value after := by
  obtain ⟨text, head, tail⟩ := before
  constructor
  · rintro ⟨sign, _, ⟨more₁, same₁, atMostOne, -, rfl⟩, body, _, ⟨more₂, same₂, inside, stops, rfl⟩,
      _, _, ⟨figures, rfl⟩, literal, _, ⟨read, rfl⟩, _, _, ⟨ended, rfl⟩, rfl, rfl⟩
    obtain rfl : text = sign ++ more₁ := same₁
    obtain rfl : more₁ = body ++ more₂ := same₂
    -- No character of identifiers follows and no point, so none of names.
    have apart : Stops isNameChar more₂ := by
      have ended : Stops isIdentChar more₂ := ended
      cases more₂ with
      | nil => rfl
      | cons char rest =>
          rw [Source.stops_cons] at ended stops ⊢
          simp only [isDecimalChar, Bool.or_eq_false_iff] at stops
          simp [isNameChar, ended, stops.2]
    exact ⟨sign ++ body, more₂, by simp,
      ⟨sign, body, atMostOne, inside, by simpa using figures, rfl, read⟩, apart, rfl⟩
  · rintro ⟨_, more, same, ⟨sign, body, atMostOne, inside, figures, rfl, read⟩, ended, rfl⟩
    obtain rfl : text = sign ++ (body ++ more) := by simpa using same
    have unsigned := stops_isSign_of_figures more inside (ne_nil_of_any_isDigit figures)
    have ended : Stops isNameChar more := ended
    have stops : Stops isDecimalChar more :=
      ended.mono fun _ => isNameChar_of_isDecimalChar
    have apart : Stops isIdentChar more :=
      ended.mono fun _ => isNameChar_of_isIdentChar
    exact ⟨sign, ⟨_, head, tail⟩, ⟨_, rfl, atMostOne, fun _ => unsigned, rfl⟩, body,
      ⟨_, head, tail⟩, ⟨_, rfl, inside, stops, rfl⟩, (), _, ⟨by simpa using figures, rfl⟩, value, _,
      ⟨read, rfl⟩, (), _, ⟨apart, rfl⟩, rfl, rfl⟩

/-- The rule for decimal numbers reads exactly their tokens. -/
theorem agrees_decimalNumber : Agrees Parser.decimalNumber Lexeme.decimal.phrase anything :=
  ⟨.decimalNumber, fun _ => agrees_decimalParts.always.trans decimalParts_iff⟩

/-- After its figures a decimal number runs on into no name. -/
theorem starts_decimal : Lexeme.decimal.phrase.Starts fun text =>
    Stops isNameChar (afterFigures text) := by
  refine Lexeme.starts_phrase _ fun spelt more ended => ?_
  obtain ⟨sign, body, atMostOne, inside, figures, rfl, -⟩ := spelt
  have ended : Stops isNameChar more := ended
  rw [List.append_assoc, afterFigures_append atMostOne inside (ne_nil_of_any_isDigit figures)
    (ended.mono fun _ => isNameChar_of_isDecimalChar)]
  exact ended

/-! ## The characters of a numeral -/

section Characters

variable {chars : List Char}

/-- A hexadecimal numeral is made of characters of names and signs. -/
theorem chars_of_hex {value : Int64} (spells : Lexeme.hex.spells chars value) :
    ∀ char ∈ chars, isNameChar char ∨ isSign char := by
  obtain ⟨sign, marker, digits, _, atMostOne, isMarker, inside, rfl, -⟩ := spells
  have minus := forall_mem_of_atMostOne atMostOne
  intro char member
  simp only [List.mem_append, List.mem_cons] at member
  rcases member with here | rfl | rfl | here
  · exact .inr (by simp [isSign, minus char here])
  · exact .inl rfl
  · rcases isMarker with rfl | rfl <;> exact .inl rfl
  · exact .inl (isNameChar_of_isIdentChar (isHexDigit_isIdentChar
      (List.all_eq_true.mp inside char here)))

/-- A numeral with an exponent is made of characters of names and signs. -/
theorem chars_of_exponent {value : Number.Binary64} (spells : Lexeme.exponent.spells chars value) :
    ∀ char ∈ chars, isNameChar char ∨ isSign char := by
  obtain ⟨sign, mantissa, letter, exponentSign, digits, atMostOne, inside, -, isLetter, atMostOne',
    inside', -, rfl, -⟩ := spells
  intro char member
  simp only [List.mem_append, List.mem_cons, List.not_mem_nil, or_false] at member
  rcases member with (((here | here) | rfl) | here) | here
  · exact .inr (forall_mem_of_atMostOne atMostOne char here)
  · exact .inl (isNameChar_of_isDecimalChar (List.all_eq_true.mp inside char here))
  · simp only [isExponentLetter, Bool.or_eq_true, beq_iff_eq] at isLetter
    rcases isLetter with rfl | rfl <;> exact .inl rfl
  · exact .inr (forall_mem_of_atMostOne atMostOne' char here)
  · exact .inl (isNameChar_of_isIdentChar (isIdentChar_of_isDigit
      (List.all_eq_true.mp inside' char here)))

/-- A decimal numeral is made of characters of names and signs. -/
theorem chars_of_decimal {value : Literal} (spells : Lexeme.decimal.spells chars value) :
    ∀ char ∈ chars, isNameChar char ∨ isSign char := by
  obtain ⟨sign, body, atMostOne, inside, -, rfl, -⟩ := spells
  intro char member
  rcases List.mem_append.mp member with here | here
  · exact .inr (forall_mem_of_atMostOne atMostOne char here)
  · exact .inl (isNameChar_of_isDecimalChar (List.all_eq_true.mp inside char here))

end Characters

/-! ## Integers in either base -/

/-- A hexadecimal number begins as numbers do. -/
theorem starts_hex_number : Lexeme.hex.phrase.Starts fun text => text.head?.any isNumberStart := by
  refine Lexeme.starts_phrase _ fun spelt more _ => ?_
  obtain ⟨sign, marker, digits, magnitude, atMostOne, -, -, rfl, -, -, -⟩ := spelt
  rcases atMostOne with rfl | ⟨char, rfl, minus⟩
  · rfl
  · simp [isNumberStart, isSign, beq_iff_eq.mp minus]

/-- A number with an exponent begins as numbers do. -/
theorem starts_exponent_number :
    Lexeme.exponent.phrase.Starts fun text => text.head?.any isNumberStart := by
  refine Lexeme.starts_phrase _ fun spelt more _ => ?_
  obtain ⟨sign, mantissa, letter, exponentSign, digits, atMostOne, inside, figures, -, -, -, -, rfl,
    -⟩ := spelt
  obtain ⟨first, rest, same, starts⟩ := exists_cons_of_figures
    ([letter] ++ exponentSign ++ digits ++ more) atMostOne inside
    (ne_nil_of_any_isDigit figures)
  have text : sign ++ mantissa ++ [letter] ++ exponentSign ++ digits ++ more = first :: rest := by
    rw [← same]
    simp
  rw [text]
  simpa using starts

/-- A decimal number begins as numbers do. -/
theorem starts_decimal_number :
    Lexeme.decimal.phrase.Starts fun text => text.head?.any isNumberStart := by
  refine Lexeme.starts_phrase _ fun spelt more _ => ?_
  obtain ⟨sign, body, atMostOne, inside, figures, rfl, -⟩ := spelt
  obtain ⟨first, rest, same, starts⟩ := exists_cons_of_figures more atMostOne inside
    (ne_nil_of_any_isDigit figures)
  rw [List.append_assoc, same]
  simpa using starts

/-- A decimal integer. -/
def decimalInteger : Phrase Int64 := fun before value after =>
  Lexeme.decimal.phrase before (.int value) after

/-- A decimal integer is read where its numeral has no point and is in range. -/
theorem agrees_decimalInteger : Agrees Parser.decimalInteger decimalInteger anything := by
  refine ⟨.decimalInteger, fun {before value after} _ => ?_⟩
  rw [Parser.decimalInteger, Parser.reads_bind _ _ .decimalNumber ?formed,
    Option.bind_eq_some_iff, decimalInteger, ← agrees_decimalNumber.always]
  case formed =>
    intro literal
    cases literal with
    | int value => exact .pure value
    | _ => exact .expected _
  constructor
  · rintro ⟨⟨literal, middle⟩, here, there⟩
    cases literal with
    | int found =>
        rw [Parser.reads_pure] at there
        cases there
        exact here
    | _ => cases there
  · intro here
    exact ⟨_, here, rfl⟩

/-- An integer in either base. -/
def integer : Phrase Int64 :=
  oneOf [Lexeme.hex.phrase, decimalInteger]

/-- An integer is read in hexadecimal if its marker stands there, and else in decimal. -/
theorem agrees_integer : Agrees Parser.integer integer anything := by
  refine agrees_hexNumber.choice_cons_apart (by simp [Formed.decimalInteger]) ?_ ?_
  · refine agrees_decimalInteger.choice_cons_apart (by simp) (.choice_nil _) ?_
    rintro before value after ⟨phrase, member, -⟩ -
    simp at member
  · rintro before value after ⟨phrase, member, here⟩ -
    obtain rfl : phrase = decimalInteger := by simpa using member
    refine agrees_hexNumber.missed starts_hex ?_
    have stops : (afterFigures before.rest).head?.any isNameChar = false := starts_decimal here
    rintro (marked | marked) <;> rw [marked] at stops <;> cases stops

/-- An integer begins as numbers do. -/
theorem starts_integer : integer.Starts fun text => text.head?.any isNumberStart := by
  refine Starts.oneOf ?_
  simp only [List.forall_mem_cons, List.not_mem_nil, false_implies, implies_true, and_true]
  exact ⟨starts_hex_number, fun _ _ _ here => starts_decimal_number here⟩

/-- An integer uses up its figures. -/
theorem advances_integer : integer.Advances := by
  refine Advances.oneOf ?_
  simp only [List.forall_mem_cons, List.not_mem_nil, false_implies, implies_true, and_true]
  exact ⟨Lexeme.advances_phrase _, fun _ _ _ here => Lexeme.advances_phrase _ here⟩

end Grammar
end ThriftIdl
