import ThriftIdl.Proofs.Grammar.Alternatives
import ThriftIdl.Proofs.Reading.Constants

/-!
# Integers as values of constants

A decimal numeral is read as the integer that it denotes, if that has sixty-four bits, and else it
is no literal. A hexadecimal numeral is read by its magnitude: it is rejected from `2 ^ 63` on, and
so is the numeral of the least integer, although that has sixty-four bits and is read in decimal
notation. Main statement: `integer_constants`.
-/

namespace ThriftIdl

open Source (Stops)
open ThriftIdl.Grammar (AtMostOne Lexeme formOf literalTable)
open ThriftIdl.Layout (WritesInteger WritesHex WritesHexDigits WritesSign Token)

namespace Parser

variable {view : View} {token sign body digits more : List Char}

/-! ## Numerals in range -/

/-- A decimal numeral of an integer in range is read up to the end of its token. -/
theorem reads_literal_decimal {value : Int64} (text : view.rest = token ++ more)
    (ended : Stops isNameChar more) (writes : WritesInteger value.toInt token) :
    reads literal view = some (.int value, { view with rest := more }.skip) := by
  apply Grammar.agrees_literal.always.mpr
  apply Grammar.literal_of_literalForms
  refine ⟨Lexeme.decimal.phrase, by simp [Grammar.literalForms], ?_⟩
  exact ⟨token, more, text, Layout.spells_of_writesInteger writes, ended, rfl⟩

/-- A hexadecimal numeral of a magnitude in range is read up to the end of its token. -/
theorem reads_literal_hex {value : Int64} (text : view.rest = token ++ more)
    (ended : Stops isNameChar more) (writes : WritesHex value.toInt token)
    (inRange : value.toInt.natAbs < 2 ^ 63) :
    reads literal view = some (.hex value, { view with rest := more }.skip) := by
  have apart : Stops isIdentChar more := ended.mono fun _ => Grammar.isNameChar_of_isIdentChar
  apply Grammar.agrees_literal.always.mpr
  apply Grammar.literal_of_literalForms
  refine ⟨Literal.hex <$> Lexeme.hex.phrase, by simp [Grammar.literalForms], ?_⟩
  apply Grammar.Phrase.map_iff.mpr
  exact ⟨value, ⟨token, more, text, Layout.spells_of_writesHex writes inRange, apart, rfl⟩, rfl⟩

/-! ## Decimal numerals out of range -/

/-- The figures and points after a sign are all that are read of a decimal number. -/
theorem reads_decimalNumber_eq_none (signs : AtMostOne isSign sign)
    (inside : body.all isDecimalChar) (figures : body.any Char.isDigit)
    (text : view.rest = sign ++ (body ++ more)) (ended : Stops isNameChar more)
    (senseless : decimalLiteral? (sign ++ body) = none) : reads decimalNumber view = none := by
  have stops {rest : List Char} (ended : Stops isNameChar rest) : Stops isDecimalChar rest :=
    ended.mono fun _ => Grammar.isNameChar_of_isDecimalChar
  have unsigned {body : List Char} (more : List Char) (inside : body.all isDecimalChar)
      (figures : body.any Char.isDigit) : Stops isSign (body ++ more) :=
    Grammar.stops_isSign_of_figures more inside (Grammar.ne_nil_of_any_isDigit figures)
  cases read : reads decimalNumber view with
  | none => rfl
  | some result =>
      obtain ⟨_, rest, same, ⟨sign', body', signs', inside', figures', rfl, denotes⟩, ended', -⟩ :=
        Grammar.agrees_decimalNumber.always.mp read
      rw [text, List.append_assoc] at same
      -- The sign is told by the first character, and the body goes up to the first other character.
      have bodies : body ++ more = body' ++ rest := by
        rw [← Grammar.afterSign_append signs fun _ => unsigned more inside figures, same,
          Grammar.afterSign_append signs' fun _ => unsigned rest inside' figures']
      have sameSign : sign = sign' := List.append_cancel_right (bodies ▸ same)
      have sameBody : body = body' := by
        rw [← (stops ended).takeWhile_append (List.all_eq_true.mp inside), bodies,
          (stops ended').takeWhile_append (List.all_eq_true.mp inside')]
      rw [← sameSign, ← sameBody, senseless] at denotes
      cases denotes

/-- A decimal numeral of an integer out of range is no literal. -/
theorem reads_literal_eq_none {value : Int} (text : view.rest = token ++ more)
    (ended : Stops isNameChar more) (writes : WritesInteger value token)
    (outside : int64? value = none) : reads literal view = none := by
  obtain ⟨sign, body, signs, inside, figures, rfl, denotes⟩ :=
    Layout.exists_figures_of_writesInteger writes
  rw [outside, Option.map_none] at denotes
  rw [List.append_assoc] at text
  have nonempty := Grammar.ne_nil_of_any_isDigit figures
  have begins : formOf view.rest = some .decimal := by
    obtain ⟨first, others, same, number⟩ :=
      Grammar.exists_cons_of_figures more signs inside nonempty
    apply Grammar.formOf_of_stops
    · simpa [text, same] using number
    · rw [text, Grammar.afterFigures_append signs inside nonempty
        (ended.mono fun _ => Grammar.isNameChar_of_isDecimalChar)]
      exact ended
  rw [reads_literal_of_form .decimal (by decide) begins]
  exact reads_decimalNumber_eq_none signs inside figures text ended denotes

/-! ## Hexadecimal numerals out of range -/

section Hexadecimal

variable {marker : Char} {magnitude : Nat}

/-- A magnitude that is too large is rejected after its last digit. -/
theorem rejects_hexNumber (signs : AtMostOne (· == '-') sign)
    (isMarker : marker = 'x' ∨ marker = 'X')
    (text : view.rest = sign ++ '0' :: marker :: (digits ++ more)) (ended : Stops isHexDigit more)
    (denotes : Number.ofDigits? 16 digits = some magnitude) (large : 2 ^ 63 ≤ magnitude) :
    Rejects (· = .hexOutOfRange (String.ofList digits)) hexNumber view := by
  have inside : ∀ char ∈ digits, isHexDigit char := Layout.isHexDigit_of_ofDigits? denotes
  have signRead : reads (optionalChar (· == '-')) view =
      some (sign, { view with rest := '0' :: marker :: (digits ++ more) }) :=
    (Grammar.agrees_optionalChar _).always.mpr ⟨_, text, signs, fun _ => rfl, rfl⟩
  have marked := Grammar.marker_iff.mpr ⟨marker, digits ++ more, isMarker, rfl⟩
  have digitsRead : reads (takeWhile isHexDigit) { view with rest := digits ++ more } =
      some (digits, { view with rest := more }) := by
    rw [reads_takeWhile, ended.takeWhile_append inside, ended.dropWhile_append inside]
  refine Rejects.after (Grammar.quiet_optionalChar _) signRead ?_
  refine Rejects.startsWith (Rejects.startsWith ?_)
  rw [if_pos marked]
  refine Rejects.after (Quiet.advance 2) rfl (Rejects.after (Quiet.takeWhile _) digitsRead ?_)
  simp only [denotes]
  rw [if_neg (by omega)]
  exact Rejects.rejected rfl

/-- A literal is rejected as the hexadecimal integer is that it begins as. -/
theorem rejects_literal_hex {kind : Rejection → Prop} (begins : formOf view.rest = some .hex)
    (rejects : Rejects kind hexNumber view) : Rejects kind literal view := by
  refine Rejects.look (fun text => literalWithin (text.length + 1)) ?_
  let table := literalTable (literalWithin view.rest.length)
  have chosen : Rejects kind (choice .value (table.map Prod.snd)) view := by
    apply Rejects.choice_of_keys formOf (fun entry => some entry.1) Prod.snd .value
    · exact Grammar.candid_literalTable (Grammar.candid_literalWithin _)
        (Grammar.agrees_literalWithin _) (Grammar.starts_literalWithin _)
    · exact Grammar.missed_literalTable (Grammar.agrees_literalWithin _)
        (Grammar.starts_literalWithin _) (Grammar.advances_literalWithin _)
    · intro entry member same
      obtain rfl : entry = (.hex, hexLiteral) := by
        rw [begins, Option.some.injEq] at same
        simp only [table, literalTable, List.mem_cons, List.not_mem_nil, or_false] at member
        rcases member with rfl | rfl | rfl | rfl | rfl | rfl | rfl | rfl <;>
          first | rfl | cases same
      exact rejects.bind _
    · exact ⟨(.hex, hexLiteral), List.mem_cons_self, begins⟩
  exact chosen

end Hexadecimal

/-! ## Constants -/

variable {options : Options} {source : String} {state : State}
  {start : Option String × TypeRef × String}

private theorem int64?_eq_none {value : Int} (outside : value < -2 ^ 63 ∨ 2 ^ 63 ≤ value) :
    int64? value = none := by
  rw [int64?, if_neg]
  omega

/-- All integers but the least have a magnitude in range. -/
theorem natAbs_lt_of_ne_minValue {value : Int64} (notLeast : value ≠ Int64.minValue) :
    value.toInt.natAbs < 2 ^ 63 := by
  have lower := value.le_toInt
  have upper := value.toInt_lt
  have differs : value.toInt ≠ -2 ^ 63 := fun least =>
    notLeast (Int64.toInt_inj.mp (least.trans (by decide)))
  omega

/-- **Numerals as values of constants.** Let a numeral stand where the value of a constant begins,
with no character behind it that could belong to a name. Any decimal numeral of a sixty-four bit
integer is read as this integer, and so is any hexadecimal numeral of such an integer other than the
least. For a decimal numeral of any other integer the text has no document. Nor has it one for a
hexadecimal numeral whose magnitude is `2 ^ 63` or more, and then the error repeats its digits; the
least integer is among those. -/
theorem integer_constants (here : ConstantAt options source state start view)
    (text : view.rest = token ++ more) (ended : Stops isNameChar more) :
    (∀ value : Int64, WritesInteger value.toInt token →
      ReadsConstant options source state start (.int value)) ∧
    (∀ value : Int64, value ≠ Int64.minValue → WritesHex value.toInt token →
      ReadsConstant options source state start (.hex value)) ∧
    (∀ value : Int, value < -2 ^ 63 ∨ 2 ^ 63 ≤ value → WritesInteger value token →
      ∃ error, Document.parse source options = .error error) ∧
    (∀ (value : Int) (sign : List Char) (marker : Char) (digits : List Char),
      2 ^ 63 ≤ value.natAbs → WritesSign value sign → marker = 'x' ∨ marker = 'X' →
      WritesHexDigits value.natAbs digits → token = sign ++ '0' :: marker :: digits →
      ∃ error, Document.parse source options = .error error ∧ error.message =
        "hexadecimal literal 0x" ++ String.ofList digits ++ " is out of range") := by
  refine ⟨fun value writes => ?decimal, fun value notLeast writes => ?hex,
    fun value outside writes => ?decimalOutside,
    fun value sign marker digits large signs isMarker figures same => ?hexOutside⟩
  case decimal =>
    exact here.readsConstant_iff.mpr ⟨_, reads_literal_decimal text ended writes⟩
  case hex =>
    have inRange := natAbs_lt_of_ne_minValue notLeast
    exact here.readsConstant_iff.mpr ⟨_, reads_literal_hex text ended writes inRange⟩
  case decimalOutside =>
    exact here.exists_error (reads_literal_eq_none text ended writes (int64?_eq_none outside))
  case hexOutside =>
    rw [same, List.append_assoc, List.cons_append, List.cons_append] at text
    have minus := Layout.atMostOne_of_writesSign signs
    have begins : formOf view.rest = some .hex := by
      rw [text]
      exact Grammar.formOf_of_marked minus (Grammar.marker_iff.mpr ⟨marker, _, isMarker, rfl⟩)
    have plain : Stops isHexDigit more := ended.mono fun _ digit =>
      Grammar.isNameChar_of_isIdentChar (Grammar.isHexDigit_isIdentChar digit)
    have denotes := Layout.ofDigits?_of_writesHexDigits figures
    have rejects : Rejects (· = .hexOutOfRange (String.ofList digits)) literal view :=
      rejects_literal_hex begins (rejects_hexNumber minus isMarker text plain denotes large)
    exact here.exists_error_of_rejects rejects

/-- The ends of the range: the least integer in decimal notation, the greatest in hexadecimal
notation, and the first integer above it in either. -/
theorem integer_constants_ends :
    (∃ document comments, Document.parse "const i64 a = -9223372036854775808" = .ok document ∧
      document.constant? "a" = some
        { type := .scalar "i64", name := "a", value := .int Int64.minValue, comments }) ∧
    (∃ document comments, Document.parse "const i64 a = 0x7FFFffffFFFFffff" = .ok document ∧
      document.constant? "a" = some
        { type := .scalar "i64", name := "a", value := .hex Int64.maxValue, comments }) ∧
    (∃ error, Document.parse "const i64 a = 9223372036854775808" = .error error) ∧
    ∃ error, Document.parse "const i64 a = 0x8000000000000000" = .error error ∧
      error.message = "hexadecimal literal 0x8000000000000000 is out of range" := by
  let start : Option String × TypeRef × String := (none, .scalar "i64", "a")
  have here (source token : String)
      (begins : reads constantStart (openingState source).view =
        some (start, .ofText token.toList)) :
      ConstantAt {} source (openingState source) start (.ofText token.toList) :=
    ⟨.start, begins⟩
  -- Behind the numeral nothing more comes.
  have whole {source : String} {value : Literal}
      (ended : (ending (declaration .reject
        ((openingState source).keeping []))).input.atEnd = true)
      (read : ReadsConstant {} source (openingState source) start value) :
      ∃ document comments, Document.parse source = .ok document ∧ document.constant? "a" =
        some { type := .scalar "i64", name := "a", value, comments } := by
    obtain ⟨comments, after, matched, -, document⟩ := read
    rw [matched] at ended
    obtain ⟨document, parsed, found⟩ := document ended
    exact ⟨document, comments, parsed, found⟩
  have least := here "const i64 a = -9223372036854775808" "-9223372036854775808"
    (by decide +kernel)
  have greatest := here "const i64 a = 0x7FFFffffFFFFffff" "0x7FFFffffFFFFffff" (by decide +kernel)
  have above := here "const i64 a = 9223372036854775808" "9223372036854775808" (by decide +kernel)
  have aboveHex := here "const i64 a = 0x8000000000000000" "0x8000000000000000" (by decide +kernel)
  refine ⟨whole (by decide +kernel) ?_, whole (by decide +kernel) ?_, ?_, ?_⟩
  · exact (integer_constants least (List.append_nil _).symm rfl).1 _
      ⟨['-'], [], .inl (.inl ⟨rfl, by decide⟩), by simp, by decide +kernel⟩
  · exact (integer_constants greatest (List.append_nil _).symm rfl).2.1 _ (by decide)
      ⟨[], 'x', "7FFFffffFFFFffff".toList, .inr ⟨rfl, by decide⟩, .inl rfl,
        ⟨[], by simp, by decide +kernel⟩, rfl⟩
  · exact (integer_constants above (List.append_nil _).symm rfl).2.2.1 (2 ^ 63) (by decide)
      ⟨[], [], .inl (.inr ⟨rfl, by decide⟩), by simp, by decide +kernel⟩
  · exact (integer_constants aboveHex (List.append_nil _).symm rfl).2.2.2 (2 ^ 63) []
      'x' "8000000000000000".toList (by decide) (.inr ⟨rfl, by decide⟩) (.inl rfl)
      ⟨[], by simp, by decide +kernel⟩ rfl

/-- The least integer in hexadecimal notation is rejected, although it has sixty-four bits. -/
theorem least_integer_in_hexadecimal :
    WritesHex Int64.minValue.toInt "-0x8000000000000000".toList ∧
    ∃ error, Document.parse "const i64 a = -0x8000000000000000" = .error error ∧
      error.message = "hexadecimal literal 0x8000000000000000 is out of range" := by
  constructor
  · exact ⟨['-'], 'x', "8000000000000000".toList, .inl ⟨rfl, by decide⟩, .inl rfl,
      ⟨[], by simp, by decide +kernel⟩, rfl⟩
  · have failed : (Reading.ofSource {} "const i64 a = -0x8000000000000000").failure.map
        SyntaxError.message = some "hexadecimal literal 0x8000000000000000 is out of range" := by
      decide +kernel
    obtain ⟨error, failure, message⟩ := Option.map_eq_some_iff.mp failed
    exact ⟨error, parse_eq_error_iff.mpr failure, message⟩

end Parser
end ThriftIdl
