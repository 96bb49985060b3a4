import ThriftIdl.Proofs.Grammar.Literal
import ThriftIdl.Proofs.Layout.Written

/-!
# Written numbers and strings are read back

What the notation writes for a number or a string is a spelling of it. Main statements:
`ofDigits?_numeral`, `unescape_of_writesText`, `spells_of_writesInteger`, `spells_of_writesHex` and
`spells_of_writesString`.
-/

namespace ThriftIdl

open ThriftIdl.Source (Stops)
open ThriftIdl.Parser (isQuote isIdentChar isHexDigit)
open ThriftIdl.Grammar (Lexeme)

namespace Number

/-! ## Figures -/

private theorem digit?_toLower (base : Nat) (char : Char) :
    digit? base char.toLower = digit? base char := by
  by_cases upper : char.isUpper
  · have bounds := Text.isUpper_iff.mp upper
    have shifted := Text.toNat_toLower upper
    have lower : char.toLower.isLower := Text.isLower_iff.mpr (by omega)
    have notLower : char.isLower = false := by
      by_contra isLower
      have others := Text.isLower_iff.mp (by simpa using isLower)
      omega
    have noDigit : char.isDigit = false :=
      Text.not_isDigit_of_isAlpha (Text.isAlpha_iff.mpr (.inl upper))
    have noDigit' : char.toLower.isDigit = false :=
      Text.not_isDigit_of_isAlpha (Text.isAlpha_iff.mpr (.inr lower))
    simp [digit?, noDigit, noDigit', lower, notLower, upper, shifted]
  · rw [Text.toLower_of_not_isUpper upper]

private theorem digit?_digitChar {base figure : Nat} (isBase : base = 10 ∨ base = 16)
    (below : figure < base) : digit? base figure.digitChar = some figure := by
  have decimal : ∀ figure < 10, digit? 10 figure.digitChar = some figure := by decide
  have hexadecimal : ∀ figure < 16, digit? 16 figure.digitChar = some figure := by decide
  rcases isBase with rfl | rfl
  · exact decimal figure below
  · exact hexadecimal figure below

private theorem appendDigits?_map_toLower (base known : Nat) (digits : List Char) :
    appendDigits? base known (digits.map Char.toLower) = appendDigits? base known digits := by
  induction digits generalizing known with
  | nil => rfl
  | cons char rest ih => simp only [List.map_cons, appendDigits?, digit?_toLower, ih]

private theorem isSome_digit? {base known value : Nat} {digits : List Char}
    (read : appendDigits? base known digits = some value) :
    ∀ char ∈ digits, (digit? base char).isSome := by
  induction digits generalizing known with
  | nil => simp
  | cons char rest ih =>
      cases figure : digit? base char with
      | none => simp [appendDigits?, figure] at read
      | some found =>
          simp only [appendDigits?, figure] at read
          simpa [figure] using ih read

/-- Zeros in front of a number do not count. -/
theorem appendDigits?_zeros {base : Nat} (positive : 0 < base) {zeros : List Char}
    (areZeros : ∀ char ∈ zeros, char = '0') (digits : List Char) :
    appendDigits? base 0 (zeros ++ digits) = appendDigits? base 0 digits := by
  have zero : digit? base '0' = some 0 := by simp [digit?, positive]
  induction zeros with
  | nil => rfl
  | cons char rest ih =>
      obtain rfl := areZeros char (by simp)
      rw [List.cons_append, appendDigits?, zero]
      simpa using ih fun other member => areZeros other (by simp [member])

/-- The digits of a number, in base ten or sixteen, are read as that number. -/
theorem appendDigits?_toDigits {base : Nat} (isBase : base = 10 ∨ base = 16) (value : Nat) :
    appendDigits? base 0 (Nat.toDigits base value) = some value := by
  have positive : 1 < base := by omega
  induction value using Nat.strongRecOn with
  | _ value ih =>
      rw [Nat.toDigits_eq_if positive]
      split
      · next below => simp [appendDigits?, digit?_digitChar isBase below]
      · next above =>
          have smaller : value / base < value := Nat.div_lt_self (by omega) positive
          have below : value % base < base := Nat.mod_lt _ (by omega)
          rw [appendDigits?_append, ih _ smaller, Option.bind_some, appendDigits?,
            digit?_digitChar isBase below]
          simp only [appendDigits?, Option.some.injEq]
          exact Nat.div_add_mod' value base

/-- **A numeral denotes its number**, also with leading zeros. -/
theorem appendDigits?_numeral {base : Nat} (isBase : base = 10 ∨ base = 16) {zeros : List Char}
    (areZeros : ∀ char ∈ zeros, char = '0') (value : Nat) :
    appendDigits? base 0 (zeros ++ Nat.toDigits base value) = some value := by
  rw [appendDigits?_zeros (by omega) areZeros, appendDigits?_toDigits isBase]

/-- Digits that are there are read from zero on. -/
theorem ofDigits?_of_ne_nil {base : Nat} {digits : List Char} (nonempty : digits ≠ []) :
    ofDigits? base digits = appendDigits? base 0 digits := by
  cases digits with
  | nil => exact absurd rfl nonempty
  | cons char rest => rfl

end Number

namespace Layout

open Number (isSome_digit?)

/-- What writes a number in hexadecimal is read as it, in either case and after any zeros. -/
theorem ofDigits?_of_writesHexDigits {value : Nat} {digits : List Char}
    (writes : WritesHexDigits value digits) : Number.ofDigits? 16 digits = some value := by
  obtain ⟨zeros, areZeros, figures⟩ := writes
  have nonempty : digits ≠ [] := by
    rintro rfl
    exact absurd (List.append_eq_nil_iff.mp figures.symm).2 Nat.toDigits_ne_nil
  rw [Number.ofDigits?_of_ne_nil nonempty, ← Number.appendDigits?_map_toLower, figures]
  exact Number.appendDigits?_numeral (.inr rfl) areZeros value

/-- What is read in hexadecimal is made of hexadecimal digits. -/
theorem isHexDigit_of_ofDigits? {value : Nat} {digits : List Char}
    (read : Number.ofDigits? 16 digits = some value) : ∀ char ∈ digits, isHexDigit char := by
  cases digits with
  | nil => simp
  | cons char rest => exact isSome_digit? read

/-- Hexadecimal digits may all stand in identifiers. -/
theorem isIdentChar_of_writesHexDigits {value : Nat} {digits : List Char}
    (writes : WritesHexDigits value digits) : ∀ char ∈ digits, isIdentChar char :=
  fun char member => Grammar.isHexDigit_isIdentChar
    (isHexDigit_of_ofDigits? (ofDigits?_of_writesHexDigits writes) char member)

/-! ## Strings -/

/-- A group that writes the code point of a character stands for it. -/
theorem pointOfGroup?_of_writesHexDigits {char : Char} {digits : List Char}
    (writes : WritesHexDigits char.toNat digits) : Text.pointOfGroup? digits = some char := by
  have unsigned : Number.ofPlusDigits? 16 digits = Number.ofDigits? 16 digits := by
    unfold Number.ofPlusDigits?
    split
    · next rest =>
        have ident := isIdentChar_of_writesHexDigits writes '+' (by simp)
        cases ident
    · rfl
  have valid : char.toNat.isValidChar := char.valid
  rw [Text.pointOfGroup?, unsigned, ofDigits?_of_writesHexDigits writes]
  simp [valid]

/-- What an escape is written for is read from it. -/
theorem readEscape_of_writesEscape {char : Char} {escape : List Char}
    (writes : WritesEscape char escape) (rest : List Char) :
    Text.readEscape (escape ++ rest) = some ([char], rest) := by
  cases writes with
  | @letter letter char isLetter =>
      simp only [escapeLetters, List.mem_cons, Prod.mk.injEq, List.not_mem_nil, or_false]
        at isLetter
      rcases isLetter with ⟨rfl, rfl⟩ | ⟨rfl, rfl⟩ | ⟨rfl, rfl⟩ | ⟨rfl, rfl⟩ | ⟨rfl, rfl⟩ |
        ⟨rfl, rfl⟩ | ⟨rfl, rfl⟩ <;> rfl
  | itself plain =>
      simp only [specialChars, List.mem_cons, List.not_mem_nil, or_false, not_or] at plain
      rw [List.singleton_append, Text.readEscape.eq_def]
      split <;> simp_all
  | @group _ letter digits isGroup figures =>
      have read := pointOfGroup?_of_writesHexDigits figures
      have group : Text.readGroup digits.length (digits ++ rest) = some ([char], rest) := by
        simp [Text.readGroup, read]
      simp only [groupLetters, List.mem_cons, Prod.mk.injEq, List.not_mem_nil, or_false] at isGroup
      rcases isGroup with ⟨rfl, two⟩ | ⟨rfl, four⟩
      · rwa [two] at group
      · rw [four] at group
        rw [List.cons_append, Text.readEscape.eq_11, group]
        intro more same
        cases digits with
        | nil => cases four
        | cons first others =>
            obtain ⟨rfl, -⟩ := List.cons.inj same
            -- No brace is a hexadecimal digit, so the group is not taken for a braced one.
            have ident := isIdentChar_of_writesHexDigits figures '\x7b' (by simp)
            cases ident
  | @braced _ digits short figures =>
      have read := pointOfGroup?_of_writesHexDigits figures
      have nonempty : 1 ≤ digits.length := by
        by_contra empty
        obtain rfl : digits = [] := List.length_eq_zero_iff.mp (by omega)
        cases read
      have inside : ∀ char ∈ digits, (char != '\x7d') = true := by
        intro char member
        have ident := isIdentChar_of_writesHexDigits figures char member
        rw [bne_iff_ne]
        rintro rfl
        cases ident
      have stops : Stops (· != '\x7d') ('\x7d' :: rest) := rfl
      have text : 'u' :: '\x7b' :: (digits ++ ['\x7d']) ++ rest =
          'u' :: '\x7b' :: (digits ++ '\x7d' :: rest) := by simp
      rw [text, Text.readEscape, Text.readBraced, stops.takeWhile_append inside,
        stops.dropWhile_append inside]
      simp [nonempty, short, read]

/-- **A string is read back** from what is written for it between its quotes. -/
theorem unescape_of_writesText {quote : Char} {text raw : List Char}
    (writes : WritesText quote text raw) : Text.unescape raw = some text := by
  induction writes with
  | nil => rw [Text.unescape]
  | plain _ plain _ ih => rw [Text.unescape, if_neg plain, ih, Option.map_some]
  | @escaped _ _ _ raw escape _ ih =>
      have read := readEscape_of_writesEscape escape raw
      rw [Text.unescape, if_pos rfl]
      split
      · next found =>
          rw [read] at found
          cases found
          rw [ih]
          rfl
      · next none =>
          rw [read] at none
          cases none

/-- After its first character an escape has no quotes and no backslashes in it. -/
theorem exists_cons_of_writesEscape {char : Char} {escape : List Char}
    (writes : WritesEscape char escape) : ∃ hidden others, escape = hidden :: others ∧
      ∀ char ∈ others, isQuote char = false ∧ char ≠ '\\' := by
  have ident {char : Char} (ident : isIdentChar char) :
      isQuote char = false ∧ char ≠ '\\' := by
    constructor
    · by_contra quotes
      simp only [isQuote, Bool.not_eq_false, Bool.or_eq_true, beq_iff_eq] at quotes
      rcases quotes with rfl | rfl <;> cases ident
    · rintro rfl
      cases ident
  cases writes with
  | letter => exact ⟨_, [], rfl, by simp⟩
  | itself => exact ⟨_, [], rfl, by simp⟩
  | group _ figures =>
      exact ⟨_, _, rfl, fun char member =>
        ident (isIdentChar_of_writesHexDigits figures char member)⟩
  | braced _ figures =>
      refine ⟨_, _, rfl, fun char member => ?_⟩
      simp only [List.mem_cons, List.mem_append, List.not_mem_nil, or_false] at member
      rcases member with rfl | member | rfl
      · exact ⟨rfl, by decide⟩
      · exact ident (isIdentChar_of_writesHexDigits figures char member)
      · exact ⟨rfl, by decide⟩

/-- A character that neither closes nor escapes stands for itself. -/
theorem throughQuote?_cons {quote char : Char} {escapes : Bool} (differs : char ≠ quote)
    (plain : escapes → char ≠ '\\') (rest : List Char) :
    Text.throughQuote? quote escapes (char :: rest) =
      (Text.throughQuote? quote escapes rest).map (char :: ·) := by
  rw [Text.throughQuote?.eq_def]
  simp only [if_neg differs]
  rw [if_neg (by simpa using plain)]

private theorem throughQuote?_append_of_plain {quote : Char} (quotes : isQuote quote)
    {front : List Char}
    (plain : ∀ char ∈ front, isQuote char = false ∧ char ≠ '\\') (back : List Char) :
    Text.throughQuote? quote true (front ++ back) =
      (Text.throughQuote? quote true back).map (front ++ ·) := by
  induction front with
  | nil => simp
  | cons char rest ih =>
      obtain ⟨noQuote, noEscape⟩ := plain char (by simp)
      have differs : char ≠ quote := by
        rintro rfl
        rw [quotes] at noQuote
        cases noQuote
      rw [List.cons_append, throughQuote?_cons differs fun _ => noEscape,
        ih fun other member => plain other (by simp [member]), Option.map_map]
      rfl

/-- The closing quote is the one that is written. -/
theorem throughQuote?_of_writesText {quote : Char} (quotes : isQuote quote) {text raw : List Char}
    (writes : WritesText quote text raw) :
    Text.throughQuote? quote true (raw ++ [quote]) = some raw := by
  induction writes with
  | nil => simp [Text.throughQuote?]
  | plain differs plain _ ih =>
      rw [List.cons_append, throughQuote?_cons differs fun _ => plain, ih, Option.map_some]
  | @escaped _ _ _ raw escape _ ih =>
      obtain ⟨hidden, others, rfl, plain⟩ := exists_cons_of_writesEscape escape
      have differs : '\\' ≠ quote := by
        rintro rfl
        cases quotes
      have text : '\\' :: (hidden :: others ++ raw) ++ [quote] =
          '\\' :: hidden :: (others ++ (raw ++ [quote])) := by simp
      rw [text, Text.throughQuote?.eq_def]
      simp [differs, throughQuote?_append_of_plain quotes plain, ih]

/-- Without escapes, a text is read up to the first quote. -/
theorem throughQuote?_of_notMem {quote : Char} {raw : List Char} (absent : quote ∉ raw) :
    Text.throughQuote? quote false (raw ++ [quote]) = some raw := by
  induction raw with
  | nil => simp [Text.throughQuote?]
  | cons char rest ih =>
      simp only [List.mem_cons, not_or] at absent
      rw [List.cons_append, throughQuote?_cons (Ne.symm absent.1) (fun escapes => by cases escapes),
        ih absent.2, Option.map_some]

/-- Strings are spellings of what they are written for. -/
theorem spells_of_writesString {text : String} {token : Token} (writes : WritesString text token) :
    (Lexeme.quoted true fun raw => (Text.unescape raw).map (Literal.str ∘ String.ofList)).spells
      token (.str text) := by
  obtain ⟨quote, raw, quotes, inside, rfl⟩ := writes
  refine ⟨quote, raw, quotes, rfl, throughQuote?_of_writesText quotes inside, ?_⟩
  simp [unescape_of_writesText inside]

/-! ## Numbers -/

private theorem int64?_toInt (value : Int64) : Parser.int64? value.toInt = some value := by
  rw [Parser.int64?, if_pos ⟨value.le_toInt, value.toInt_lt⟩, Int64.ofInt_toInt]

/-- What a sign makes of a magnitude. -/
theorem signed_natAbs {value : Int} {sign : List Char} (writes : WritesSign value sign) :
    (if sign.isEmpty then (value.natAbs : Int) else -value.natAbs) = value := by
  rcases writes with ⟨rfl, negative⟩ | ⟨rfl, positive⟩
  · simp only [List.isEmpty_cons, Bool.false_eq_true, if_false]
    omega
  · simp only [List.isEmpty_nil, if_true]
    omega

/-- A number is written with at most one sign. -/
theorem atMostOne_of_writesSign {value : Int} {sign : List Char} (writes : WritesSign value sign) :
    Grammar.AtMostOne (· == '-') sign := by
  rcases writes with ⟨rfl, -⟩ | ⟨rfl, -⟩
  · exact .inr ⟨'-', rfl, rfl⟩
  · exact .inl rfl

/-- Hexadecimal numerals are spellings of their integers. -/
theorem spells_of_writesHex {value : Int64} {token : Token} (writes : WritesHex value.toInt token)
    (inRange : value.toInt.natAbs < 2 ^ 63) : Lexeme.hex.spells token value := by
  obtain ⟨sign, marker, digits, signs, isMarker, figures, rfl⟩ := writes
  have read := ofDigits?_of_writesHexDigits figures
  refine ⟨sign, marker, digits, _, atMostOne_of_writesSign signs, isMarker,
    List.all_eq_true.mpr (isHexDigit_of_ofDigits? read), rfl, read, inRange, ?_⟩
  rw [signed_natAbs signs, Int64.ofInt_toInt]

/-- The figures of a decimal numeral. -/
theorem isDigit_of_decimal {zeros : List Char} (areZeros : ∀ char ∈ zeros, char = '0')
    (value : Nat) : ∀ char ∈ zeros ++ Number.decimalDigits value, char.isDigit := by
  intro char member
  rcases List.mem_append.mp member with zero | figure
  · rw [areZeros char zero]
    rfl
  · exact Nat.isDigit_of_mem_toDigits (by decide) (by decide) figure

/-- Figures after a sign denote the integer that they are written for. -/
theorem ofSignedDigits?_append {value : Int} {sign digits : List Char}
    (signs : WritesSign value sign ∨ sign = ['+'] ∧ 0 ≤ value)
    (figures : ∀ char ∈ digits, char.isDigit)
    (read : Number.ofDigits? 10 digits = some value.natAbs) :
    Number.ofSignedDigits? (sign ++ digits) = some value := by
  rcases signs with (⟨rfl, negative⟩ | ⟨rfl, positive⟩) | ⟨rfl, positive⟩
  · have magnitude : -(value.natAbs : Int) = value := by omega
    rw [List.singleton_append, Number.ofSignedDigits?, read]
    exact congrArg some magnitude
  · have magnitude : (value.natAbs : Int) = value := by omega
    rw [List.nil_append, Number.ofSignedDigits?, Number.ofPlusDigits?, read, Option.map_some,
      Int.ofNat_eq_natCast, magnitude]
    · rintro rest rfl
      cases figures '+' (by simp)
    · rintro rest rfl
      cases figures '-' (by simp)
  · have magnitude : (value.natAbs : Int) = value := by omega
    rw [List.singleton_append, Number.ofSignedDigits?, Number.ofPlusDigits?, read, Option.map_some,
      Int.ofNat_eq_natCast, magnitude]
    rintro rest same
    cases same

/-- A decimal numeral is a sign and figures, and it denotes its integer if that is in range. -/
theorem exists_figures_of_writesInteger {value : Int} {token : Token}
    (writes : WritesInteger value token) : ∃ sign body, Grammar.AtMostOne Parser.isSign sign ∧
      body.all Parser.isDecimalChar ∧ body.any Char.isDigit ∧ token = sign ++ body ∧
      Parser.decimalLiteral? token = (Parser.int64? value).map .int := by
  obtain ⟨sign, zeros, signs, areZeros, rfl⟩ := writes
  generalize numeral : zeros ++ Number.decimalDigits value.natAbs = digits
  have figures : ∀ char ∈ digits, char.isDigit := numeral ▸ isDigit_of_decimal areZeros _
  have nonempty : digits ≠ [] := by
    rintro rfl
    exact absurd (List.append_eq_nil_iff.mp numeral).2 Nat.toDigits_ne_nil
  have read : Number.ofDigits? 10 digits = some value.natAbs := by
    rw [Number.ofDigits?_of_ne_nil nonempty, ← numeral]
    exact Number.appendDigits?_numeral (.inl rfl) areZeros _
  have whole : '.' ∉ sign ++ digits := by
    intro member
    rcases List.mem_append.mp member with signed | figure
    · rcases signs with (⟨rfl, -⟩ | ⟨rfl, -⟩) | ⟨rfl, -⟩ <;> simp at signed
    · cases figures '.' figure
  refine ⟨sign, digits, ?_, ?_, ?_, rfl, ?_⟩
  · rcases signs with (⟨rfl, -⟩ | ⟨rfl, -⟩) | ⟨rfl, -⟩
    · exact .inr ⟨'-', rfl, rfl⟩
    · exact .inl rfl
    · exact .inr ⟨'+', rfl, rfl⟩
  · exact List.all_eq_true.mpr fun char member => by
      simp [Parser.isDecimalChar, figures char member]
  · obtain ⟨char, rest, rfl⟩ := List.exists_cons_of_ne_nil nonempty
    simp [figures char (by simp)]
  · rw [Parser.decimalLiteral?, if_neg (by simpa using whole),
      ofSignedDigits?_append signs figures read, Option.bind_some]

/-- Decimal numerals are spellings of their integers. -/
theorem spells_of_writesInteger {value : Int64} {token : Token}
    (writes : WritesInteger value.toInt token) : Lexeme.decimal.spells token (.int value) := by
  obtain ⟨sign, body, signs, inside, figures, same, denotes⟩ :=
    exists_figures_of_writesInteger writes
  exact ⟨sign, body, signs, inside, figures, same, by rw [denotes, int64?_toInt, Option.map_some]⟩

end Layout
end ThriftIdl
