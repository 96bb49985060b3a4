import Mathlib.Data.List.Basic
import ThriftIdl.Proofs.Layout.Spelling
import ThriftIdl.Proofs.Layout.Yields

/-!
# Tokens wherever they are laid out

Each kind of token yields its phrase. A token that ends like a word must not grow into what follows
it, and a layout sees to that.
-/

namespace ThriftIdl

open ThriftIdl.Source (Stops opensGap)
open ThriftIdl.Parser (isIdentStart isIdentChar isNameChar isScopeChar)
open ThriftIdl.Grammar (Phrase Lexeme IsIdentifier)

namespace Layout

variable {Value : Type}

private theorem isWordChar_of_isNameChar {char : Char} (named : isNameChar char) :
    isWordChar char := by
  simp [isWordChar, named]

private theorem isWordChar_of_isIdentChar {char : Char} (ident : isIdentChar char) :
    isWordChar char :=
  isWordChar_of_isNameChar (Grammar.isNameChar_of_isIdentChar ident)

private theorem isWordChar_of_isScopeChar {char : Char} (scope : isScopeChar char) :
    isWordChar char := by
  simp only [isScopeChar, Bool.or_eq_true, beq_iff_eq] at scope
  rcases scope with ident | rfl
  · exact isWordChar_of_isIdentChar ident
  · rfl

/-- What does not grow together with a token that ends as a word does is no further character of the
word. -/
theorem stops_of_not_growsInto {sign chars following : List Char} (nonempty : chars ≠ [])
    (inside : ∀ char ∈ chars, isWordChar char) (grows : ¬GrowsInto (sign ++ chars) following) :
    Stops isWordChar following := by
  have last := inside _ (List.getLast_mem nonempty)
  by_contra opens
  refine grows ⟨?_, by simpa [Stops] using opens⟩
  rwa [List.getLast?_append_of_ne_nil _ nonempty, List.getLast?_eq_some_getLast nonempty,
    Option.any_some]

namespace Yields

/-- A token that ends as a word does. -/
theorem word {lexeme : Lexeme Value} {sign chars : List Char} {value : Value} {test : Char → Bool}
    (spells : lexeme.spells (sign ++ chars) value) (nonempty : chars ≠ [])
    (inside : ∀ char ∈ chars, isWordChar char)
    (runs : ∀ following, lexeme.runsOn following = following.head?.any test)
    (isWord : ∀ char, test char → isWordChar char) :
    Takes lexeme.phrase value anywhere [sign ++ chars] := by
  refine token spells fun following grows => ?_
  rw [runs]
  exact (stops_of_not_growsInto nonempty inside grows).mono isWord

/-- A mark is read from its character. -/
theorem mark {char : Char} (plain : opensGap char = false) :
    Takes (Grammar.mark char plain) () anywhere [[char]] := by
  have spells : (Lexeme.mark char plain).spells [char] () := rfl
  exact token spells fun _ _ => rfl

/-- A closing mark is read from its character, with the comments before it given up. -/
theorem close {char : Char} (plain : opensGap char = false) :
    Takes (Grammar.close char plain) () anywhere [[char]] := by
  have inner : Takes (Grammar.mark char plain) () anywhere [[char]] := mark plain
  refine ⟨inner.areTokens, fun {more before} areTokens met laid => ?_⟩
  have laid : Laid ([[char]] ++ more) { before with head := [] }.rest := laid
  obtain ⟨_, after, here, -, later, ends⟩ := inner.found areTokens met laid
  refine ⟨(), after, ⟨(), _, rfl, here⟩, rfl, later, fun calm => ?_⟩
  have nothing : { before with head := [] } = before := by rw [← calm.1.1]
  rw [nothing] at ends
  exact ends calm

/-- A word of a table is read as what it stands for. -/
theorem words {table : List (String × Value)}
    {areWords : ∀ entry ∈ table, IsIdentifier entry.1.toList} (entry : String × Value)
    (member : entry ∈ table) :
    Takes (Lexeme.words table areWords).phrase entry.2 anywhere [entry.1.toList] := by
  have isWord := areWords entry member
  have spells : (Lexeme.words table areWords).spells ([] ++ entry.1.toList) entry.2 :=
    ⟨entry.1, member, rfl⟩
  obtain ⟨first, rest, same, -⟩ := isWord.exists_cons
  exact word spells (by simp [same])
    (fun char inside => isWordChar_of_isIdentChar (isWord.inside char inside)) (fun _ => rfl)
    fun _ => isWordChar_of_isIdentChar

/-- A keyword is read from its characters. -/
theorem keyword {text : String} (isWord : IsIdentifier text.toList) :
    Takes (Grammar.keyword text isWord) () anywhere [text.toList] :=
  words (text, ()) (List.mem_singleton_self _)

/-- A run of characters that belong to words. -/
theorem run {first test : Char → Bool} {inside : ∀ char, first char → test char}
    {plain : ∀ char, test char → opensGap char = false} {value : String}
    (begins : value.toList.head?.any first) (passes : value.toList.all test)
    (isWord : ∀ char, test char → isWordChar char) :
    Takes (Lexeme.run first test inside plain).phrase value anywhere [value.toList] := by
  obtain ⟨char, rest, chars⟩ : ∃ char rest, value.toList = char :: rest := by
    cases chars : value.toList with
    | nil => simp [chars] at begins
    | cons char rest => exact ⟨char, rest, rfl⟩
  have spells : (Lexeme.run first test inside plain).spells ([] ++ value.toList) value :=
    ⟨⟨char, rest, chars, by simpa [chars] using begins⟩, passes, String.ofList_toList.symm⟩
  exact word spells (by simp [chars])
    (fun char member => isWord char (List.all_eq_true.mp passes char member)) (fun _ => rfl) isWord

/-- A name is read from its characters. -/
theorem name {value : String} (isName : IsName value) :
    Takes Grammar.name value anywhere [value.toList] :=
  run isName.1 isName.2 fun _ => isWordChar_of_isNameChar

/-- A scope is read from its characters. -/
theorem scope {value : String} (isScope : IsScope value) :
    Takes Grammar.scope value anywhere [value.toList] := by
  obtain ⟨nonempty, passes⟩ := isScope
  refine run ?_ passes fun _ => isWordChar_of_isScopeChar
  cases chars : value.toList with
  | nil => exact absurd (String.toList_eq_nil_iff.mp chars) nonempty
  | cons char rest => exact List.all_eq_true.mp passes char (by simp [chars])

/-- A path is read from its segments with dots between them. -/
theorem path {segments : List String} (arePath : ArePath segments) :
    Takes Grammar.path segments anywhere [(Parser.dotted segments).toList] := by
  obtain ⟨nonempty, identifiers⟩ := arePath
  have spells := Grammar.spells_dotted nonempty identifiers
  refine token spells fun following grows => ?_
  obtain ⟨first, rest, same, -⟩ := Lexeme.path.opens spells
  have grows : ¬GrowsInto ([] ++ (Parser.dotted segments).toList) following := grows
  have stops : Stops isWordChar following := by
    refine stops_of_not_growsInto (by simp [same]) (fun char member => ?_) grows
    exact isWordChar_of_isNameChar (Grammar.isNameChar_of_mem_dotted identifiers char member)
  exact Grammar.pathRunsOn_of_stops (stops.mono fun _ => isWordChar_of_isNameChar)

/-- The path of an included file, between quotes that it has not in it. -/
theorem includePath {value : String} {quote : Char} (quotes : Parser.isQuote quote)
    (absent : quote ∉ value.toList) : Takes Grammar.includePath value anywhere
      [quote :: (value.toList ++ [quote])] := by
  have spells : (Lexeme.quoted false fun raw => some (String.ofList raw)).spells
      (quote :: (value.toList ++ [quote])) value :=
    ⟨quote, value.toList, quotes, rfl, throughQuote?_of_notMem absent, by simp⟩
  exact token spells fun _ _ => rfl

/-- A string is read from any of its spellings. -/
theorem string {text : String} {chars : Token} (writes : WritesString text chars) :
    Takes Grammar.stringLiteral (.str text) anywhere [chars] :=
  token (spells_of_writesString writes) fun _ _ => rfl

/-- A number in hexadecimal is read from any of its spellings if its size is in range. -/
theorem hex {value : Int64} {chars : Token} (writes : WritesHex value.toInt chars)
    (inRange : value.toInt.natAbs < 2 ^ 63) :
    Takes Lexeme.hex.phrase value anywhere [chars] := by
  have spells := spells_of_writesHex writes inRange
  obtain ⟨sign, marker, digits, -, isMarker, figures, rfl⟩ := writes
  refine word spells (by simp) (fun char member => ?_) (fun _ => rfl)
    fun _ => isWordChar_of_isIdentChar
  simp only [List.mem_cons] at member
  rcases member with rfl | rfl | member
  · rfl
  · rcases isMarker with rfl | rfl <;> rfl
  · exact isWordChar_of_isIdentChar (isIdentChar_of_writesHexDigits figures char member)

/-- An integer is read from any of its decimal spellings. -/
theorem decimal {value : Int64} {chars : Token} (writes : WritesInteger value.toInt chars) :
    Takes Lexeme.decimal.phrase (.int value) anywhere [chars] := by
  have spells := spells_of_writesInteger writes
  obtain ⟨sign, zeros, -, areZeros, rfl⟩ := writes
  refine word spells (by simp [Number.decimalDigits, Nat.toDigits_ne_nil]) (fun char member => ?_)
    (fun _ => rfl) fun _ => isWordChar_of_isNameChar
  exact isWordChar_of_isIdentChar
    (Grammar.isIdentChar_of_isDigit (isDigit_of_decimal areZeros _ char member))

private theorem decimalInteger {value : Int64} {chars : Token}
    (writes : WritesInteger value.toInt chars) :
    Takes Grammar.decimalInteger value anywhere [chars] := by
  have inner := decimal writes
  refine ⟨inner.areTokens, fun {more before} areTokens met laid => ?_⟩
  obtain ⟨_, after, here, rfl, later, ends⟩ := inner.found areTokens met laid
  exact ⟨value, after, here, rfl, later, fun calm => ⟨rfl, (ends calm).2⟩⟩

/-- Numbers in either base. -/
theorem number {value : Int64} {chars : Token} (writes : WritesNumber value chars) :
    Takes Grammar.integer value anywhere [chars] := by
  rcases writes with decimal | ⟨inRange, hexadecimal⟩
  · exact oneOf (.tail _ (.head _)) (decimalInteger decimal)
  · exact oneOf (.head _) (hex hexadecimal inRange)

end Yields

end Layout
end ThriftIdl
