import ThriftIdl.Proofs.Grammar.Phrase
import ThriftIdl.Parser.Declaration

/-!
# Lexemes

A lexeme is a kind of token: how its tokens are spelt and which texts a token would run on into. The
token phrase of a lexeme is a spelling that does not run on, with the gap after it. The token rules
read exactly these phrases: `agrees_words`, `agrees_mark`, `agrees_name`, `agrees_path`,
`agrees_scope` and `agrees_separator`.
-/

namespace ThriftIdl

open Source (Stops EndsLine opensGap)
open ThriftIdl.Parser (View Rule Formed reads isIdentStart isIdentChar isNameChar startsWithWord
  isSeparator isScopeChar pathSegments)

namespace Grammar

variable {Value : Type}

/-- A kind of token. Its spellings begin with a character that opens no gap, and what ends a line
ends a token. -/
structure Lexeme (Value : Type) where
  /-- How a token with a value is spelt. -/
  spells : List Char → Value → Prop
  /-- Whether a token would go on into the text after it. -/
  runsOn : List Char → Bool
  opens : ∀ {chars : List Char} {value : Value}, spells chars value →
    ∃ first rest, chars = first :: rest ∧ opensGap first = false
  settles : ∀ {front back more : List Char}, runsOn (front ++ back) = false → EndsLine more →
    runsOn (front ++ more) = false

namespace Lexeme

/-- A token with the gap after it. -/
def phrase (lexeme : Lexeme Value) : Phrase Value := fun before value after =>
  ∃ chars more, before.rest = chars ++ more ∧ lexeme.spells chars value ∧
    lexeme.runsOn more = false ∧ after = { before with rest := more }.skip

/-- A lexeme begins with whatever all its spellings begin with. -/
theorem starts_phrase (lexeme : Lexeme Value) {condition : List Char → Prop}
    (spelt : ∀ {chars value}, lexeme.spells chars value →
      ∀ more, lexeme.runsOn more = false → condition (chars ++ more)) :
    lexeme.phrase.Starts condition := by
  rintro before value after ⟨chars, more, rest, spells, ended, rfl⟩
  rw [rest]
  exact spelt spells more ended

/-- A lexeme has at least one character. -/
theorem ne_nil (lexeme : Lexeme Value) {chars : List Char} {value : Value}
    (spells : lexeme.spells chars value) : chars ≠ [] := by
  obtain ⟨first, rest, rfl, -⟩ := lexeme.opens spells
  exact List.cons_ne_nil first rest

/-- A lexeme uses up its characters. -/
theorem advances_phrase (lexeme : Lexeme Value) : lexeme.phrase.Advances := by
  rintro before value after ⟨chars, more, rest, spells, -, rfl⟩
  obtain ⟨first, others, rfl, -⟩ := lexeme.opens spells
  simp only [View.skip, rest, List.length_drop, List.length_append, List.length_cons]
  omega

/-- After a lexeme the text is no longer than before. -/
theorem narrows_phrase (lexeme : Lexeme Value) : lexeme.phrase.Narrows :=
  lexeme.advances_phrase.narrows

/-- Tokens that one character after another would make longer run on into no end of a line. -/
theorem settles_head {test : Char → Bool} (plain : ∀ char, test char → opensGap char = false)
    {front back more : List Char} (stops : (front ++ back).head?.any test = false)
    (ends : EndsLine more) : (front ++ more).head?.any test = false := by
  refine Stops.replace stops (ends.stops fun char breaks => ?_)
  by_contra passes
  have closed := plain char (by simpa using passes)
  simp [opensGap, breaks] at closed

end Lexeme

/-! ## Characters -/

/-- No character of a name opens a gap. -/
theorem opensGap_of_isNameChar {char : Char} (named : isNameChar char) :
    opensGap char = false := by
  by_contra opens
  simp only [Bool.not_eq_false, opensGap, Source.isSpace, Source.isLineBreak, Bool.or_eq_true,
    beq_iff_eq] at opens
  rcases opens with (((rfl | rfl) | rfl | rfl) | rfl) | rfl <;> cases named

/-- The characters of identifiers may stand in names. -/
theorem isNameChar_of_isIdentChar {char : Char} (ident : isIdentChar char) : isNameChar char := by
  simp [isNameChar, ident]

/-- The first character of an identifier may stand further on in one. -/
theorem isIdentChar_of_isIdentStart {char : Char} (start : isIdentStart char) :
    isIdentChar char := by
  simp only [isIdentStart, Bool.or_eq_true, beq_iff_eq] at start
  simp only [isIdentChar, Char.isAlphanum, Bool.or_eq_true, beq_iff_eq]
  exact start.imp_left .inl

/-- No character of an identifier opens a gap. -/
theorem opensGap_of_isIdentChar {char : Char} (ident : isIdentChar char) :
    opensGap char = false :=
  opensGap_of_isNameChar (isNameChar_of_isIdentChar ident)

/-- A word that ends at a place still ends there before what ends the line. -/
theorem Lexeme.settles_word {front back more : List Char}
    (stops : (front ++ back).head?.any isIdentChar = false) (ends : EndsLine more) :
    (front ++ more).head?.any isIdentChar = false :=
  settles_head (fun _ => opensGap_of_isIdentChar) stops ends

/-- No character of a scope opens a gap. -/
theorem opensGap_of_isScopeChar {char : Char} (scope : isScopeChar char) :
    opensGap char = false := by
  simp only [isScopeChar, Bool.or_eq_true, beq_iff_eq] at scope
  rcases scope with ident | rfl
  · exact opensGap_of_isIdentChar ident
  · rfl

/-! ## Words -/

/-- The longest beginning of a text that has identifier characters only. -/
def leadingWord (text : List Char) : List Char :=
  text.takeWhile isIdentChar

/-- Whether a text is an identifier without dots. -/
def IsIdentifier (chars : List Char) : Prop :=
  chars.head?.any isIdentStart ∧ chars.all isIdentChar

instance (chars : List Char) : Decidable (IsIdentifier chars) :=
  inferInstanceAs (Decidable (_ ∧ _))

namespace IsIdentifier

variable {chars : List Char}

/-- An identifier has a first character. -/
theorem exists_cons (identifier : IsIdentifier chars) :
    ∃ first rest, chars = first :: rest ∧ isIdentStart first := by
  cases chars with
  | nil => simp [IsIdentifier] at identifier
  | cons first rest => exact ⟨first, rest, rfl, by simpa using identifier.1⟩

/-- All characters of an identifier may stand in identifiers. -/
theorem inside (identifier : IsIdentifier chars) : ∀ char ∈ chars, isIdentChar char :=
  List.all_eq_true.mp identifier.2

/-- The leading word of a text that begins with an identifier start. -/
theorem of_head {text : List Char} (begins : text.head?.any isIdentStart) :
    IsIdentifier (leadingWord text) := by
  refine ⟨?_, List.all_takeWhile⟩
  cases text with
  | nil => simp at begins
  | cons first rest =>
      rw [List.head?_cons, Option.any_some] at begins
      simp [leadingWord, isIdentChar_of_isIdentStart begins, begins]

end IsIdentifier

/-- An identifier is the leading word of a text that does not go on with it. -/
theorem leadingWord_append {word more : List Char} (identifier : IsIdentifier word)
    (stops : Stops isIdentChar more) : leadingWord (word ++ more) = word :=
  stops.takeWhile_append identifier.inside

/-- An identifier alone is its own leading word. -/
theorem leadingWord_of_isIdentifier {word : List Char} (identifier : IsIdentifier word) :
    leadingWord word = word := by
  simpa using leadingWord_append identifier Source.stops_nil

/-- A text starts with a word if that is its leading word. -/
theorem startsWithWord_iff {word text : List Char} (isWord : IsIdentifier word) :
    startsWithWord word text = true ↔ leadingWord text = word := by
  simp only [startsWithWord, Bool.and_eq_true, Bool.not_eq_true', List.isPrefixOf_iff_prefix]
  constructor
  · rintro ⟨⟨more, rfl⟩, ended⟩
    rw [List.drop_left] at ended
    exact leadingWord_append isWord ended
  · rintro rfl
    refine ⟨List.takeWhile_prefix _, ?_⟩
    rw [leadingWord, Source.drop_takeWhile]
    exact Source.stops_dropWhile _ _

/-- The words of a table, each of which stands for a value. -/
def Lexeme.words (table : List (String × Value))
    (areWords : ∀ entry ∈ table, IsIdentifier entry.1.toList) : Lexeme Value where
  spells chars value := ∃ word, (word, value) ∈ table ∧ chars = word.toList
  runsOn text := text.head?.any isIdentChar
  opens := by
    rintro chars value ⟨word, member, rfl⟩
    obtain ⟨first, rest, same, begins⟩ := (areWords _ member).exists_cons
    exact ⟨first, rest, same, opensGap_of_isIdentChar (isIdentChar_of_isIdentStart begins)⟩
  settles := @settles_word

/-- A word of a table begins as identifiers do. -/
theorem Lexeme.starts_words {table : List (String × Value)}
    {areWords : ∀ entry ∈ table, IsIdentifier entry.1.toList} :
    (Lexeme.words table areWords).phrase.Starts fun text => text.head?.any isIdentStart := by
  refine starts_phrase _ fun {chars value} spelt more _ => ?_
  obtain ⟨word, member, rfl⟩ := spelt
  obtain ⟨first, rest, same, begins⟩ := (areWords _ member).exists_cons
  simp only at same
  rw [same]
  simpa using begins

/-- A keyword. -/
def Lexeme.keyword (word : String) (isWord : IsIdentifier word.toList) : Lexeme Unit :=
  .words [(word, ())] (by simpa using isWord)

/-- What a word is read from: a text of which it is the leading word. -/
theorem Lexeme.words_phrase_iff {table : List (String × Value)}
    {areWords : ∀ entry ∈ table, IsIdentifier entry.1.toList} {before after : View}
    {value : Value} : (Lexeme.words table areWords).phrase before value after ↔
      ∃ word, (word, value) ∈ table ∧ leadingWord before.rest = word.toList ∧
        after = { before with rest := before.rest.drop word.toList.length }.skip := by
  constructor
  · rintro ⟨_, more, rest, ⟨word, member, rfl⟩, ended, rfl⟩
    refine ⟨word, member, ?_, ?_⟩
    · rw [rest]
      exact leadingWord_append (areWords _ member) ended
    · rw [rest, List.drop_left]
  · rintro ⟨word, member, leading, rfl⟩
    refine ⟨word.toList, before.rest.drop word.toList.length, ?_, ⟨word, member, rfl⟩, ?_, rfl⟩
    · rw [← leading, leadingWord, Source.drop_takeWhile, List.takeWhile_append_dropWhile]
    · rw [← leading, leadingWord, Source.drop_takeWhile]
      exact Source.stops_dropWhile _ _

/-- A keyword with the gap after it. -/
abbrev keyword (word : String) (isWord : IsIdentifier word.toList) : Phrase Unit :=
  (Lexeme.keyword word isWord).phrase

/-- A keyword stands where it is the leading word, and reading goes on past the gap after it. -/
theorem keyword_iff {word : String} {isWord : IsIdentifier word.toList} {before after : View}
    {value : Unit} : keyword word isWord before value after ↔
      leadingWord before.rest = word.toList ∧
        after = { before with rest := before.rest.drop word.toList.length }.skip := by
  rw [keyword, Lexeme.keyword, Lexeme.words_phrase_iff]
  simp

/-- Some characters are passed with the gap behind them, if a condition holds. -/
theorem reads_pass {condition : Prop} [Decidable condition] (count : Nat)
    (what : Expectation) (view : View) :
    reads (if condition then do
        Parser.advance count
        Parser.skip
      else Parser.expected what) view =
      if condition then some ((), { view with rest := view.rest.drop count }.skip) else none := by
  split
  · rw [Parser.reads_bind _ _ (.advance _) fun _ => .skip, Parser.reads_advance, Option.bind_some,
      Parser.reads_skip]
  · rfl

/-- A keyword is read just where it is the leading word. -/
theorem reads_keyword {word : String} (isWord : IsIdentifier word.toList) (view : View) :
    reads (Parser.keyword word) view =
      if leadingWord view.rest = word.toList then
        some ((), { view with rest := view.rest.drop word.toList.length }.skip)
      else none := by
  have looked : reads (Parser.keyword word) view =
      reads (if startsWithWord word.toList view.rest then do
        Parser.advance word.toList.length
        Parser.skip
      else Parser.expected (.keyword word)) view := rfl
  rw [looked]
  simp only [startsWithWord_iff isWord]
  exact reads_pass word.toList.length (.keyword word) view

private theorem reads_probe_keyword {word : String} (isWord : IsIdentifier word.toList)
    (view : View) :
    reads (Parser.probe (Parser.keyword word)) view =
      some (if leadingWord view.rest = word.toList then
        (some (), { view with rest := view.rest.drop word.toList.length }.skip)
      else (none, view)) := by
  have ran : Parser.keyword word (Parser.State.ofView view) =
      (if startsWithWord word.toList view.rest then do
        Parser.advance word.toList.length
        Parser.skip
      else Parser.expected (.keyword word)) (Parser.State.ofView view) := rfl
  have read := reads_keyword isWord view
  split
  · next leads =>
      rw [if_pos leads] at read
      unfold reads at read ⊢
      unfold Parser.probe
      cases result : Parser.keyword word (Parser.State.ofView view) <;> rw [result] at read
      case ok value next =>
        have same : next.view = _ := congrArg Prod.snd (Option.some.inj read)
        exact congrArg (fun after => some (some (), after)) same
      case error => cases read
  · next differs =>
      rw [← startsWithWord_iff isWord] at differs
      unfold reads Parser.probe
      rw [ran, if_neg differs]
      rfl

/-- A rule for a word reads just the word, never the beginning of a longer one. -/
theorem agrees_keyword {word : String} (isWord : IsIdentifier word.toList) :
    Agrees (Parser.keyword word) (keyword word isWord) anything := by
  refine ⟨.keyword word, fun {before value after} _ => ?_⟩
  rw [reads_keyword isWord, keyword_iff]
  constructor
  · intro read
    split at read
    · next leads => cases read; exact ⟨leads, rfl⟩
    · cases read
  · rintro ⟨leads, rfl⟩
    rw [if_pos leads]

/-- A rule that reads the words of a table misses if the leading word is none of them. -/
theorem reads_words_eq_none {rule : Rule Value} {table : List (String × Value)}
    {areWords : ∀ entry ∈ table, IsIdentifier entry.1.toList}
    (agrees : Agrees rule (Lexeme.words table areWords).phrase anything) {view : View} :
    reads rule view = none ↔ ∀ entry ∈ table, leadingWord view.rest ≠ entry.1.toList := by
  rw [Option.eq_none_iff_forall_ne_some]
  constructor
  · intro missed entry member leads
    exact missed _ (agrees.always.mpr (Lexeme.words_phrase_iff.mpr ⟨_, member, leads, rfl⟩))
  · rintro apart ⟨value, after⟩ read
    obtain ⟨word, member, leads, -⟩ := Lexeme.words_phrase_iff.mp (agrees.always.mp read)
    exact apart _ member leads

/-- Of two words the one is read with which the text begins. -/
theorem Lexeme.pair_phrase_iff {first second : String} {value value' found : Value}
    {areWords : ∀ entry ∈ [(first, value), (second, value')], IsIdentifier entry.1.toList}
    {before after : View} : (Lexeme.words _ areWords).phrase before found after ↔
      (leadingWord before.rest = first.toList ∧ found = value ∧
        after = { before with rest := before.rest.drop first.toList.length }.skip) ∨
      leadingWord before.rest = second.toList ∧ found = value' ∧
        after = { before with rest := before.rest.drop second.toList.length }.skip := by
  rw [Lexeme.words_phrase_iff]
  constructor
  · rintro ⟨word, member, leads, rfl⟩
    simp only [List.mem_cons, Prod.mk.injEq, List.not_mem_nil, or_false] at member
    rcases member with ⟨rfl, rfl⟩ | ⟨rfl, rfl⟩
    · exact .inl ⟨leads, rfl, rfl⟩
    · exact .inr ⟨leads, rfl, rfl⟩
  · rintro (⟨leads, rfl, rfl⟩ | ⟨leads, rfl, rfl⟩)
    · exact ⟨first, by simp, leads, rfl⟩
    · exact ⟨second, by simp, leads, rfl⟩

/-- A rule for one of two words reads the words of a table with two entries. -/
theorem agrees_words {first second : String} {value value' : Value}
    (apart : first ≠ second)
    (areWords : ∀ entry ∈ [(first, value), (second, value')], IsIdentifier entry.1.toList) :
    Agrees (do
      match ← Parser.probe (Parser.keyword first) with
      | some _ => return value
      | none =>
        Parser.keyword second
        return value') (Lexeme.words _ areWords).phrase anything := by
  have isFirst : IsIdentifier first.toList := areWords (first, value) (by simp)
  have isSecond : IsIdentifier second.toList := areWords (second, value') (by simp)
  have formed : Formed (Parser.keyword second >>= fun _ => (pure value' : Rule Value)) :=
    (Formed.keyword second).bind fun _ => .pure value'
  have formedNext : ∀ found : Option Unit, Formed (match found with
      | some _ => (pure value : Rule Value)
      | none => Parser.keyword second >>= fun _ => pure value')
    | some _ => .pure value
    | none => formed
  refine ⟨(Formed.keyword first).probe.bind formedNext, fun {before found after} _ => ?_⟩
  rw [Parser.reads_bind _ _ (Formed.keyword first).probe formedNext,
    reads_probe_keyword isFirst, Option.bind_some, Lexeme.pair_phrase_iff]
  by_cases leads : leadingWord before.rest = first.toList
  · have other : first.toList ≠ second.toList := fun same => apart (String.toList_inj.mp same)
    simp only [leads, other, ↓reduceIte, Parser.reads_pure, Option.some.injEq, Prod.mk.injEq,
      true_and, false_and, or_false, eq_comm]
  · simp only [leads, ↓reduceIte, false_and, false_or]
    rw [Parser.reads_bind _ _ (Formed.keyword second) fun _ => .pure _, reads_keyword isSecond]
    by_cases leads' : leadingWord before.rest = second.toList
    · simp only [leads', ↓reduceIte, Option.bind_some, Parser.reads_pure, Option.some.injEq,
        Prod.mk.injEq, true_and, eq_comm]
    · simp only [leads', ↓reduceIte, Option.bind_none, reduceCtorEq, false_and]

/-! ## Marks and separators -/

/-- A punctuation mark. -/
def Lexeme.mark (char : Char) (plain : opensGap char = false) : Lexeme Unit where
  spells chars _ := chars = [char]
  runsOn _ := false
  opens := by
    rintro chars value rfl
    exact ⟨char, [], rfl, plain⟩
  settles := fun _ _ => rfl

/-- A punctuation mark with the gap after it. -/
abbrev mark (char : Char) (plain : opensGap char = false) : Phrase Unit :=
  (Lexeme.mark char plain).phrase

/-! The marks of the grammar that stand in several of its rules begin no gap. -/

theorem plain_colon : opensGap ':' = false := rfl

theorem plain_equals : opensGap '=' = false := rfl

theorem plain_leftBrace : opensGap '\x7b' = false := rfl

theorem plain_rightBrace : opensGap '\x7d' = false := rfl

/-- A mark begins with its character. -/
theorem starts_mark {char : Char} {plain : opensGap char = false} :
    (mark char plain).Starts fun text => text.head? = some char :=
  Lexeme.starts_phrase _ fun spelt _ _ => by rw [spelt]; rfl

/-- A mark is read just where its character comes next. -/
theorem reads_mark (char : Char) (view : View) :
    reads (Parser.mark char) view =
      if view.rest.head? = some char then some ((), { view with rest := view.rest.drop 1 }.skip)
      else none := by
  have looked : reads (Parser.mark char) view =
      reads (if view.rest.head? = some char then do
        Parser.advance 1
        Parser.skip
      else Parser.expected (.mark char)) view := rfl
  rw [looked]
  exact reads_pass 1 (.mark char) view

/-- A rule for a mark reads its character and the gap after it. -/
theorem agrees_mark {char : Char} (plain : opensGap char = false) :
    Agrees (Parser.mark char) (mark char plain) anything := by
  refine ⟨.mark char, fun {before value after} _ => ?_⟩
  rw [reads_mark]
  constructor
  · intro read
    split at read
    · next next =>
        cases read
        obtain ⟨more, rest⟩ := List.head?_eq_some_iff.mp next
        exact ⟨[char], more, rest, rfl, rfl, by rw [rest]; rfl⟩
    · cases read
  · rintro ⟨_, more, rest, rfl, -, rfl⟩
    rw [rest]
    simp

/-- The mark that closes a block, before which no comments wait for an item any more. -/
def close (char : Char) (plain : opensGap char = false) : Phrase Unit := do
  Phrase.discardHead
  mark char plain

/-- A closing mark begins with its character. -/
theorem starts_close {char : Char} {plain : opensGap char = false} :
    (close char plain).Starts fun text => text.head? = some char :=
  Phrase.Starts.discardHead starts_mark

/-- A closing mark uses up its character. -/
theorem advances_close {char : Char} {plain : opensGap char = false} :
    (close char plain).Advances :=
  Phrase.Advances.after Phrase.Narrows.discardHead fun _ => Lexeme.advances_phrase _

/-- A closing mark is read with the comments before it given up. -/
theorem agrees_close {char : Char} (plain : opensGap char = false) :
    Agrees (Parser.close char) (close char plain) anything :=
  Agrees.discardHead.bind fun _ => agrees_mark plain

private theorem opensGap_of_isSeparator {char : Char} (separates : isSeparator char) :
    opensGap char = false := by
  simp only [isSeparator, Bool.or_eq_true, beq_iff_eq] at separates
  rcases separates with rfl | rfl <;> rfl

/-- No separator stands where neither a comma nor a semicolon comes next. -/
theorem stops_isSeparator {text : List Char} (noComma : text.head? ≠ some ',')
    (noSemicolon : text.head? ≠ some ';') : Stops isSeparator text := by
  cases text with
  | nil => rfl
  | cons char rest =>
      refine Source.stops_cons.mpr ?_
      by_contra separates
      simp only [isSeparator, Bool.not_eq_false, Bool.or_eq_true, beq_iff_eq] at separates
      rcases separates with rfl | rfl
      · exact noComma rfl
      · exact noSemicolon rfl

/-- What begins with a character of a kind that no separator is of begins with no separator. -/
theorem stops_isSeparator_of_head {test : Char → Bool} (comma : test ',' = false)
    (semicolon : test ';' = false) {text : List Char} (begins : text.head?.any test) :
    Stops isSeparator text := by
  refine stops_isSeparator (fun same => ?_) fun same => ?_
  · simp [same, comma] at begins
  · simp [same, semicolon] at begins

/-- A comma or a semicolon. -/
def Lexeme.separator : Lexeme Unit where
  spells chars _ := ∃ char, isSeparator char ∧ chars = [char]
  runsOn _ := false
  opens := by
    rintro chars value ⟨char, separates, rfl⟩
    exact ⟨char, [], rfl, opensGap_of_isSeparator separates⟩
  settles := fun _ _ => rfl

/-- A separator, or nothing where none comes next. -/
def separator : Phrase Unit := fun before value after =>
  Lexeme.separator.phrase before value after ∨ Stops isSeparator before.rest ∧ after = before

/-- What comes after a separator that may be missing begins as a separator does or as the next
part. -/
theorem starts_separator {next : Unit → Phrase Value} {condition : List Char → Prop}
    (present : ∀ char rest, isSeparator char → condition (char :: rest))
    (absent : (next ()).Starts condition) : (separator >>= next).Starts condition := by
  rintro before value after ⟨_, middle, here, there⟩
  rcases here with ⟨_, more, rest, ⟨char, separates, rfl⟩, -, -⟩ | ⟨-, rfl⟩
  · rw [rest]
    exact present char more separates
  · exact absent there

/-- A separator never makes the text longer, whether it is there or not. -/
theorem narrows_separator : separator.Narrows := by
  rintro before value after (here | ⟨-, rfl⟩)
  · exact Lexeme.separator.narrows_phrase here
  · exact Nat.le_refl _

/-- A separator is read where one stands, and left out only where none does. -/
theorem agrees_separator : Agrees Parser.separator separator anything := by
  refine ⟨.separator, fun {before value after} _ => ?_⟩
  have looked : reads Parser.separator before =
      reads (if before.rest.head?.any isSeparator then do
        Parser.advance 1
        Parser.skip
      else pure ()) before := rfl
  rw [looked]
  constructor
  · intro read
    split at read
    · next separates =>
        rw [Parser.reads_bind _ _ (.advance _) fun _ => .skip, Parser.reads_advance,
          Option.bind_some, Parser.reads_skip] at read
        cases read
        cases rest : before.rest with
        | nil => simp [rest] at separates
        | cons char more =>
            rw [rest, List.head?_cons, Option.any_some] at separates
            exact .inl ⟨[char], more, rest, ⟨char, separates, rfl⟩, rfl, rfl⟩
    · next stops =>
        cases read
        exact .inr ⟨by simpa [Stops] using stops, rfl⟩
  · rintro (⟨_, more, rest, ⟨char, separates, rfl⟩, -, rfl⟩ | ⟨stops, rfl⟩)
    · rw [rest, if_pos (by simpa using separates),
        Parser.reads_bind _ _ (.advance _) fun _ => .skip, Parser.reads_advance,
        Option.bind_some, Parser.reads_skip, rest]
      rfl
    · rw [if_neg (by simpa [Stops] using stops)]
      rfl

/-! ## Runs of characters -/

/-- A first character and any number of further ones. -/
def Lexeme.run (first test : Char → Bool) (inside : ∀ char, first char → test char)
    (plain : ∀ char, test char → opensGap char = false) : Lexeme String where
  spells chars value :=
    (∃ char rest, chars = char :: rest ∧ first char) ∧ chars.all test ∧ value = String.ofList chars
  runsOn text := text.head?.any test
  opens := by
    rintro _ value ⟨⟨char, rest, rfl, begins⟩, -, -⟩
    exact ⟨char, rest, rfl, plain _ (inside _ begins)⟩
  settles := settles_head plain

/-- A run goes as far as its characters do, if the first of them may begin it. -/
theorem Lexeme.run_phrase_iff {first test : Char → Bool} {inside : ∀ char, first char → test char}
    {plain : ∀ char, test char → opensGap char = false} {before after : View} {value : String} :
    (Lexeme.run first test inside plain).phrase before value after ↔
      (before.rest.head?.any first ∧ value = String.ofList (before.rest.takeWhile test) ∧
        after = { before with rest := before.rest.dropWhile test }.skip) := by
  constructor
  · rintro ⟨_, more, rest, ⟨⟨char, others, rfl, begins⟩, passes, rfl⟩, stops, rfl⟩
    have passes := List.all_eq_true.mp passes
    have ended : Stops test more := stops
    refine ⟨by simp [rest, begins], ?_, ?_⟩
    · rw [rest, ended.takeWhile_append passes]
    · rw [← Source.drop_takeWhile, rest, ended.takeWhile_append passes, List.drop_left]
  · rintro ⟨begins, rfl, rfl⟩
    refine ⟨before.rest.takeWhile test, before.rest.dropWhile test,
      List.takeWhile_append_dropWhile.symm, ⟨?_, List.all_takeWhile, rfl⟩,
      Source.stops_dropWhile _ _, rfl⟩
    cases rest : before.rest with
    | nil => simp [rest] at begins
    | cons char others =>
        rw [rest, List.head?_cons, Option.any_some] at begins
        exact ⟨char, others.takeWhile test, by simp [inside _ begins], begins⟩

/-- A name, dots included. -/
def Lexeme.name : Lexeme String :=
  .run isIdentStart isNameChar
    (fun _ start => isNameChar_of_isIdentChar (isIdentChar_of_isIdentStart start))
    fun _ => opensGap_of_isNameChar

/-- A name with the gap after it. -/
abbrev name : Phrase String :=
  Lexeme.name.phrase

/-- A name begins as identifiers do. -/
theorem starts_name : name.Starts fun text => text.head?.any isIdentStart :=
  fun _ _ _ here => (Lexeme.run_phrase_iff.mp here).1

/-- A name and its text have one leading word. -/
theorem leadingWord_of_name {before after : View} {value : String}
    (named : name before value after) :
    leadingWord before.rest = leadingWord value.toList := by
  obtain ⟨-, rfl, -⟩ := Lexeme.run_phrase_iff.mp named
  rw [String.toList_ofList, leadingWord, leadingWord, List.takeWhile_takeWhile]
  congr 1
  funext char
  cases ident : isIdentChar char with
  | false => simp
  | true => simp [isNameChar_of_isIdentChar ident]

/-- Past the leading word of a name stands either what follows the name or a dot. -/
theorem past_leadingWord_of_name {before after : View} {value : String}
    (named : name before value after) {past : View}
    (same : past = { before with rest := before.rest.drop (leadingWord before.rest).length }.skip) :
    past = after ∨ past.rest.head? = some '.' := by
  obtain ⟨begins, -, rfl⟩ := Lexeme.run_phrase_iff.mp named
  rw [leadingWord, Source.drop_takeWhile] at same
  have split := List.takeWhile_append_dropWhile (p := isIdentChar) (l := before.rest)
  by_cases dot : (before.rest.dropWhile isIdentChar).head? = some '.'
  · right
    obtain ⟨others, tail⟩ := List.head?_eq_some_iff.mp dot
    rw [same, View.skip_of_stops (by simp [tail, opensGap, Source.isSpace, Source.isLineBreak])]
    exact dot
  · left
    have stops : Stops isNameChar (before.rest.dropWhile isIdentChar) := by
      have ended := Source.stops_dropWhile isIdentChar before.rest
      cases tail : before.rest.dropWhile isIdentChar with
      | nil => rfl
      | cons char others =>
          rw [tail] at dot ended
          simpa [isNameChar, Source.stops_cons.mp ended] using dot
    have whole : before.rest.dropWhile isNameChar = before.rest.dropWhile isIdentChar := by
      conv => lhs; rw [← split]
      exact stops.dropWhile_append fun char member =>
        isNameChar_of_isIdentChar (List.mem_takeWhile_imp member)
    rw [same, whole]

/-- A name is read to its end, dots and all. -/
theorem agrees_name : Agrees Parser.name name anything := by
  refine ⟨.name, fun {before value after} _ => ?_⟩
  have looked : reads Parser.name before =
      reads (if before.rest.head?.any isIdentStart then do
        let chars ← Parser.takeWhile isNameChar
        Parser.skip
        return String.ofList chars
      else Parser.expected .identifier) before := rfl
  rw [looked, name, Lexeme.name, Lexeme.run_phrase_iff]
  split
  · next begins =>
      rw [Parser.reads_bind _ _ (.takeWhile _) fun _ => Formed.skip.bind fun _ => .pure _,
        Parser.reads_takeWhile, Option.bind_some, Parser.reads_bind _ _ .skip fun _ => .pure _,
        Parser.reads_skip, Option.bind_some, Parser.reads_pure, Option.some.injEq, Prod.mk.injEq]
      exact ⟨fun same => ⟨begins, same.1.symm, same.2.symm⟩,
        fun both => ⟨both.2.1.symm, both.2.2.symm⟩⟩
  · next none => simp [none]

/-- The scope of a namespace. -/
def Lexeme.scope : Lexeme String :=
  .run isScopeChar isScopeChar (fun _ => id) fun _ => opensGap_of_isScopeChar

/-- The scope of a namespace is read to its end, or is a star. -/
theorem agrees_scope : Agrees Parser.namespaceScope Lexeme.scope.phrase anything := by
  refine ⟨.namespaceScope, fun {before value after} _ => ?_⟩
  rw [Parser.namespaceScope, Parser.reads_bind _ _ (.takeWhile _) fun _ =>
    (Formed.expected _).ite (Formed.skip.bind fun _ => .pure _), Parser.reads_takeWhile,
    Option.bind_some, Lexeme.scope, Lexeme.run_phrase_iff]
  cases rest : before.rest with
  | nil => simp
  | cons char others =>
      by_cases begins : isScopeChar char
      · simp only [List.takeWhile_cons_of_pos begins, List.dropWhile_cons_of_pos begins,
          List.isEmpty_cons, Bool.false_eq_true, if_false, List.head?_cons, Option.any_some, begins,
          true_and]
        rw [Parser.reads_bind _ _ .skip fun _ => .pure _, Parser.reads_skip, Option.bind_some,
          Parser.reads_pure, Option.some.injEq, Prod.mk.injEq]
        exact ⟨fun same => ⟨same.1.symm, same.2.symm⟩, fun same => ⟨same.1.symm, same.2.symm⟩⟩
      · simp [begins]

/-! ## Paths -/

/-- Whether a path would go on into a text: with its last segment, or with a further one. -/
def pathRunsOn : List Char → Bool
  | '.' :: start :: _ => isIdentStart start
  | char :: _ => isIdentChar char
  | [] => false

private theorem isIdentChar_of_isLineBreak {char : Char} (breaks : Source.isLineBreak char) :
    isIdentChar char = false := by
  by_contra ident
  have plain := opensGap_of_isIdentChar (by simpa using ident)
  simp [opensGap, breaks] at plain

private theorem isIdentStart_of_isLineBreak {char : Char} (breaks : Source.isLineBreak char) :
    isIdentStart char = false := by
  by_contra start
  have ident := isIdentChar_of_isIdentStart (by simpa using start)
  rw [isIdentChar_of_isLineBreak breaks] at ident
  cases ident

private theorem stops_of_pathRunsOn {text : List Char} (ended : pathRunsOn text = false) :
    Stops isIdentChar text := by
  unfold pathRunsOn at ended
  split at ended
  · exact Source.stops_cons.mpr rfl
  · exact Source.stops_cons.mpr ended
  · rfl

/-- A text that ends a name ends a path. -/
theorem pathRunsOn_of_stops {text : List Char} (ended : Stops isNameChar text) :
    pathRunsOn text = false := by
  have ident : Stops isIdentChar text := ended.mono fun _ => isNameChar_of_isIdentChar
  unfold pathRunsOn
  split
  · cases ended
  · simpa using ident
  · rfl

private theorem pathRunsOn_settles {front back more : List Char}
    (ended : pathRunsOn (front ++ back) = false) (ends : EndsLine more) :
    pathRunsOn (front ++ more) = false := by
  have breaks : ∀ {char rest}, more = char :: rest → Source.isLineBreak char := by
    rintro char rest rfl
    simpa [EndsLine] using ends
  cases front with
  | nil =>
      cases more with
      | nil => rfl
      | cons char rest =>
          have ending := breaks rfl
          have plain : char ≠ '.' := by rintro rfl; cases ending
          rw [List.nil_append, pathRunsOn.eq_2 _ _ fun _ _ same => absurd same plain]
          exact isIdentChar_of_isLineBreak ending
  | cons first others =>
      by_cases dot : first = '.'
      · subst dot
        cases others with
        | nil =>
            cases more with
            | nil => rfl
            | cons start rest => exact isIdentStart_of_isLineBreak (breaks rfl)
        | cons second further => exact ended
      · rw [List.cons_append, pathRunsOn.eq_2 _ _ fun _ _ same => absurd same dot] at ended ⊢
        exact ended

private theorem pathSegments_eq {text : List Char} : pathSegments text =
    match text.dropWhile isIdentChar with
    | '.' :: start :: rest =>
      if isIdentStart start then text.takeWhile isIdentChar :: pathSegments (start :: rest)
      else [text.takeWhile isIdentChar]
    | _ => [text.takeWhile isIdentChar] := by
  rw [pathSegments.eq_def]
  split <;> rename_i same <;> simp only [same]

/-- The segments of a path that is written out are read back, up to what the path does not run on
into. -/
theorem pathSegments_intercalate {segments : List (List Char)} {more : List Char}
    (nonempty : segments ≠ []) (identifiers : ∀ segment ∈ segments, IsIdentifier segment)
    (ended : pathRunsOn more = false) :
    pathSegments (['.'].intercalate segments ++ more) = segments := by
  induction segments with
  | nil => exact absurd rfl nonempty
  | cons segment others ih =>
      have passes := (identifiers segment (by simp)).inside
      cases others with
      | nil =>
          have stops := stops_of_pathRunsOn ended
          rw [List.intercalate_singleton, pathSegments_eq, stops.takeWhile_append passes,
            stops.dropWhile_append passes]
          split
          · exact if_neg (by simpa [pathRunsOn] using ended)
          · rfl
      | cons second further =>
          have later := ih (by simp) fun other member => identifiers other (by simp [member])
          obtain ⟨start, rest, same, begins⟩ := (identifiers second (by simp)).exists_cons
          have stops : Stops isIdentChar ('.' :: (['.'].intercalate (second :: further) ++ more)) :=
            Source.stops_cons.mpr rfl
          have text : ['.'].intercalate (segment :: second :: further) ++ more =
              segment ++ '.' :: (['.'].intercalate (second :: further) ++ more) := by simp
          rw [text, pathSegments_eq, stops.takeWhile_append passes, stops.dropWhile_append passes]
          subst same
          rw [List.intercalate_cons_cons_left, List.cons_append] at later ⊢
          simp only [begins, if_true, later]

/-- The segments that are read from a text that begins with an identifier are identifiers, and
together they are the beginning of the text, up to where no path goes on. -/
theorem pathSegments_spec {text : List Char} (begins : text.head?.any isIdentStart) :
    pathSegments text ≠ [] ∧ (∀ segment ∈ pathSegments text, IsIdentifier segment) ∧
      ∃ more, text = ['.'].intercalate (pathSegments text) ++ more ∧ pathRunsOn more = false := by
  -- Whether or not a segment follows, the first one is an identifier.
  have identifier : IsIdentifier (text.takeWhile isIdentChar) := .of_head begins
  have split := List.takeWhile_append_dropWhile (p := isIdentChar) (l := text)
  fun_induction pathSegments text with
  | case1 text start rest after starts ih =>
      have following : (start :: rest).head?.any isIdentStart := by simpa using starts
      obtain ⟨nonempty, identifiers, more, same, ended⟩ :=
        ih following (.of_head following) List.takeWhile_append_dropWhile
      refine ⟨by simp, ?_, more, ?_, ended⟩
      · intro segment member
        rcases List.mem_cons.mp member with rfl | member
        · exact identifier
        · exact identifiers segment member
      · rw [List.intercalate_cons_of_ne_nil nonempty, List.append_assoc, ← same, List.append_assoc,
          List.singleton_append, ← after, split]
  | case2 text start rest after stops =>
      refine ⟨by simp, by simpa using identifier, text.dropWhile isIdentChar, ?_, ?_⟩
      · rw [List.intercalate_singleton, split]
      · rw [after]
        simpa [pathRunsOn] using stops
  | case3 text noPath =>
      refine ⟨by simp, by simpa using identifier, text.dropWhile isIdentChar, ?_, ?_⟩
      · rw [List.intercalate_singleton, split]
      · have stops := Source.stops_dropWhile isIdentChar text
        unfold pathRunsOn
        split
        · next start rest after => exact absurd after (noPath start rest)
        · next char rest _ after => rwa [after, Source.stops_cons] at stops
        · rfl

/-- Names may have all the characters of dotted paths in them. -/
theorem isNameChar_of_mem_intercalate {segments : List (List Char)}
    (identifiers : ∀ segment ∈ segments, IsIdentifier segment) :
    ∀ char ∈ ['.'].intercalate segments, isNameChar char := by
  have first (segment : List Char) (member : segment ∈ segments) :
      ∀ char ∈ segment, isNameChar char := fun char inside =>
    isNameChar_of_isIdentChar ((identifiers segment member).inside char inside)
  induction segments with
  | nil => simp
  | cons segment others ih =>
      cases others with
      | nil => simpa using first
      | cons second further =>
          have later := ih (fun other member => identifiers other (by simp [member]))
            fun other member => first other (by simp [member])
          intro char member
          rw [List.intercalate_cons_cons, List.append_assoc, List.mem_append] at member
          rcases member with here | member
          · exact first segment (by simp) char here
          · rcases List.mem_cons.mp member with rfl | there
            · rfl
            · exact later char there

/-- A dotted path by its segments. -/
def Lexeme.path : Lexeme (List String) where
  spells chars value := ∃ segments : List (List Char), segments ≠ [] ∧
    (∀ segment ∈ segments, IsIdentifier segment) ∧ chars = ['.'].intercalate segments ∧
    value = segments.map String.ofList
  runsOn := pathRunsOn
  opens := by
    rintro _ value ⟨segments, nonempty, identifiers, rfl, -⟩
    obtain ⟨segment, others, rfl⟩ := List.exists_cons_of_ne_nil nonempty
    obtain ⟨first, rest, rfl, begins⟩ := (identifiers segment (by simp)).exists_cons
    rw [List.intercalate_cons_cons_left]
    exact ⟨first, _, rfl, opensGap_of_isIdentChar (isIdentChar_of_isIdentStart begins)⟩
  settles := pathRunsOn_settles

/-- A dotted path with the gap after it. -/
abbrev path : Phrase (List String) :=
  Lexeme.path.phrase

/-- The characters of a dotted name are those of its segments with dots between them. -/
theorem toList_dotted (segments : List String) : (Parser.dotted segments).toList =
    ['.'].intercalate (segments.map String.toList) :=
  String.toList_intercalate

/-- A dotted name is made of characters that names may have. -/
theorem isNameChar_of_mem_dotted {segments : List String}
    (identifiers : ∀ segment ∈ segments, IsIdentifier segment.toList) :
    ∀ char ∈ (Parser.dotted segments).toList, isNameChar char := by
  rw [toList_dotted]
  exact isNameChar_of_mem_intercalate (by simpa using identifiers)

/-- A path is spelt with dots between its segments. -/
theorem spells_dotted {segments : List String} (nonempty : segments ≠ [])
    (identifiers : ∀ segment ∈ segments, IsIdentifier segment.toList) :
    Lexeme.path.spells (Parser.dotted segments).toList segments :=
  ⟨segments.map String.toList, by simpa using nonempty, by simpa using identifiers,
    toList_dotted segments, by simp⟩

/-- A path begins as identifiers do. -/
theorem starts_path : path.Starts fun text => text.head?.any isIdentStart := by
  refine Lexeme.starts_phrase _ fun spelt more _ => ?_
  obtain ⟨segments, nonempty, identifiers, rfl, -⟩ := spelt
  obtain ⟨segment, others, rfl⟩ := List.exists_cons_of_ne_nil nonempty
  obtain ⟨first, rest, rfl, begins⟩ := (identifiers segment (by simp)).exists_cons
  rw [List.intercalate_cons_cons_left]
  simpa using begins

/-- The first segment of a path is the leading word of its text. -/
theorem head?_of_path {before after : View} {segments : List String}
    (here : path before segments after) :
    segments.head? = some (String.ofList (leadingWord before.rest)) := by
  obtain ⟨_, more, rest, ⟨segments, nonempty, identifiers, rfl, rfl⟩, ended, -⟩ := here
  obtain ⟨segment, others, rfl⟩ := List.exists_cons_of_ne_nil nonempty
  have identifier := identifiers segment (by simp)
  rw [rest, List.map_cons, List.head?_cons]
  cases others with
  | nil =>
      rw [List.intercalate_singleton, leadingWord_append identifier (stops_of_pathRunsOn ended)]
  | cons second further =>
      have stops : Stops isIdentChar (['.'] ++ (['.'].intercalate (second :: further) ++ more)) :=
        Source.stops_cons.mpr rfl
      rw [List.intercalate_cons_cons, List.append_assoc, List.append_assoc,
        leadingWord_append identifier stops]

/-- A path is read with all its segments, as far as a dot is followed by another one. -/
theorem agrees_path : Agrees Parser.path path anything := by
  refine ⟨.path, fun {before value after} _ => ?_⟩
  -- The rule looks at the text twice, once for the first character and once for the segments.
  have looked : Parser.path = Parser.look fun text =>
      if text.head?.any isIdentStart then Parser.look fun text => do
        Parser.advance (['.'].intercalate (pathSegments text)).length
        Parser.skip
        return (pathSegments text).map String.ofList
      else Parser.expected .identifier := rfl
  rw [looked, Parser.reads_look]
  by_cases begins : before.rest.head?.any isIdentStart
  · rw [if_pos begins, Parser.reads_look,
      Parser.reads_bind _ _ (.advance _) fun _ => Formed.skip.bind fun _ => .pure _,
      Parser.reads_advance, Option.bind_some, Parser.reads_bind _ _ .skip fun _ => .pure _,
      Parser.reads_skip, Option.bind_some, Parser.reads_pure, Option.some.injEq, Prod.mk.injEq]
    constructor
    · rintro ⟨rfl, rfl⟩
      obtain ⟨nonempty, identifiers, more, same, ended⟩ := pathSegments_spec begins
      refine ⟨_, more, same, ⟨_, nonempty, identifiers, rfl, rfl⟩, ended, ?_⟩
      rw [same, pathSegments_intercalate nonempty identifiers ended, List.drop_left]
    · rintro ⟨_, more, same, ⟨segments, nonempty, identifiers, rfl, rfl⟩, ended, rfl⟩
      rw [same, pathSegments_intercalate nonempty identifiers ended, List.drop_left]
      exact ⟨rfl, rfl⟩
  · rw [if_neg begins]
    simp only [Parser.reads_expected, reduceCtorEq, false_iff]
    rintro ⟨_, more, same, spelt, -, -⟩
    obtain ⟨segments, nonempty, identifiers, rfl, -⟩ := spelt
    obtain ⟨segment, others, rfl⟩ := List.exists_cons_of_ne_nil nonempty
    obtain ⟨first, rest, rfl, begins'⟩ := (identifiers segment (by simp)).exists_cons
    rw [same, List.intercalate_cons_cons_left] at begins
    simp [begins'] at begins

end Grammar
end ThriftIdl
