import ThriftIdl.Proofs.Grammar.Number
import ThriftIdl.Text.Letter

/-!
# The grammar of constant values

The first characters of a text decide which form of literal it can be (`formOf`), with one
exception: a truth value is spelt as a reference is. The rule for literals reads exactly the literal
phrases (`agrees_literal`), however deeply they are nested.
-/

namespace ThriftIdl

open Source (Stops opensGap)
open ThriftIdl.Parser (View Rule Formed reads isIdentStart isIdentChar isNameChar isQuote)

namespace Grammar

open Phrase

variable {Value : Type}

/-! ## Quoted texts -/

/-- A closing quote that is found is found again whatever follows it. -/
theorem throughQuote?_append {quote : Char} {escapes : Bool} {text raw : List Char}
    (found : Text.throughQuote? quote escapes text = some raw) (more : List Char) :
    Text.throughQuote? quote escapes (raw ++ quote :: more) = some raw := by
  fun_induction Text.throughQuote? quote escapes text generalizing raw with
  | case1 => cases found
  | case2 rest =>
      cases found
      rw [List.nil_append, Text.throughQuote?.eq_def]
      simp only [if_true]
  | case3 => cases found
  | case4 char differs hides hidden others ih =>
      obtain ⟨inner, innerFound, rfl⟩ := Option.map_eq_some_iff.mp found
      rw [List.cons_append, List.cons_append, Text.throughQuote?.eq_def]
      simp only [if_neg differs, if_pos hides, ih innerFound, Option.map_some]
  | case5 char rest differs plain ih =>
      obtain ⟨inner, innerFound, rfl⟩ := Option.map_eq_some_iff.mp found
      rw [List.cons_append, Text.throughQuote?.eq_def]
      simp only [if_neg differs, if_neg plain, ih innerFound, Option.map_some]

/-- A text between quotes of one kind, whose raw text may have a meaning. -/
def Lexeme.quoted (escapes : Bool) (meaning : List Char → Option Value) : Lexeme Value where
  spells chars value := ∃ quote raw, isQuote quote ∧ chars = quote :: (raw ++ [quote]) ∧
    Text.throughQuote? quote escapes (raw ++ [quote]) = some raw ∧ meaning raw = some value
  runsOn _ := false
  opens := by
    rintro _ value ⟨quote, raw, quotes, rfl, -, -⟩
    refine ⟨quote, _, rfl, ?_⟩
    simp only [isQuote, Bool.or_eq_true, beq_iff_eq] at quotes
    rcases quotes with rfl | rfl <;> rfl
  settles := fun _ _ => rfl

private theorem starts_quoted {escapes : Bool} {meaning : List Char → Option Value} :
    (Lexeme.quoted escapes meaning).phrase.Starts fun text => text.head?.any isQuote := by
  refine Lexeme.starts_phrase _ fun spelt more _ => ?_
  obtain ⟨quote, raw, quotes, rfl, -, -⟩ := spelt
  simpa using quotes

/-- What the rule for quoted texts reads stands right before the gap after them. -/
theorem reads_quoted_iff {escapes : Bool} {before after : View} {raw : List Char} :
    reads (Parser.quoted escapes) before = some (raw, after) ↔
      ∃ quote more, isQuote quote ∧ before.rest = quote :: (raw ++ quote :: more) ∧
        Text.throughQuote? quote escapes (raw ++ [quote]) = some raw ∧
        after = { before with rest := more } := by
  have looked : Parser.quoted escapes = Parser.look (Parser.quotedFrom escapes) := rfl
  rw [looked, Parser.reads_look]
  obtain ⟨text, head, tail⟩ := before
  cases text with
  | nil =>
      simp only [Parser.quotedFrom, Parser.reads_expected, reduceCtorEq, false_iff]
      rintro ⟨quote, more, -, same, -⟩
      cases same
  | cons first rest =>
      unfold Parser.quotedFrom
      by_cases quotes : isQuote first
      · simp only [if_pos quotes]
        cases found : Text.throughQuote? first escapes rest with
        | none =>
            simp only [Parser.reads_expected, reduceCtorEq, false_iff]
            rintro ⟨quote, more, -, same, closes, -⟩
            cases same
            rw [throughQuote?_append closes] at found
            cases found
        | some inner =>
            obtain ⟨more, split⟩ := Text.append_quote_of_throughQuote? found
            obtain rfl : rest = inner ++ first :: more := by rw [← split]; simp
            rw [Parser.reads_bind _ _ (.advance _) fun _ => .pure _, Parser.reads_advance,
              Option.bind_some, Parser.reads_pure, Option.some.injEq, Prod.mk.injEq]
            have dropped : (first :: (inner ++ first :: more)).drop (inner.length + 2) = more := by
              simp [List.drop_append]
            simp only [dropped]
            constructor
            · rintro ⟨rfl, rfl⟩
              exact ⟨first, more, quotes, rfl, throughQuote?_append found [], rfl⟩
            · rintro ⟨quote, others, -, same, closes, rfl⟩
              cases (List.cons.inj same).1
              have same := (List.cons.inj same).2
              -- Both cuts are where the first closing quote is, so they are the same.
              have again := throughQuote?_append closes others
              rw [← same, throughQuote?_append found] at again
              cases again
              exact ⟨rfl, by simpa using same⟩
      · simp only [if_neg quotes, Parser.reads_expected, reduceCtorEq, false_iff]
        rintro ⟨quote, more, quotes', same, -⟩
        cases same
        exact quotes quotes'

/-- A string with its escapes resolved. -/
def stringLiteral : Phrase Literal :=
  (Lexeme.quoted true fun raw => (Text.unescape raw).map (.str ∘ String.ofList)).phrase

/-- A string is read if it is closed and its escapes can be resolved. -/
theorem agrees_stringLiteral : Agrees Parser.stringLiteral stringLiteral anything := by
  refine ⟨.stringLiteral, fun {before value after} _ => ?_⟩
  rw [Parser.stringLiteral, Parser.reads_bind _ _ (.quoted true) ?formed, Option.bind_eq_some_iff]
  case formed =>
    intro raw
    cases Text.unescape raw with
    | none => exact .rejected _
    | some chars => exact Formed.skip.bind fun _ => .pure _
  constructor
  · rintro ⟨⟨raw, middle⟩, here, there⟩
    obtain ⟨quote, more, quotes, rest, closes, rfl⟩ := reads_quoted_iff.mp here
    cases resolved : Text.unescape raw with
    | none => simp [resolved] at there
    | some chars =>
        simp only [resolved] at there
        rw [Parser.reads_bind _ _ .skip fun _ => .pure _, Parser.reads_skip] at there
        cases there
        exact ⟨quote :: (raw ++ [quote]), more, by simp [rest],
          ⟨quote, raw, quotes, rfl, closes, by simp [resolved]⟩, rfl, rfl⟩
  · rintro ⟨_, more, rest, ⟨quote, raw, quotes, rfl, closes, means⟩, -, rfl⟩
    obtain ⟨chars, resolved, rfl⟩ := Option.map_eq_some_iff.mp means
    refine ⟨(raw, { before with rest := more }),
      reads_quoted_iff.mpr ⟨quote, more, quotes, by simp [rest], closes, rfl⟩, ?_⟩
    simp only [resolved]
    rw [Parser.reads_bind _ _ .skip fun _ => .pure _, Parser.reads_skip]
    rfl

/-! ## The forms of a literal -/

/-- The truth values are words. -/
theorem areWords_bool : ∀ entry ∈ [("true", Literal.bool true), ("false", Literal.bool false)],
    IsIdentifier entry.1.toList := by
  simp only [List.forall_mem_cons, List.not_mem_nil, false_implies, implies_true, and_true]
  decide

/-- A truth value. -/
def boolLiteral : Phrase Literal :=
  (Lexeme.words [("true", Literal.bool true), ("false", Literal.bool false)] areWords_bool).phrase

/-- An item of a list, with the separator after it. -/
def listItem (inner : Phrase Literal) : Phrase Literal := do
  let item ← inner
  separator
  return item

/-- A list of literals. -/
def listLiteral (inner : Phrase Literal) : Phrase Literal := do
  mark '[' rfl
  let items ← Repeated (listItem inner)
  close ']' rfl
  return .list items

/-- An entry of a map, with the separator after it. -/
def mapEntry (inner : Phrase Literal) : Phrase (Literal × Literal) := do
  let key ← inner
  mark ':' plain_colon
  let value ← inner
  separator
  return (key, value)

/-- A map of literals. -/
def mapLiteral (inner : Phrase Literal) : Phrase Literal := do
  mark '\x7b' plain_leftBrace
  let entries ← Repeated (mapEntry inner)
  close '\x7d' plain_rightBrace
  return .map entries

/-- The first segments that make a path a truth value and no reference. -/
def IsTruthValue (segments : List String) : Prop :=
  segments.head? = some "true" ∨ segments.head? = some "false"

/-- A reference to a constant by its path. -/
def refLiteral : Phrase Literal :=
  Literal.ref <$> path.only fun segments => ¬IsTruthValue segments

/-- The forms of a literal, given the phrases inside lists and maps. -/
def literalForms (inner : Phrase Literal) : List (Phrase Literal) :=
  [Literal.hex <$> Lexeme.hex.phrase, Literal.exponent <$> Lexeme.exponent.phrase,
    Lexeme.decimal.phrase, boolLiteral, stringLiteral, listLiteral inner, mapLiteral inner,
    refLiteral]

/-- Whatever holds of the forms of a literal, one by one, holds of all of them. -/
theorem forall_literalForms {motive : Phrase Literal → Prop} {inner : Phrase Literal}
    (hex : motive (Literal.hex <$> Lexeme.hex.phrase))
    (exponent : motive (Literal.exponent <$> Lexeme.exponent.phrase))
    (decimal : motive Lexeme.decimal.phrase) (bool : motive boolLiteral)
    (string : motive stringLiteral) (list : motive (listLiteral inner))
    (map : motive (mapLiteral inner)) (ref : motive refLiteral) :
    ∀ form ∈ literalForms inner, motive form := by
  simp only [literalForms, List.forall_mem_cons, List.not_mem_nil, false_implies, implies_true,
    and_true]
  exact ⟨hex, exponent, decimal, bool, string, list, map, ref⟩

/-- A literal that is nested less deeply than a bound. -/
def literalWithin : Nat → Phrase Literal
  | 0 => fun _ _ _ => False
  | depth + 1 => oneOf (literalForms (literalWithin depth))

/-- A literal. -/
def literal : Phrase Literal :=
  fun before value after => ∃ depth, literalWithin depth before value after

/-! ## What the beginning of a text tells -/

/-- What a literal can be, as far as the beginning of its text tells. -/
inductive LiteralForm
  | hex
  | exponent
  | decimal
  | word
  | string
  | list
  | map
deriving DecidableEq

/-- The form that the beginning of a text allows a literal to have. -/
def formOf : List Char → Option LiteralForm
  | [] => none
  | char :: rest =>
    if isNumberStart char then
      match (afterFigures (char :: rest)).head? with
      | none => some .decimal
      | some next =>
        if next = 'x' ∨ next = 'X' then some .hex
        else if isExponentLetter next then some .exponent
        else some .decimal
    else if isIdentStart char then some .word
    else if isQuote char then some .string
    else if char = '[' then some .list
    else if char = '\x7b' then some .map
    else none

private theorem formOf_of_isNumberStart {text : List Char} (starts : text.head?.any isNumberStart) :
    formOf text = match (afterFigures text).head? with
      | none => some .decimal
      | some next =>
        if next = 'x' ∨ next = 'X' then some .hex
        else if isExponentLetter next then some .exponent
        else some .decimal := by
  cases text with
  | nil => cases starts
  | cons char rest =>
      rw [List.head?_cons, Option.any_some] at starts
      rw [formOf, if_pos starts]

/-- A hexadecimal number is told by its marker. -/
theorem formOf_hex : Lexeme.hex.phrase.Starts (formOf · = some .hex) := by
  intro before value after here
  rw [formOf_of_isNumberStart (starts_hex_number here)]
  rcases starts_hex here with marked | marked <;> simp [marked]

/-- A number with an exponent is told by the exponent. -/
theorem formOf_exponent : Lexeme.exponent.phrase.Starts (formOf · = some .exponent) := by
  intro before value after here
  rw [formOf_of_isNumberStart (starts_exponent_number here)]
  have marked := starts_exponent here
  cases next : (afterFigures before.rest).head? with
  | none => simp [next] at marked
  | some letter =>
      simp only [next, Option.any_some] at marked
      have plain : ¬(letter = 'x' ∨ letter = 'X') := by rintro (rfl | rfl) <;> cases marked
      simp [plain, marked]

/-- What begins as a number does and has no name behind its figures can only be a decimal number. -/
theorem formOf_of_stops {text : List Char} (starts : text.head?.any isNumberStart)
    (stops : Stops isNameChar (afterFigures text)) : formOf text = some .decimal := by
  rw [formOf_of_isNumberStart starts]
  have stops : (afterFigures text).head?.any isNameChar = false := stops
  cases next : (afterFigures text).head? with
  | none => rfl
  | some char =>
      rw [next, Option.any_some] at stops
      have plain : ¬(char = 'x' ∨ char = 'X') := by rintro (rfl | rfl) <;> cases stops
      have plain' : isExponentLetter char = false := by
        by_contra marked
        simp only [isExponentLetter, Bool.not_eq_false, Bool.or_eq_true, beq_iff_eq] at marked
        rcases marked with rfl | rfl <;> cases stops
      simp [plain, plain']

/-- Any other number is told by its first character. -/
theorem formOf_decimal : Lexeme.decimal.phrase.Starts (formOf · = some .decimal) :=
  fun _ _ _ here => formOf_of_stops (starts_decimal_number here) (starts_decimal here)

/-- What may begin a word does not begin a number. -/
theorem isNumberStart_of_isIdentStart {char : Char} (starts : isIdentStart char) :
    isNumberStart char = false := by
  simp only [isIdentStart, Bool.or_eq_true, beq_iff_eq] at starts
  rcases starts with letter | rfl
  · have figure := Text.not_isDigit_of_isAlpha letter
    by_contra number
    simp only [isNumberStart, Parser.isSign, Parser.isDecimalChar, figure, Bool.not_eq_false,
      Bool.or_eq_true, beq_iff_eq, Bool.false_or] at number
    rcases number with (rfl | rfl) | rfl <;> cases letter
  · rfl

/-- What begins as identifiers do is a word, whatever the word is. -/
theorem formOf_word {text : List Char} (starts : text.head?.any isIdentStart) :
    formOf text = some .word := by
  cases text with
  | nil => cases starts
  | cons char rest =>
      rw [List.head?_cons, Option.any_some] at starts
      rw [formOf, if_neg (by simp [isNumberStart_of_isIdentStart starts]), if_pos starts]

/-- A string is told by its quote. -/
theorem formOf_string : stringLiteral.Starts (formOf · = some .string) := by
  intro before value after here
  have quotes := starts_quoted here
  cases text : before.rest with
  | nil => simp [text] at quotes
  | cons char rest =>
      simp only [text, List.head?_cons, Option.any_some, isQuote, Bool.or_eq_true,
        beq_iff_eq] at quotes
      rcases quotes with rfl | rfl <;> rfl

/-- A list is told by its bracket. -/
theorem formOf_list (inner : Phrase Literal) :
    (listLiteral inner).Starts (formOf · = some .list) := by
  refine Starts.bind (starts_mark.mono fun text opens => ?_)
  obtain ⟨rest, rfl⟩ := List.head?_eq_some_iff.mp opens
  rfl

/-- A map is told by its brace. -/
theorem formOf_map (inner : Phrase Literal) :
    (mapLiteral inner).Starts (formOf · = some .map) := by
  refine Starts.bind (starts_mark.mono fun text opens => ?_)
  obtain ⟨rest, rfl⟩ := List.head?_eq_some_iff.mp opens
  rfl

/-- A truth value is told as a word. -/
theorem formOf_bool : boolLiteral.Starts (formOf · = some .word) :=
  Lexeme.starts_words.mono fun _ => formOf_word

/-- A reference is told as a word. -/
theorem formOf_path : path.Starts (formOf · = some .word) :=
  starts_path.mono fun _ => formOf_word

/-- A literal may begin with any text that allows some form. -/
def StartsLiteral (text : List Char) : Prop :=
  formOf text ≠ none

/-- The forms of a literal by what the beginning of their text tells. -/
def formTable (inner : Phrase Literal) : List (LiteralForm × Phrase Literal) :=
  [.hex, .exponent, .decimal, .word, .string, .list, .map, .word].zip (literalForms inner)

/-- What a literal of each form begins with tells the form. -/
theorem starts_formTable (inner : Phrase Literal) :
    ∀ entry ∈ formTable inner, entry.2.Starts (formOf · = some entry.1) := by
  simp only [formTable, literalForms, List.zip_cons_cons, List.zip_nil_left, List.forall_mem_cons,
    List.not_mem_nil, false_implies, implies_true, and_true]
  exact ⟨Starts.map formOf_hex, Starts.map formOf_exponent, formOf_decimal, formOf_bool,
    formOf_string, formOf_list inner, formOf_map inner, Starts.map (Starts.only formOf_path)⟩

/-- A form of a literal is in the table. -/
theorem exists_mem_formTable {inner phrase : Phrase Literal}
    (member : phrase ∈ literalForms inner) : ∃ form, (form, phrase) ∈ formTable inner := by
  have forms : (formTable inner).map Prod.snd = literalForms inner := rfl
  rw [← forms] at member
  obtain ⟨entry, inside, rfl⟩ := List.mem_map.mp member
  exact ⟨entry.1, inside⟩

private theorem starts_literalForms (inner : Phrase Literal) :
    ∀ phrase ∈ literalForms inner, phrase.Starts StartsLiteral := by
  intro phrase member
  obtain ⟨form, inside⟩ := exists_mem_formTable member
  refine (starts_formTable inner _ inside).mono fun text same => ?_
  rw [StartsLiteral, same]
  exact Option.some_ne_none form

/-- A literal of bounded nesting begins as literals do. -/
theorem starts_literalWithin (depth : Nat) : (literalWithin depth).Starts StartsLiteral := by
  cases depth with
  | zero => exact fun _ _ _ here => here.elim
  | succ depth => exact Starts.oneOf (starts_literalForms _)

/-- A literal begins with a text that tells its form. -/
theorem starts_literal : literal.Starts StartsLiteral :=
  fun _ _ _ here => starts_literalWithin here.choose here.choose_spec

private theorem advances_listItem {inner : Phrase Literal} (advances : inner.Advances) :
    (listItem inner).Advances :=
  advances.bind fun _ => narrows_separator.bind fun _ => .pure _

private theorem advances_mapEntry {inner : Phrase Literal} (advances : inner.Advances) :
    (mapEntry inner).Advances :=
  advances.bind fun _ => (Lexeme.narrows_phrase _).bind fun _ => advances.narrows.bind fun _ =>
    narrows_separator.bind fun _ => .pure _

private theorem advances_literalForms {inner : Phrase Literal} (advances : inner.Advances) :
    ∀ phrase ∈ literalForms inner, phrase.Advances := by
  have token {Value : Type} (lexeme : Lexeme Value) := lexeme.advances_phrase
  refine forall_literalForms (token _).map (token _).map (token _) (token _) (token _) ?list ?map
    (token _).only.map
  case list =>
    exact (token _).bind fun _ => (advances_listItem advances).narrows.repeated.bind fun _ =>
      advances_close.narrows.bind fun _ => .pure _
  case map =>
    exact (token _).bind fun _ => (advances_mapEntry advances).narrows.repeated.bind fun _ =>
      advances_close.narrows.bind fun _ => .pure _

/-- A literal of bounded nesting uses up part of the text. -/
theorem advances_literalWithin (depth : Nat) : (literalWithin depth).Advances := by
  induction depth with
  | zero => exact fun _ _ _ here => here.elim
  | succ depth ih => exact Advances.oneOf (advances_literalForms ih)

/-- A literal uses up part of the text. -/
theorem advances_literal : literal.Advances :=
  fun _ _ _ here => advances_literalWithin here.choose here.choose_spec

/-- Lists and maps take a character, so what is inside them may be compared on shorter texts. -/
theorem literalForms_entails {bound : Nat} {inner other : Phrase Literal}
    (entails : EntailsBelow bound inner other) (advances : inner.Advances) :
    EntailsBelow (bound + 1) (oneOf (literalForms inner)) (oneOf (literalForms other)) := by
  have item : EntailsBelow bound (listItem inner) (listItem other) :=
    entails.bind advances.narrows fun _ => .refl _
  have entry : EntailsBelow bound (mapEntry inner) (mapEntry other) :=
    entails.bind advances.narrows fun _ =>
      (EntailsBelow.refl _).bind (Lexeme.narrows_phrase _) fun _ =>
      entails.bind advances.narrows fun _ => .refl _
  rintro before value after shorter ⟨form, member, here⟩
  simp only [literalForms, List.mem_cons, List.not_mem_nil, or_false] at member
  rcases member with rfl | rfl | rfl | rfl | rfl | rfl | rfl | rfl
  case inr.inr.inr.inr.inr.inl =>
    refine ⟨listLiteral other, by simp [literalForms], ?_⟩
    refine EntailsBelow.step (Lexeme.advances_phrase _) (fun _ => ?_) shorter here
    exact (item.repeated (advances_listItem advances).narrows).bind
      (advances_listItem advances).narrows.repeated fun _ => .refl _
  case inr.inr.inr.inr.inr.inr.inl =>
    refine ⟨mapLiteral other, by simp [literalForms], ?_⟩
    refine EntailsBelow.step (Lexeme.advances_phrase _) (fun _ => ?_) shorter here
    exact (entry.repeated (advances_mapEntry advances).narrows).bind
      (advances_mapEntry advances).narrows.repeated fun _ => .refl _
  all_goals exact ⟨_, by simp only [literalForms, List.mem_cons, true_or, or_true], here⟩

/-- Every level of nesting takes a character, so the length of a text bounds the nesting. -/
theorem literalWithin_entails (depth bound : Nat) :
    EntailsBelow (bound + 1) (literalWithin depth) (literalWithin bound) := by
  induction depth generalizing bound with
  | zero => exact fun _ _ _ _ here => here.elim
  | succ depth ih =>
      cases bound with
      | zero =>
          intro before value after shorter here
          have below := advances_literalWithin _ here
          omega
      | succ bound => exact literalForms_entails (ih bound) (advances_literalWithin depth)

/-- The forms of a literal, with literals inside lists and maps, are literals. -/
theorem literal_of_literalForms {before after : View} {value : Literal}
    (here : oneOf (literalForms literal) before value after) : literal before value after := by
  have entails : EntailsBelow (before.rest.length + 1) literal
      (literalWithin before.rest.length) :=
    fun _ _ _ shorter here => literalWithin_entails _ _ shorter here.choose_spec
  exact ⟨before.rest.length + 1, literalForms_entails entails advances_literal (by omega) here⟩

/-- Literals are the forms of a literal, with literals inside lists and maps. -/
theorem literal_iff {before after : View} {value : Literal} :
    literal before value after ↔ oneOf (literalForms literal) before value after := by
  refine ⟨?_, literal_of_literalForms⟩
  rintro ⟨depth, here⟩
  cases depth with
  | zero => exact here.elim
  | succ depth =>
      have entails : EntailsBelow before.rest.length (literalWithin depth) literal :=
        fun _ _ _ _ inner => ⟨depth, inner⟩
      exact literalForms_entails entails (advances_literalWithin depth) (Nat.lt_succ_self _) here

/-! ## Agreement with the rules -/

section Forms

variable {rule : Rule Literal} {inner : Phrase Literal}

/-- A truth value is read where one of the two words stands alone. -/
theorem agrees_boolLiteral : Agrees Parser.boolLiteral boolLiteral anything :=
  agrees_words (by decide) areWords_bool

private theorem agrees_listItem (agrees : Agrees rule inner anything) :
    Agrees (Parser.listItem rule) (listItem inner) anything :=
  agrees.bind fun _ => agrees_separator.bind fun _ => .pure _

private theorem agrees_mapEntry (agrees : Agrees rule inner anything) :
    Agrees (Parser.mapEntry rule) (mapEntry inner) anything :=
  agrees.bind fun _ => (agrees_mark _).bind fun _ => agrees.bind fun _ =>
    agrees_separator.bind fun _ => .pure _

/-- Nothing that begins as a literal does begins with the mark that closes a list or a map. -/
theorem not_startsLiteral_of_closing {text : List Char}
    (closes : text.head? = some ']' ∨ text.head? = some '\x7d') : ¬StartsLiteral text := by
  unfold StartsLiteral
  rcases closes with closes | closes <;>
    · obtain ⟨rest, rfl⟩ := List.head?_eq_some_iff.mp closes
      simp only [ne_eq, Decidable.not_not]
      rfl

/-- A list is read as the grammar has it if its items are. -/
theorem agrees_listLiteral (agrees : Agrees rule inner anything)
    (starts : inner.Starts StartsLiteral) (advances : inner.Advances) :
    Agrees (Parser.listLiteral rule) (listLiteral inner) anything := by
  refine (agrees_mark _).bind fun _ =>
    ((agrees_listItem agrees).many (advances_listItem advances) fun _ => trivial).bindFollow
      (fun items => (agrees_close _).bind fun _ => .pure _) ?_
  intro items after found last there _
  refine ⟨trivial, (agrees_listItem agrees).missed (Starts.bind starts) ?_⟩
  exact not_startsLiteral_of_closing (.inl ((Starts.bind starts_close) there))

/-- A map is read as the grammar has it if its keys and values are. -/
theorem agrees_mapLiteral (agrees : Agrees rule inner anything)
    (starts : inner.Starts StartsLiteral) (advances : inner.Advances) :
    Agrees (Parser.mapLiteral rule) (mapLiteral inner) anything := by
  refine (agrees_mark _).bind fun _ =>
    ((agrees_mapEntry agrees).many (advances_mapEntry advances) fun _ => trivial).bindFollow
      (fun entries => (agrees_close _).bind fun _ => .pure _) ?_
  intro entries after found last there _
  refine ⟨trivial, (agrees_mapEntry agrees).missed (Starts.bind starts) ?_⟩
  exact not_startsLiteral_of_closing (.inr ((Starts.bind starts_close) there))

/-- A choice whose later alternatives all have another form than the first. -/
theorem choice_cons_form {phrase : Phrase Literal} {others : List (Rule Literal)}
    {phrases : List (Phrase Literal)} {what : Expectation} {form : LiteralForm}
    (first : Agrees rule phrase anything) (starts : phrase.Starts (formOf · = some form))
    (rest : Agrees (Parser.choice what others) (oneOf phrases) anything)
    (formed : ∀ other ∈ others, Formed other)
    (apart : ∀ other ∈ phrases, other.Starts (formOf · ≠ some form)) :
    Agrees (Parser.choice what (rule :: others)) (oneOf (phrase :: phrases)) anything := by
  refine first.choice_cons_apart formed rest ?_
  rintro before value after ⟨other, member, here⟩ -
  exact first.missed starts (apart other member here)

private theorem formOf_ne {form other : LiteralForm} (apart : form ≠ other) (text : List Char)
    (same : formOf text = some form) : formOf text ≠ some other := by
  rw [same]
  simpa using apart

/-- A path is a reference if it is not spelt as a truth value is. -/
theorem refLiteral_iff {before after : View} {value : Literal} :
    reads Parser.boolLiteral before = none ∧ (Literal.ref <$> path) before value after ↔
      refLiteral before value after := by
  rw [reads_words_eq_none agrees_boolLiteral, refLiteral, map_iff, map_iff]
  simp only [List.forall_mem_cons, List.not_mem_nil, false_implies, implies_true, and_true]
  have truth {segments : List String} (here : path before segments after) :
      IsTruthValue segments ↔ leadingWord before.rest = "true".toList ∨
        leadingWord before.rest = "false".toList := by
    unfold IsTruthValue
    rw [head?_of_path here, Option.some.injEq, Option.some.injEq, ← String.toList_inj,
      ← String.toList_inj, String.toList_ofList]
  constructor
  · rintro ⟨apart, segments, here, rfl⟩
    exact ⟨segments, ⟨here, (not_congr (truth here)).mpr (not_or.mpr apart)⟩, rfl⟩
  · rintro ⟨segments, ⟨here, reference⟩, rfl⟩
    exact ⟨not_or.mp ((not_congr (truth here)).mp reference), segments, here, rfl⟩

variable (agrees : Agrees rule inner anything) (starts : inner.Starts StartsLiteral)
  (advances : inner.Advances)

include agrees starts advances

/-- The forms whose place in the order of the choice makes no difference: all from the string on. -/
theorem agrees_fromString :
    Agrees (Parser.choice .value [Parser.stringLiteral, Parser.listLiteral rule,
        Parser.mapLiteral rule, Parser.refLiteral])
      (oneOf [stringLiteral, listLiteral inner, mapLiteral inner, Literal.ref <$> path])
      anything := by
  have list := agrees_listLiteral agrees starts advances
  have map := agrees_mapLiteral agrees starts advances
  have reference : Agrees Parser.refLiteral (Literal.ref <$> path) anything := agrees_path.map _
  have lists := formOf_list inner
  have maps := formOf_map inner
  have references : Phrase.Starts (Literal.ref <$> path) (formOf · = some .word) :=
    Starts.map formOf_path
  have fromRef : Agrees (Parser.choice .value [Parser.refLiteral]) (oneOf [Literal.ref <$> path])
      anything :=
    choice_cons_form reference references (.choice_nil _) (by simp) (by simp)
  have fromMap := choice_cons_form map maps fromRef (by simp [reference.formed])
    (by simpa using references.mono (formOf_ne (by decide)))
  have fromList := choice_cons_form list lists fromMap (by simp [reference.formed, map.formed])
    (by simpa using ⟨maps.mono (formOf_ne (by decide)), references.mono (formOf_ne (by decide))⟩)
  exact choice_cons_form agrees_stringLiteral formOf_string fromList
    (by simp [reference.formed, map.formed, list.formed])
    (by simpa using ⟨lists.mono (formOf_ne (by decide)), maps.mono (formOf_ne (by decide)),
      references.mono (formOf_ne (by decide))⟩)

/-- The forms that are no numbers. A truth value is spelt as a path, so it is told apart from a
reference by coming first and not by its form. -/
theorem agrees_fromBool :
    Agrees (Parser.choice .value [Parser.boolLiteral, Parser.stringLiteral,
        Parser.listLiteral rule, Parser.mapLiteral rule, Parser.refLiteral])
      (oneOf [boolLiteral, stringLiteral, listLiteral inner, mapLiteral inner, refLiteral])
      anything := by
  have fromString := agrees_fromString agrees starts advances
  refine agrees_boolLiteral.choice_cons
    (by simp [Formed.stringLiteral, agrees.formed.listLiteral, agrees.formed.mapLiteral,
      Formed.refLiteral]) ?_
  intro before value after _
  rw [fromString.always]
  simp only [oneOf, List.mem_cons, List.not_mem_nil, or_false, exists_eq_or_imp, exists_eq_left]
  have missed {form : LiteralForm} (same : formOf before.rest = some form)
      (other : form ≠ .word) : reads Parser.boolLiteral before = none :=
    agrees_boolLiteral.missed formOf_bool (formOf_ne other _ same)
  rw [← refLiteral_iff]
  constructor
  · rintro ⟨none, here | here | here | here⟩
    · exact .inl here
    · exact .inr (.inl here)
    · exact .inr (.inr (.inl here))
    · exact .inr (.inr (.inr ⟨none, here⟩))
  · rintro (here | here | here | ⟨none, here⟩)
    · exact ⟨missed (formOf_string here) (by decide), .inl here⟩
    · exact ⟨missed (formOf_list inner here) (by decide), .inr (.inl here)⟩
    · exact ⟨missed (formOf_map inner here) (by decide), .inr (.inr (.inl here))⟩
    · exact ⟨none, .inr (.inr (.inr here))⟩

private theorem agrees_literalForms :
    Agrees (Parser.choice .value (Parser.literalForms rule)) (oneOf (literalForms inner))
      anything := by
  have references : refLiteral.Starts (formOf · = some .word) :=
    Starts.map (Starts.only formOf_path)
  have apart {form : LiteralForm} (number : form = .hex ∨ form = .exponent ∨ form = .decimal) :
      ∀ other ∈ [boolLiteral, stringLiteral, listLiteral inner, mapLiteral inner, refLiteral],
        other.Starts (formOf · ≠ some form) := by
    simp only [List.forall_mem_cons, List.not_mem_nil, false_implies, implies_true, and_true]
    rcases number with rfl | rfl | rfl <;>
      exact ⟨formOf_bool.mono (formOf_ne (by decide)), formOf_string.mono (formOf_ne (by decide)),
        (formOf_list inner).mono (formOf_ne (by decide)),
        (formOf_map inner).mono (formOf_ne (by decide)), references.mono (formOf_ne (by decide))⟩
  have formed := Formed.literalForms agrees.formed
  simp only [Parser.literalForms, List.forall_mem_cons] at formed
  obtain ⟨hex, exponent, decimal, rest⟩ := formed
  have formedRest : ∀ other ∈ [Parser.boolLiteral, Parser.stringLiteral, Parser.listLiteral rule,
      Parser.mapLiteral rule, Parser.refLiteral], Formed other := by
    simpa using rest
  have fromDecimal := choice_cons_form agrees_decimalNumber formOf_decimal
    (agrees_fromBool agrees starts advances) formedRest (apart (by simp))
  have fromExponent := choice_cons_form (agrees_exponentNumber.map Literal.exponent)
    (Starts.map formOf_exponent) fromDecimal (List.forall_mem_cons.mpr ⟨decimal, formedRest⟩)
    (List.forall_mem_cons.mpr ⟨formOf_decimal.mono (formOf_ne (by decide)), apart (by simp)⟩)
  exact choice_cons_form (agrees_hexNumber.map Literal.hex) (Starts.map formOf_hex) fromExponent
    (List.forall_mem_cons.mpr ⟨exponent, List.forall_mem_cons.mpr ⟨decimal, formedRest⟩⟩)
    (List.forall_mem_cons.mpr ⟨(Starts.map formOf_exponent).mono (formOf_ne (by decide)),
      List.forall_mem_cons.mpr ⟨formOf_decimal.mono (formOf_ne (by decide)), apart (by simp)⟩⟩)

end Forms

/-- Literals are read as the grammar has them, up to any bound on their nesting. -/
theorem agrees_literalWithin (depth : Nat) :
    Agrees (Parser.literalWithin depth) (literalWithin depth) anything := by
  induction depth with
  | zero =>
      refine ⟨.literalWithin 0, fun {before value after} _ => ?_⟩
      rw [Parser.literalWithin, Parser.reads_expected]
      constructor
      · intro read
        cases read
      · exact False.elim
  | succ depth ih =>
      exact agrees_literalForms ih (starts_literalWithin depth) (advances_literalWithin depth)

/-- **Literals.** The rule for literals reads exactly the literal phrases. -/
theorem agrees_literal : Agrees Parser.literal literal anything := by
  refine ⟨.literal, fun {before value after} _ => ?_⟩
  have looked : Parser.literal =
      Parser.look fun text => Parser.literalWithin (text.length + 1) := rfl
  rw [looked, Parser.reads_look, (agrees_literalWithin _).always]
  constructor
  · exact fun here => ⟨_, here⟩
  · rintro ⟨depth, here⟩
    exact literalWithin_entails depth _ (by omega) here

end Grammar
end ThriftIdl
