import ThriftIdl.Proofs.Grammar.Declaration

/-!
# The tokens that a rule reads

What a rule reads is a sequence of tokens, each with the gap after it (`Lexes`). The comments of a
gap go to one of two queues: those before its first line break wait for the item that was read, the
others for the item that comes. What becomes of the waiting comments is an effect of the tokens,
and an effect that may happen token by token (`Effect.Lawful`) is passed on by every way of putting
rules together (`Traces`). Main statements: `traces_typeRef` and `traces_literal`.
-/

namespace ThriftIdl

open Source (Stops opensGap gap gapChars gapComments firstLine laterLines)
open ThriftIdl.Parser (View Rule Formed reads look isQuote isIdentChar isNameChar)

/-- The path of an included file with the gap after it. Escapes have no meaning in it. -/
def Parser.includePath : Rule String := do
  let raw ← quoted false
  skip
  return String.ofList raw

/-- An inclusion with its path as one part. -/
theorem Parser.includeForm_eq : Parser.includeForm = (do
    let head ← drainHead
    keyword "include"
    let path ← includePath
    separator
    let tail ← drainTail
    return .inclusion { path, moduleName := moduleName path, comments := { head, tail } }) := by
  simp only [Parser.includeForm, Parser.includePath, bind_assoc, pure_bind]

namespace Grammar

variable {Value First Second : Type}

/-! ## Tokens with their gaps -/

/-- Whether neither a gap nor a text between quotes begins with a character. -/
def isPlain (char : Char) : Bool :=
  !opensGap char && !isQuote char

/-- Whether characters are one token: a text between quotes, or a run in which neither a gap nor
such a text begins. -/
def IsToken (chars : List Char) : Prop :=
  (chars ≠ [] ∧ ∀ char ∈ chars, isPlain char) ∨
    ∃ quote raw escapes, isQuote quote ∧ chars = quote :: (raw ++ [quote]) ∧
      Text.throughQuote? quote escapes (raw ++ [quote]) = some raw

/-- A token with the gap after it. -/
structure Lexed where
  chars : List Char
  gap : List Source.Piece

/-- The comments after some tokens that wait for the next item: in each gap, those from the first
line break on. -/
def heads (tokens : List Lexed) : List String :=
  tokens.flatMap fun token => gapComments (laterLines token.gap)

/-- The comments after some tokens that wait for the item just read: in each gap, those before the
first line break. -/
def tails (tokens : List Lexed) : List String :=
  tokens.flatMap fun token => gapComments (firstLine token.gap)

/-- The comments that wait for the next item come gap by gap. -/
@[simp] theorem heads_append (front back : List Lexed) :
    heads (front ++ back) = heads front ++ heads back :=
  List.flatMap_append

/-- The comments that wait for the item just read come gap by gap. -/
@[simp] theorem tails_append (front back : List Lexed) :
    tails (front ++ back) = tails front ++ tails back :=
  List.flatMap_append

/-- A text that begins with some tokens, and what is left behind them. Each gap is all of the gap
that stands there. -/
inductive Lexes : List Char → List Lexed → List Char → Prop
  | done (text : List Char) : Lexes text [] text
  | token {chars more rest : List Char} {tokens : List Lexed} : IsToken chars →
      Lexes (more.drop (gapChars (gap more)).length) tokens rest →
      Lexes (chars ++ more) (⟨chars, gap more⟩ :: tokens) rest

/-- Tokens may be cut into two runs wherever one ends. -/
theorem Lexes.append {text middle rest : List Char} {front back : List Lexed}
    (first : Lexes text front middle) (second : Lexes middle back rest) :
    Lexes text (front ++ back) rest := by
  induction first with
  | done => exact second
  | token isToken _ ih => exact .token isToken (ih second)

/-! ## Effects of tokens -/

/-- What some tokens may do to a view: the view before them, the tokens and the view behind. -/
abbrev Effect := View → List Lexed → View → Prop

/-- An effect that may happen token by token. -/
structure Effect.Lawful (effect : Effect) : Prop where
  nothing (view : View) : effect view [] view
  token {view : View} {chars more : List Char} : IsToken chars → view.rest = chars ++ more →
    effect view [⟨chars, gap more⟩] { view with rest := more }.skip
  append {before middle after : View} {front back : List Lexed} : effect before front middle →
    effect middle back after → effect before (front ++ back) after

namespace Effect

/-- The comments that wait for the next item may go. -/
def DropsHead (effect : Effect) : Prop :=
  ∀ view : View, effect view [] { view with head := [] }

/-- The comments that wait for the item just read may go. -/
def DropsTail (effect : Effect) : Prop :=
  ∀ view : View, effect view [] { view with tail := [] }

/-- The comments of the gaps are added to those that wait for the next item. -/
def AddsHead : Effect := fun before tokens after => after.head = before.head ++ heads tokens

/-- The comments of the gaps are added to those that wait for the item just read. -/
def AddsTail : Effect := fun before tokens after => after.tail = before.tail ++ tails tokens

/-- No comments wait for the item just read but those that did and those of the gaps. -/
def KeepsTail : Effect := fun before tokens after =>
  after.tail.Sublist (before.tail ++ tails tokens)

/-- Tokens add their comments for the next item one by one. -/
theorem lawful_addsHead : AddsHead.Lawful where
  nothing view := by simp [AddsHead, heads]
  token _ _ := by simp [AddsHead, heads, View.skip]
  append first second := by
    unfold AddsHead at first second ⊢
    rw [second, first, heads_append, List.append_assoc]

/-- Tokens add their comments for the item just read one by one. -/
theorem lawful_addsTail : AddsTail.Lawful where
  nothing view := by simp [AddsTail, tails]
  token _ _ := by simp [AddsTail, tails, View.skip]
  append first second := by
    unfold AddsTail at first second ⊢
    rw [second, first, tails_append, List.append_assoc]

/-- Tokens bring no comments for the item just read but their own. -/
theorem lawful_keepsTail : KeepsTail.Lawful where
  nothing view := by simp [KeepsTail, tails]
  token _ _ := by simp [KeepsTail, tails, View.skip]
  append first second := by
    unfold KeepsTail at first second ⊢
    rw [tails_append, ← List.append_assoc]
    exact second.trans (first.append_right _)

/-- Where just the comments of the gaps are added, there are no others. -/
theorem keepsTail_of_addsTail {before after : View} {tokens : List Lexed}
    (adds : AddsTail before tokens after) : KeepsTail before tokens after := by
  unfold AddsTail at adds
  simp [KeepsTail, adds]

/-- Giving up comments before an item does not touch those behind one. -/
theorem dropsHead_addsTail : AddsTail.DropsHead :=
  lawful_addsTail.nothing

/-- Giving up comments before an item brings no new ones behind one. -/
theorem dropsHead_keepsTail : KeepsTail.DropsHead :=
  lawful_keepsTail.nothing

/-- Taking the comments behind an item leaves none of them, so it brings no new ones. -/
theorem dropsTail_keepsTail : KeepsTail.DropsTail :=
  fun _ => List.nil_sublist _

end Effect

/-- A rule that reads tokens with an effect. -/
structure Traces (effect : Effect) (rule : Rule Value) : Prop where
  formed : Formed rule
  traced : ∀ {before value after}, reads rule before = some (value, after) →
    ∃ tokens, Lexes before.rest tokens after.rest ∧ effect before tokens after

namespace Traces

/-- Parts with effects of their own, one after the other. -/
theorem compose {first second whole : Effect} {rule : Rule First} {next : First → Rule Second}
    (here : Traces first rule) (there : ∀ value, Traces second (next value))
    (both : ∀ {before middle after front back}, first before front middle →
      second middle back after → whole before (front ++ back) after) :
    Traces whole (rule >>= next) := by
  refine ⟨here.formed.bind fun value => (there value).formed, fun {before found after} read => ?_⟩
  obtain ⟨value, middle, read, later⟩ :=
    (Parser.reads_bind_eq_some_iff _ here.formed fun value => (there value).formed).mp read
  obtain ⟨front, lexes, effect⟩ := here.traced read
  obtain ⟨back, lexes', effect'⟩ := (there value).traced later
  exact ⟨front ++ back, lexes.append lexes', both effect effect'⟩

private theorem look {effect : Effect} {rule : List Char → Rule Value}
    (each : ∀ text, Traces effect (rule text)) : Traces effect (look rule) := by
  refine ⟨.look rule fun text => (each text).formed, fun {before value after} read => ?_⟩
  rw [Parser.reads_look] at read
  exact (each before.rest).traced read

/-- A rule that never matches. -/
theorem never {effect : Effect} {rule : Rule Value} (formed : Formed rule)
    (missed : ∀ view, reads rule view = none) : Traces effect rule := by
  refine ⟨formed, fun {before value after} read => ?_⟩
  rw [missed] at read
  cases read

/-- A change of the waiting comments that reads nothing. -/
theorem change {effect : Effect} {rule : Rule Value} (formed : Formed rule) (value : View → Value)
    (view : View → View) (read : ∀ before, reads rule before = some (value before, view before))
    (text : ∀ before, (view before).rest = before.rest)
    (allowed : ∀ before, effect before [] (view before)) : Traces effect rule := by
  refine ⟨formed, fun {before found after} same => ?_⟩
  rw [read] at same
  cases same
  exact ⟨[], text before ▸ .done _, allowed before⟩

/-- Comments before an item are taken without a token. -/
theorem drainHead {effect : Effect} (drops : effect.DropsHead) :
    Traces effect Parser.drainHead :=
  .change .drainHead (fun view => Comment.Queue.together view.head)
    (fun view => { view with head := [] }) Parser.reads_drainHead (fun _ => rfl) drops

private theorem discardHead {effect : Effect} (drops : effect.DropsHead) :
    Traces effect Parser.discardHead :=
  .change .discardHead (fun _ => ()) (fun view => { view with head := [] })
    Parser.reads_discardHead (fun _ => rfl) drops

/-- Comments behind an item are taken without a token. -/
theorem drainTail {effect : Effect} (drops : effect.DropsTail) :
    Traces effect Parser.drainTail :=
  .change .drainTail (fun view => Comment.Queue.together view.tail)
    (fun view => { view with tail := [] }) Parser.reads_drainTail (fun _ => rfl) drops

/-- A value alone reads no token. -/
theorem pure {effect : Effect} (nothing : ∀ view, effect view [] view) (value : Value) :
    Traces effect (pure value : Rule Value) :=
  .change (.pure value) (fun _ => value) id (Parser.reads_pure · value) (fun _ => rfl) nothing

section Lawful

variable {effect : Effect} (lawful : effect.Lawful)

include lawful

/-- The tokens of a sequence are those of its parts, and so are their effects. -/
theorem bind {rule : Rule First} {next : First → Rule Second} (first : Traces effect rule)
    (later : ∀ value, Traces effect (next value)) : Traces effect (rule >>= next) :=
  first.compose later lawful.append

private theorem map {rule : Rule First} (change : First → Second) (traces : Traces effect rule) :
    Traces effect (change <$> rule) :=
  bind lawful traces fun value => pure lawful.nothing (change value)

/-- A rule that may miss reads its tokens or none. -/
theorem attempt {rule : Rule Value} (traces : Traces effect rule) :
    Traces effect (Parser.attempt rule) := by
  refine ⟨traces.formed.attempt, fun {before found after} read => ?_⟩
  rw [Parser.reads_attempt before traces.formed] at read
  cases result : reads rule before with
  | none =>
      rw [result] at read
      cases read
      exact ⟨[], .done _, lawful.nothing _⟩
  | some step =>
      rw [result] at read
      cases read
      exact traces.traced result

/-- A repetition reads the tokens of its rounds. -/
theorem many {rule : Rule Value} (traces : Traces effect rule) :
    Traces effect (Parser.many rule) := by
  refine ⟨traces.formed.many, fun {before values after} read => ?_⟩
  replace read := Parser.readsEach_of_reads_many traces.formed read
  induction read with
  | missed _ => exact ⟨[], .done _, lawful.nothing _⟩
  | idle here _ => exact traces.traced here
  | item here _ _ ih =>
      obtain ⟨front, lexes, effect⟩ := traces.traced here
      obtain ⟨back, lexes', effect'⟩ := ih
      exact ⟨front ++ back, lexes.append lexes', lawful.append effect effect'⟩

omit lawful in
private theorem choice {rules : List (Rule Value)} (what : Expectation)
    (each : ∀ rule ∈ rules, Traces effect rule) : Traces effect (Parser.choice what rules) := by
  have formed : ∀ rule ∈ rules, Formed rule := fun rule member => (each rule member).formed
  refine ⟨.choice what formed, fun {before value after} read => ?_⟩
  rw [Parser.reads_choice before what formed] at read
  obtain ⟨rule, member, found⟩ := List.exists_of_findSome?_eq_some read
  exact (each rule member).traced found

/-- The rule for a lexeme reads one token. -/
theorem lexeme {rule : Rule Value} {lexeme : Lexeme Value}
    (agrees : Agrees rule lexeme.phrase anything)
    (isToken : ∀ {chars value}, lexeme.spells chars value → IsToken chars) :
    Traces effect rule := by
  refine ⟨agrees.formed, fun read => ?_⟩
  obtain ⟨chars, more, text, spells, -, rfl⟩ := agrees.always.mp read
  refine ⟨[⟨chars, gap more⟩], ?_, lawful.token (isToken spells) text⟩
  rw [text]
  exact .token (isToken spells) (.done _)

end Lawful

end Traces

/-! ## Which spellings are tokens -/

/-- No gap begins with a plain character. -/
theorem opensGap_of_isPlain {char : Char} (plain : isPlain char) : opensGap char = false := by
  simp only [isPlain, Bool.and_eq_true, Bool.not_eq_true'] at plain
  exact plain.1

private theorem isPlain_of_isNameChar {char : Char} (named : isNameChar char) : isPlain char := by
  have unquoted : isQuote char = false := by
    by_contra quotes
    simp only [isQuote, Bool.not_eq_false, Bool.or_eq_true, beq_iff_eq] at quotes
    rcases quotes with rfl | rfl <;> cases named
  simp [isPlain, opensGap_of_isNameChar named, unquoted]

private theorem isPlain_of_isScopeChar {char : Char} (scope : Parser.isScopeChar char) :
    isPlain char := by
  simp only [Parser.isScopeChar, Bool.or_eq_true, beq_iff_eq] at scope
  rcases scope with ident | rfl
  · exact isPlain_of_isNameChar (isNameChar_of_isIdentChar ident)
  · rfl

private theorem isPlain_of_isSign {char : Char} (sign : Parser.isSign char) : isPlain char := by
  simp only [Parser.isSign, Bool.or_eq_true, beq_iff_eq] at sign
  rcases sign with rfl | rfl <;> rfl

/-- Separators are plain characters. -/
theorem isPlain_of_isSeparator {char : Char} (separates : Parser.isSeparator char) :
    isPlain char := by
  simp only [Parser.isSeparator, Bool.or_eq_true, beq_iff_eq] at separates
  rcases separates with rfl | rfl <;> rfl

private theorem isToken_of_plain {chars : List Char} {test : Char → Bool} (nonempty : chars ≠ [])
    (plain : ∀ char, test char → isPlain char) (inside : ∀ char ∈ chars, test char) :
    IsToken chars :=
  .inl ⟨nonempty, fun char member => plain char (inside char member)⟩

private theorem isToken_of_isIdentifier {chars : List Char} (identifier : IsIdentifier chars) :
    IsToken chars := by
  obtain ⟨first, rest, rfl, -⟩ := identifier.exists_cons
  exact isToken_of_plain (List.cons_ne_nil _ _)
    (fun _ ident => isPlain_of_isNameChar (isNameChar_of_isIdentChar ident)) identifier.inside

private theorem isToken_of_words {table : List (String × Value)}
    {areWords : ∀ entry ∈ table, IsIdentifier entry.1.toList} {chars : List Char} {value : Value}
    (spells : (Lexeme.words table areWords).spells chars value) : IsToken chars := by
  obtain ⟨word, member, rfl⟩ := spells
  exact isToken_of_isIdentifier (areWords _ member)

/-- A plain character alone is a token. -/
theorem isToken_of_mark {char : Char} (plain : isPlain char) : IsToken [char] :=
  .inl ⟨List.cons_ne_nil _ _, by simpa using plain⟩

private theorem isToken_of_run {first test : Char → Bool} {inside : ∀ char, first char → test char}
    {stands : ∀ char, test char → opensGap char = false} (plain : ∀ char, test char → isPlain char)
    {chars : List Char} {value : String}
    (spells : (Lexeme.run first test inside stands).spells chars value) : IsToken chars := by
  obtain ⟨⟨char, rest, rfl, -⟩, passes, -⟩ := spells
  exact isToken_of_plain (List.cons_ne_nil _ _) plain (List.all_eq_true.mp passes)

private theorem isToken_of_path {chars : List Char} {segments : List String}
    (spells : Lexeme.path.spells chars segments) : IsToken chars := by
  have nonempty := Lexeme.path.ne_nil spells
  obtain ⟨parts, -, identifiers, rfl, -⟩ := spells
  exact isToken_of_plain nonempty (fun _ => isPlain_of_isNameChar)
    (isNameChar_of_mem_intercalate identifiers)

private theorem isToken_of_separator {chars : List Char} {value : Unit}
    (spells : Lexeme.separator.spells chars value) : IsToken chars := by
  obtain ⟨char, separates, rfl⟩ := spells
  exact isToken_of_mark (isPlain_of_isSeparator separates)

private theorem isToken_of_quoted {escapes : Bool} {meaning : List Char → Option Value}
    {chars : List Char} {value : Value}
    (spells : (Lexeme.quoted escapes meaning).spells chars value) : IsToken chars := by
  obtain ⟨quote, raw, quotes, rfl, closes, -⟩ := spells
  exact .inr ⟨quote, raw, escapes, quotes, rfl, closes⟩

/-- A numeral is made of characters of names and of signs. -/
theorem isToken_of_numeral {chars : List Char} (nonempty : chars ≠ [])
    (inside : ∀ char ∈ chars, isNameChar char ∨ Parser.isSign char) : IsToken chars := by
  refine .inl ⟨nonempty, fun char member => ?_⟩
  rcases inside char member with name | sign
  · exact isPlain_of_isNameChar name
  · exact isPlain_of_isSign sign

private theorem isToken_of_hex {chars : List Char} {value : Int64}
    (spells : Lexeme.hex.spells chars value) : IsToken chars :=
  isToken_of_numeral (Lexeme.hex.ne_nil spells) (chars_of_hex spells)

private theorem isToken_of_exponent {chars : List Char} {value : Number.Binary64}
    (spells : Lexeme.exponent.spells chars value) : IsToken chars :=
  isToken_of_numeral (Lexeme.exponent.ne_nil spells) (chars_of_exponent spells)

private theorem isToken_of_decimal {chars : List Char} {value : Literal}
    (spells : Lexeme.decimal.spells chars value) : IsToken chars :=
  isToken_of_numeral (Lexeme.decimal.ne_nil spells) (chars_of_decimal spells)

/-! ## Checks -/

section Checks

variable {effect : Effect} (nothing : ∀ view, effect view [] view)

include nothing

/-- Checking the value of an item reads no token. -/
theorem traces_enumValue (item : String) (written : Option Literal) :
    Traces effect (Parser.enumValue item written) := by
  unfold Parser.enumValue
  cases written with
  | none => exact .pure nothing _
  | some literal =>
      dsimp only
      cases literal.integer? with
      | none => exact .never (.rejected _) fun _ => rfl
      | some value => exact .pure nothing _

/-- Checking the numbers of fields reads no token. -/
theorem traces_checkIds (duplicates : DuplicateIds) (owner : FieldOwner) (fields : List Field) :
    Traces effect (Parser.checkIds duplicates owner fields) := by
  unfold Parser.checkIds
  cases duplicates with
  | keep => exact .pure nothing _
  | reject =>
      cases repeatedId? fields with
      | none => exact .pure nothing _
      | some repeated => exact .never (.rejected _) fun _ => rfl

/-- Numbering the items of an enumeration reads no token. -/
theorem traces_enumValues (enumeration : String) (written : List WrittenItem) :
    Traces effect (Parser.enumValues enumeration written) := by
  unfold Parser.enumValues
  cases numberItems (some 0) written with
  | ok items => exact .pure nothing _
  | error item => exact .never (.rejected _) fun _ => rfl

end Checks

/-! ## Tokens -/

section Rules

variable {effect : Effect} (lawful : effect.Lawful)

include lawful

/-- A keyword is one token. -/
theorem traces_keyword {word : String} (isWord : IsIdentifier word.toList) :
    Traces effect (Parser.keyword word) :=
  .lexeme lawful (agrees_keyword isWord) isToken_of_words

/-- A mark is one token. -/
theorem traces_mark {char : Char} (plain : isPlain char) : Traces effect (Parser.mark char) :=
  .lexeme lawful (agrees_mark (opensGap_of_isPlain plain)) fun same => same ▸ isToken_of_mark plain

/-- A name is one token, dots included. -/
theorem traces_name : Traces effect Parser.name :=
  .lexeme lawful agrees_name (isToken_of_run fun _ => isPlain_of_isNameChar)

/-- A scope is one token. -/
theorem traces_scope : Traces effect Parser.namespaceScope :=
  .lexeme lawful agrees_scope (isToken_of_run fun _ => isPlain_of_isScopeChar)

/-- A path is one token, dots included. -/
theorem traces_path : Traces effect Parser.path :=
  .lexeme lawful agrees_path isToken_of_path

/-- The path of an included file, read with the gap after it. -/
theorem traces_includePath : Traces effect Parser.includePath := by
  have formed (raw : List Char) : Formed (do Parser.skip; return String.ofList raw) :=
    Formed.skip.bind fun _ => .pure _
  refine ⟨.bind (.quoted false) formed, fun {before value after} read => ?_⟩
  obtain ⟨raw, middle, quotedRead, later⟩ :=
    (Parser.reads_bind_eq_some_iff _ (.quoted false) formed).mp read
  rw [Parser.reads_bind _ _ .skip fun _ => .pure _, Parser.reads_skip, Option.bind_some,
    Parser.reads_pure] at later
  cases later
  obtain ⟨quote, more, quotes, text, closes, rfl⟩ := reads_quoted_iff.mp quotedRead
  have isToken : IsToken (quote :: (raw ++ [quote])) :=
    .inr ⟨quote, raw, false, quotes, rfl, closes⟩
  have split : before.rest = quote :: (raw ++ [quote]) ++ more := by simp [text]
  refine ⟨[⟨quote :: (raw ++ [quote]), gap more⟩], ?_, lawful.token isToken split⟩
  rw [split]
  exact .token isToken (.done _)

/-- A separator is one token or none. -/
theorem traces_separator : Traces effect Parser.separator := by
  refine ⟨.separator, fun {before value after} read => ?_⟩
  rcases agrees_separator.always.mp read with ⟨chars, more, text, spells, -, rfl⟩ | ⟨-, rfl⟩
  · refine ⟨[⟨chars, gap more⟩], ?_, lawful.token (isToken_of_separator spells) text⟩
    rw [text]
    exact .token (isToken_of_separator spells) (.done _)
  · exact ⟨[], .done _, lawful.nothing _⟩

private theorem traces_decimalNumber : Traces effect Parser.decimalNumber :=
  .lexeme lawful agrees_decimalNumber isToken_of_decimal

private theorem traces_integer : Traces effect Parser.integer := by
  refine .choice _ ?_
  simp only [List.forall_mem_cons, List.not_mem_nil, false_implies, implies_true, and_true]
  refine ⟨.lexeme lawful agrees_hexNumber isToken_of_hex,
    .bind lawful (traces_decimalNumber lawful) fun literal => ?_⟩
  cases literal with
  | int value => exact .pure lawful.nothing value
  | _ => exact .never (.expected _) fun _ => rfl

/-! ## Types -/

private theorem traces_typeForms {inner : Rule TypeRef} (traces : Traces effect inner) :
    ∀ form ∈ Parser.typeForms inner, Traces effect form := by
  refine Parser.forall_typeForms ?map ?sequence (.map lawful _ (traces_name lawful))
  case map =>
    exact .bind lawful (traces_keyword lawful (by decide)) fun _ =>
      .bind lawful (traces_mark lawful rfl) fun _ => .bind lawful traces fun _ =>
      .bind lawful (traces_separator lawful) fun _ => .bind lawful traces fun _ =>
      .bind lawful (traces_mark lawful rfl) fun _ => .pure lawful.nothing _
  case sequence =>
    exact .bind lawful (.lexeme lawful (agrees_words (by decide) areWords_sequence)
        isToken_of_words) fun _ =>
      .bind lawful (traces_mark lawful rfl) fun _ => .bind lawful traces fun _ =>
      .bind lawful (traces_mark lawful rfl) fun _ => .pure lawful.nothing _

private theorem traces_typeWithin (depth : Nat) : Traces effect (Parser.typeWithin depth) := by
  induction depth with
  | zero => exact .never (.expected _) fun _ => rfl
  | succ depth ih => exact .choice _ (traces_typeForms lawful ih)

/-- A type is made of tokens. -/
theorem traces_typeRef : Traces effect Parser.typeRef := by
  have looked : Parser.typeRef = look fun text => Parser.typeWithin (text.length + 1) := rfl
  rw [looked]
  exact .look fun _ => traces_typeWithin lawful _

/-! ## Literals -/

/-- The forms of a literal that are one token. -/
theorem traces_tokenForms :
    ∀ form ∈ [Parser.hexLiteral, Parser.exponentLiteral, Parser.decimalNumber, Parser.boolLiteral,
      Parser.stringLiteral, Parser.refLiteral], Traces effect form := by
  simp only [List.forall_mem_cons, List.not_mem_nil, false_implies, implies_true, and_true]
  exact ⟨.map lawful _ (.lexeme lawful agrees_hexNumber isToken_of_hex),
    .map lawful _ (.lexeme lawful agrees_exponentNumber isToken_of_exponent),
    traces_decimalNumber lawful, .lexeme lawful agrees_boolLiteral isToken_of_words,
    .lexeme lawful agrees_stringLiteral isToken_of_quoted, .map lawful _ (traces_path lawful)⟩

variable (dropsHead : effect.DropsHead)

include dropsHead

/-- A closing mark is one token. -/
theorem traces_close {char : Char} (plain : isPlain char) : Traces effect (Parser.close char) :=
  .bind lawful (.discardHead dropsHead) fun _ => traces_mark lawful plain

private theorem traces_listLiteral {inner : Rule Literal} (traces : Traces effect inner) :
    Traces effect (Parser.listLiteral inner) :=
  .bind lawful (traces_mark lawful rfl) fun _ =>
    .bind lawful (.many lawful (.bind lawful traces fun _ =>
      .bind lawful (traces_separator lawful) fun _ => .pure lawful.nothing _)) fun _ =>
    .bind lawful (traces_close lawful dropsHead rfl) fun _ => .pure lawful.nothing _

private theorem traces_mapLiteral {inner : Rule Literal} (traces : Traces effect inner) :
    Traces effect (Parser.mapLiteral inner) :=
  .bind lawful (traces_mark lawful rfl) fun _ =>
    .bind lawful (.many lawful (.bind lawful traces fun _ =>
      .bind lawful (traces_mark lawful rfl) fun _ => .bind lawful traces fun _ =>
      .bind lawful (traces_separator lawful) fun _ => .pure lawful.nothing _)) fun _ =>
    .bind lawful (traces_close lawful dropsHead rfl) fun _ => .pure lawful.nothing _

private theorem traces_literalForms {inner : Rule Literal} (traces : Traces effect inner) :
    ∀ form ∈ Parser.literalForms inner, Traces effect form := by
  have single := traces_tokenForms lawful
  simp only [List.forall_mem_cons, List.not_mem_nil, false_implies, implies_true,
    and_true] at single
  obtain ⟨hex, exponent, decimal, bool, string, ref⟩ := single
  exact Parser.forall_literalForms hex exponent decimal bool string
    (traces_listLiteral lawful dropsHead traces) (traces_mapLiteral lawful dropsHead traces) ref

/-- A literal of bounded nesting is made of tokens. -/
theorem traces_literalWithin (depth : Nat) : Traces effect (Parser.literalWithin depth) := by
  induction depth with
  | zero => exact .never (.expected _) fun _ => rfl
  | succ depth ih => exact .choice _ (traces_literalForms lawful dropsHead ih)

/-- A literal is made of tokens. -/
theorem traces_literal : Traces effect Parser.literal := by
  have looked : Parser.literal = look fun text => Parser.literalWithin (text.length + 1) := rfl
  rw [looked]
  exact .look fun _ => traces_literalWithin lawful dropsHead _

/-- An equals sign with a literal is made of tokens, if it is there at all. -/
theorem traces_assignment : Traces effect Parser.assignment :=
  .attempt lawful (.bind lawful (traces_mark lawful rfl) fun _ =>
    traces_literal lawful dropsHead)

/-! ## Parts of items and declarations -/

omit dropsHead

/-- The number of a field and its colon are tokens. -/
theorem traces_fieldId : Traces effect Parser.fieldId :=
  .bind lawful (traces_integer lawful) fun _ => .bind lawful (traces_mark lawful rfl)
    fun _ => .pure lawful.nothing _

/-- A qualifier is one token. -/
theorem traces_qualifier : Traces effect Parser.qualifier :=
  .lexeme lawful agrees_qualifier isToken_of_words

/-- The parent of a service and the word before it are tokens. -/
theorem traces_parentClause : Traces effect Parser.parentClause :=
  .bind lawful (traces_keyword lawful (by decide)) fun _ => traces_path lawful

/-- The header of a block is made of tokens, and then the comments behind it are taken. -/
theorem traces_blockHeader {word : String} (isWord : IsIdentifier word.toList)
    (dropsTail : effect.DropsTail) : Traces effect (Parser.blockHeader word) :=
  .bind lawful (traces_keyword lawful isWord) fun _ => .bind lawful (traces_name lawful) fun _ =>
    .bind lawful (traces_mark lawful rfl) fun _ =>
    .bind lawful (.drainTail dropsTail) fun _ => .pure lawful.nothing _

end Rules

end Grammar
end ThriftIdl
