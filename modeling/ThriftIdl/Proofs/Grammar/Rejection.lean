import ThriftIdl.Proofs.Grammar.Declaration
import ThriftIdl.Proofs.Rule.Rejection

/-!
# No reading comes of a rejection

Five rules reject what they have read: those for hexadecimal integers, for strings, for the values
of enumeration items, for whole enumerations and for lists of fields. Rule by rule it is shown what
text stands where reading goes on after a rejection: a hexadecimal integer before a field, an equals
sign before no value, an item before the mark that closes its block, a list of exceptions behind a
function. None of them can be read there, so the declaration is not read either
(`candid_declaration`).
-/

namespace ThriftIdl

open Source (Stops)
open ThriftIdl.Parser (View Rule Formed reads isIdentStart isSeparator Quiet Candid Nowhere
  Everywhere)

namespace Grammar

open Phrase

/-! ## Rules without rejections -/

/-- A keyword that is not there is missed, never rejected. -/
theorem quiet_keyword (word : String) : Quiet (Parser.keyword word) :=
  Quiet.look (fun text =>
    if Parser.startsWithWord word.toList text then do
      Parser.advance word.toList.length
      Parser.skip
    else Parser.expected (.keyword word)) fun _ =>
    ((Quiet.advance _).bind fun _ => .skip).ite (.expected _)

/-- A mark that is not there is missed, never rejected. -/
theorem quiet_mark (char : Char) : Quiet (Parser.mark char) :=
  Quiet.peek.bind fun _ => ((Quiet.advance 1).bind fun _ => .skip).ite (.expected _)

/-- A closing mark that is not there is missed, never rejected. -/
theorem quiet_close (char : Char) : Quiet (Parser.close char) :=
  Quiet.discardHead.bind fun _ => quiet_mark char

private theorem quiet_separator : Quiet Parser.separator :=
  Quiet.peek.bind fun _ => ((Quiet.advance 1).bind fun _ => .skip).ite (.pure _)

/-- A name that is not there is missed, never rejected. -/
theorem quiet_name : Quiet Parser.name :=
  Quiet.peek.bind fun _ =>
    ((Quiet.takeWhile _).bind fun _ => Quiet.skip.bind fun _ => .pure _).ite (.expected _)

private theorem quiet_path : Quiet Parser.path :=
  Quiet.peek.bind fun _ => (Quiet.look (fun text => do
    let segments := Parser.pathSegments text
    Parser.advance (['.'].intercalate segments).length
    Parser.skip
    return segments.map String.ofList) fun _ =>
      (Quiet.advance _).bind fun _ => Quiet.skip.bind fun _ => .pure _).ite (.expected _)

/-- A rule for one of two words. -/
theorem quiet_words {Value : Type} (first second : String) (value value' : Value) :
    Quiet (do
      match ← Parser.probe (Parser.keyword first) with
      | some _ => return value
      | none =>
        Parser.keyword second
        return value') := by
  refine (quiet_keyword first).probe.bind fun found => ?_
  cases found with
  | some _ => exact .pure _
  | none => exact (quiet_keyword second).bind fun _ => .pure _

private theorem quiet_typeWithin (depth : Nat) : Quiet (Parser.typeWithin depth) := by
  induction depth with
  | zero => exact .expected _
  | succ depth inner =>
      refine .choice _ (Parser.forall_typeForms ?map ?sequence (quiet_name.map _))
      case map =>
        exact (quiet_keyword _).bind fun _ => (quiet_mark _).bind fun _ => inner.bind fun _ =>
          quiet_separator.bind fun _ => inner.bind fun _ => (quiet_mark _).bind fun _ => .pure _
      case sequence =>
        exact (quiet_words _ _ _ _).bind fun _ => (quiet_mark _).bind fun _ => inner.bind fun _ =>
          (quiet_mark _).bind fun _ => .pure _

/-- Nothing about a type is rejected. -/
theorem quiet_typeRef : Quiet Parser.typeRef :=
  Quiet.look (fun text => Parser.typeWithin (text.length + 1)) fun _ => quiet_typeWithin _

/-- A character that may be left out records nothing. -/
theorem quiet_optionalChar (test : Char → Bool) : Quiet (Parser.optionalChar test) := by
  refine Quiet.peek.bind fun next => ?_
  cases next with
  | none => exact .pure _
  | some char => exact ((Quiet.advance 1).bind fun _ => .pure _).ite (.pure _)

private theorem quiet_endOfNumber : Quiet Parser.endOfNumber :=
  Quiet.peek.bind fun _ => (Quiet.expected _).ite .skip

private theorem quiet_exponentNumber : Quiet Parser.exponentNumber := by
  refine (quiet_optionalChar _).bind fun sign => (Quiet.takeWhile _).bind fun mantissa =>
    (Quiet.expected _).ite <| (quiet_optionalChar _).bind fun letter => (Quiet.expected _).ite <|
    (quiet_optionalChar _).bind fun second => (Quiet.takeWhile _).bind fun digits =>
    (Quiet.expected _).ite ?_
  cases Number.Binary64.ofNumeral? (sign ++ mantissa ++ letter ++ second ++ digits) with
  | none => exact .expected _
  | some number => exact quiet_endOfNumber.bind fun _ => .pure _

private theorem quiet_decimalNumber : Quiet Parser.decimalNumber := by
  refine (quiet_optionalChar _).bind fun sign => (Quiet.takeWhile _).bind fun body =>
    (Quiet.expected _).ite ?_
  cases Parser.decimalLiteral? (sign ++ body) with
  | none => exact .expected _
  | some literal => exact quiet_endOfNumber.bind fun _ => .pure _

private theorem quiet_decimalInteger : Quiet Parser.decimalInteger := by
  refine quiet_decimalNumber.bind fun literal => ?_
  cases literal with
  | int value => exact .pure _
  | _ => exact .expected _

private theorem quiet_quoted (escapes : Bool) : Quiet (Parser.quoted escapes) := by
  refine Quiet.look (Parser.quotedFrom escapes) fun text => ?_
  cases text with
  | nil => exact .expected _
  | cons quote rest =>
      unfold Parser.quotedFrom
      refine Quiet.ite ?_ (.expected _)
      cases Text.throughQuote? quote escapes rest with
      | none => exact .expected _
      | some raw => exact (Quiet.advance _).bind fun _ => .pure _

private theorem quiet_boolLiteral : Quiet Parser.boolLiteral :=
  quiet_words _ _ _ _

private theorem quiet_qualifier : Quiet Parser.qualifier :=
  quiet_words _ _ _ _

private theorem quiet_namespaceScope : Quiet Parser.namespaceScope :=
  (Quiet.takeWhile _).bind fun _ => (Quiet.expected _).ite (Quiet.skip.bind fun _ => .pure _)

private theorem quiet_blockHeader (word : String) : Quiet (Parser.blockHeader word) :=
  (quiet_keyword _).bind fun _ => quiet_name.bind fun _ => (quiet_mark _).bind fun _ =>
    Quiet.drainTail.bind fun _ => .pure _

private theorem quiet_parentClause : Quiet Parser.parentClause :=
  (quiet_keyword _).bind fun _ => quiet_path

/-- The end of an item: a separator, and the comments behind it. -/
theorem quiet_ending {Value : Type} (make : Option String → Value) :
    Quiet (Parser.separator >>= fun _ => Parser.drainTail >>= fun tail => pure (make tail)) :=
  quiet_separator.bind fun _ => Quiet.drainTail.bind fun _ => .pure _

/-- Where another character comes next, no block is closed. -/
theorem missed_close {Value : Type} {char : Char} (plain : Source.opensGap char = false)
    {next : Unit → Rule Value} (formed : ∀ value, Formed (next value)) {view : View}
    (unclosed : view.rest.head? ≠ some char) : reads (Parser.close char >>= next) view = none := by
  rw [Parser.reads_bind _ _ (.close char) formed, (agrees_close plain).missed starts_close unclosed]
  rfl

/-! ## Literals -/

/-- A text with a zero and an `x` after an optional minus sign allows a hexadecimal integer. -/
theorem formOf_of_marked {sign text : List Char} (atMostOne : AtMostOne (· == '-') sign)
    (marked : (['0', 'x'].isPrefixOf text || ['0', 'X'].isPrefixOf text) = true) :
    formOf (sign ++ text) = some .hex := by
  obtain ⟨marker, rest, isMarker, rfl⟩ := marker_iff.mp marked
  rcases atMostOne with rfl | ⟨char, rfl, minus⟩
  · rcases isMarker with rfl | rfl <;> rfl
  · obtain rfl : char = '-' := by simpa using minus
    rcases isMarker with rfl | rfl <;> rfl

/-- After a rejected magnitude the text begins as a hexadecimal integer does. -/
theorem candid_hexNumber : Candid Parser.hexNumber Nowhere (formOf · = some .hex) := by
  refine (quiet_optionalChar _).candid.bind (fun sign => Candid.startsWith fun lower =>
    Candid.startsWith fun upper => Candid.ite ?_ (.expected _)) ?_
  · refine .bindInside (Quiet.advance 2).candid fun _ =>
      .bindInside (Quiet.takeWhile _).candid fun digits => ?_
    cases Number.ofDigits? 16 digits with
    | none => exact (Quiet.expected _).candid
    | some magnitude =>
        dsimp only
        split
        · exact (quiet_endOfNumber.bind fun _ => .pure _).candid
        · exact .rejected _
  · intro before sign after read marked
    obtain ⟨more, same, atMostOne, -, rfl⟩ := (agrees_optionalChar _).always.mp read
    rw [same]
    exact formOf_of_marked atMostOne marked

/-- The text of a hexadecimal integer begins with a sign or a figure, as no name does. -/
theorem not_isIdentStart_of_formOf_hex {text : List Char} (hex : formOf text = some .hex) :
    Stops isIdentStart text := by
  cases text with
  | nil => rfl
  | cons char rest =>
      refine Source.stops_cons.mpr (Bool.not_eq_true _ ▸ fun named => ?_)
      rw [formOf_word (by simpa using named)] at hex
      cases hex

private theorem candid_integer : Candid Parser.integer Nowhere (formOf · = some .hex) := by
  have decimal : Candid (Parser.choice .integer [Parser.decimalInteger]) Nowhere
      (formOf · = some .hex) := (Quiet.choice _ (by simp [quiet_decimalInteger])).candid
  refine candid_hexNumber.choice_cons decimal (by simp [Formed.decimalInteger]) ?_ fun _ => id
  intro before hex
  have starts : decimalInteger.Starts (formOf · = some .decimal) := fun _ _ _ here =>
    formOf_decimal here
  simpa using agrees_decimalInteger.missed starts (by simp [hex])

private theorem candid_stringLiteral :
    Candid Parser.stringLiteral Nowhere (formOf · = some .string) := by
  refine (quiet_quoted true).candid.bindOpening (fun raw => ?_) ?_
  · cases Text.unescape raw with
    | none => exact .rejected _
    | some chars => exact (Quiet.skip.bind fun _ => .pure _).candid
  · intro before raw after read
    obtain ⟨quote, more, quotes, text, -, -⟩ := reads_quoted_iff.mp read
    rw [text]
    simp only [Parser.isQuote, Bool.or_eq_true, beq_iff_eq] at quotes
    rcases quotes with rfl | rfl <;> rfl

section Containers

variable {rule : Rule Literal} {inner : Phrase Literal}

private theorem opens_mark {char : Char} {form : LiteralForm} {before after : View} {value : Unit}
    (opens : ∀ rest, formOf (char :: rest) = some form)
    (read : reads (Parser.mark char) before = some (value, after)) :
    formOf before.rest = some form := by
  rw [reads_mark] at read
  split at read
  · next begins =>
      obtain ⟨rest, same⟩ := List.head?_eq_some_iff.mp begins
      rw [same]
      exact opens rest
  · cases read

/-- After a rejected item the text begins as a literal does, so the list is not closed. -/
theorem candid_listLiteral (candid : Candid rule Nowhere StartsLiteral) :
    Candid (Parser.listLiteral rule) Nowhere (formOf · = some .list) := by
  have item : Candid (Parser.listItem rule) Nowhere StartsLiteral :=
    candid.bindQuiet fun _ => quiet_separator.bind fun _ => .pure _
  have items : Candid (Parser.many (Parser.listItem rule)) StartsLiteral Nowhere :=
    item.many False.elim (fun _ => False.elim) fun _ => id
  refine (quiet_mark _).candid.bindOpening (fun _ => items.bindStuck
    (fun items => ((quiet_close _).bind fun _ => .pure _).candid) ?_) (opens_mark fun _ => rfl)
  exact fun items before begins => missed_close rfl (fun _ => .pure _) fun closes =>
    not_startsLiteral_of_closing (.inl closes) begins

/-- After a rejected entry the text begins as a literal does, so the map is not closed. -/
theorem candid_mapLiteral (candid : Candid rule Nowhere StartsLiteral)
    (agrees : Agrees rule inner anything) (starts : inner.Starts StartsLiteral) :
    Candid (Parser.mapLiteral rule) Nowhere (formOf · = some .map) := by
  have entry : Candid (Parser.mapEntry rule) Nowhere StartsLiteral :=
    candid.bindOpening (fun _ => (quiet_mark _).candid.bindInside fun _ =>
      (candid.bindQuiet fun _ => quiet_separator.bind fun _ => .pure _).inside)
      fun read => starts (agrees.always.mp read)
  have entries : Candid (Parser.many (Parser.mapEntry rule)) StartsLiteral Nowhere :=
    entry.many False.elim (fun _ => False.elim) fun _ => id
  refine (quiet_mark _).candid.bindOpening (fun _ => entries.bindStuck
    (fun items => ((quiet_close _).bind fun _ => .pure _).candid) ?_) (opens_mark fun _ => rfl)
  exact fun items before begins => missed_close rfl (fun _ => .pure _) fun closes =>
    not_startsLiteral_of_closing (.inr closes) begins

/-- The rules for the forms of a literal, by the form that the beginning of the text allows. -/
def literalTable (rule : Rule Literal) : List (LiteralForm × Rule Literal) :=
  [(.hex, Parser.hexLiteral), (.exponent, Parser.exponentLiteral),
    (.decimal, Parser.decimalNumber), (.word, Parser.boolLiteral), (.string, Parser.stringLiteral),
    (.list, Parser.listLiteral rule), (.map, Parser.mapLiteral rule), (.word, Parser.refLiteral)]

/-- A form of a literal is missed where the text tells another one. -/
theorem missed_literalTable (agrees : Agrees rule inner anything)
    (starts : inner.Starts StartsLiteral) (advances : inner.Advances) :
    ∀ entry ∈ literalTable rule, ∀ {before : View}, formOf before.rest ≠ some entry.1 →
      reads entry.2 before = none := by
  simp only [literalTable, List.forall_mem_cons, List.not_mem_nil, false_implies, implies_true,
    and_true]
  exact ⟨(agrees_hexNumber.map _).missed (Starts.map formOf_hex),
    (agrees_exponentNumber.map _).missed (Starts.map formOf_exponent),
    agrees_decimalNumber.missed formOf_decimal, agrees_boolLiteral.missed formOf_bool,
    agrees_stringLiteral.missed formOf_string,
    (agrees_listLiteral agrees starts advances).missed (formOf_list inner),
    (agrees_mapLiteral agrees starts advances).missed (formOf_map inner),
    (agrees_path.map _).missed (Starts.map formOf_path)⟩

/-- A form of a literal rejects only a text that tells this form. -/
theorem candid_literalTable (candid : Candid rule Nowhere StartsLiteral)
    (agrees : Agrees rule inner anything) (starts : inner.Starts StartsLiteral) :
    ∀ entry ∈ literalTable rule, Candid entry.2 Nowhere (formOf · = some entry.1) := by
  simp only [literalTable, List.forall_mem_cons, List.not_mem_nil, false_implies, implies_true,
    and_true]
  exact ⟨candid_hexNumber.bindQuiet fun _ => .pure _, (quiet_exponentNumber.map _).candid,
    quiet_decimalNumber.candid, quiet_boolLiteral.candid, candid_stringLiteral,
    candid_listLiteral candid, candid_mapLiteral candid agrees starts, (quiet_path.map _).candid⟩

private theorem candid_literalForms (candid : Candid rule Nowhere StartsLiteral)
    (agrees : Agrees rule inner anything) (starts : inner.Starts StartsLiteral)
    (advances : inner.Advances) :
    Candid (Parser.choice .value (Parser.literalForms rule)) Nowhere StartsLiteral := by
  have apart : (literalTable rule).Pairwise fun first second =>
      Quiet first.2 ∨ some first.1 ≠ some second.1 := by
    simp [literalTable, quiet_boolLiteral]
  refine (Candid.choice_of_keys formOf (fun entry => some entry.1) Prod.snd .value
    (candid_literalTable candid agrees starts) (missed_literalTable agrees starts advances)
    apart).mono (fun _ => id) ?_
  rintro text ⟨entry, -, same⟩
  simp [StartsLiteral, same]

end Containers

/-- Where a literal of bounded nesting is rejected, one has begun. -/
theorem candid_literalWithin (depth : Nat) :
    Candid (Parser.literalWithin depth) Nowhere StartsLiteral := by
  induction depth with
  | zero => exact (Quiet.expected _).candid
  | succ depth ih =>
      exact candid_literalForms ih (agrees_literalWithin depth) (starts_literalWithin depth)
        (advances_literalWithin depth)

private theorem candid_literal : Candid Parser.literal Nowhere StartsLiteral :=
  Candid.look (fun text => Parser.literalWithin (text.length + 1)) fun _ => candid_literalWithin _

/-! ## Items -/

/-- The texts that a rejected item of a block leaves: they do not go on with the mark that closes
the block. -/
def Unclosed (text : List Char) : Prop :=
  text.head? ≠ some ')' ∧ text.head? ≠ some '\x7d'

private theorem unclosed_of_equals {text : List Char} (equals : text.head? = some '=') :
    Unclosed text := by
  simp [Unclosed, equals]

/-- A text that goes on with a word does not close a block. -/
theorem unclosed_of_isIdentStart {text : List Char} (begins : text.head?.any isIdentStart) :
    Unclosed text := by
  constructor <;> intro closes <;> simp [closes] at begins <;> cases begins

private theorem candid_initializer :
    Candid (do Parser.mark '='; Parser.literal) Nowhere fun text => text.head? = some '=' :=
  (quiet_mark _).candid.bindOpening (fun _ => candid_literal.inside)
    fun read => starts_mark ((agrees_mark rfl).always.mp read)

/-- The end of an item is always read, and without a separator it leaves the text as it is. -/
theorem reads_ending {Value : Type} (make : Option String → Value) {before : View}
    (plain : Stops isSeparator before.rest) :
    reads (Parser.separator >>= fun _ => Parser.drainTail >>= fun tail => pure (make tail)) before =
      some (make (Comment.Queue.together before.tail), { before with tail := [] }) := by
  have none := agrees_separator.always.mpr (.inr ⟨plain, rfl⟩ : separator before () before)
  rw [Parser.reads_bind _ _ .separator fun _ => .bind .drainTail fun _ => .pure _, none,
    Option.bind_some, Parser.reads_bind _ _ .drainTail fun _ => .pure _, Parser.reads_drainTail]
  rfl

private theorem stops_isSeparator_of_equals {text : List Char} (equals : text.head? = some '=') :
    Stops isSeparator text :=
  stops_isSeparator (by simp [equals]) (by simp [equals])

/-- An item whose value is rejected, or else is taken to be left out: its end leaves the equals sign
before the value. -/
theorem candid_assignmentThenEnding {Value : Type} (make : Option Literal → Option String → Value) :
    Candid (Parser.assignment >>= fun value => Parser.separator >>= fun _ =>
      Parser.drainTail >>= fun tail => pure (make value tail))
      (fun text => text.head? = some '=') Nowhere := by
  refine candid_initializer.bindAttempt (fun value => (quiet_ending (make value)).candid)
    (fun _ => id) (fun _ => id) ?_ ?_
  · intro before value after equals read
    rw [reads_ending (make none) (stops_isSeparator_of_equals equals)] at read
    obtain ⟨-, rfl⟩ := Prod.mk.inj (Option.some.inj read)
    exact equals
  · intro before equals read
    rw [reads_ending (make none) (stops_isSeparator_of_equals equals)] at read
    cases read

private theorem candid_enumValue (item : String) (written : Option Literal) :
    Candid (Parser.enumValue item written) Nowhere Everywhere := by
  unfold Parser.enumValue
  split
  · exact (Quiet.pure _).candid
  · split
    · exact (Quiet.pure _).candid
    · exact .rejected _

/-- After a rejected value an enumeration item leaves an equals sign, or it is not read at all. -/
theorem candid_enumItem : Candid Parser.enumItem (fun text => text.head? = some '=')
    fun text => text.head?.any isIdentStart := by
  refine .drainHead fun head => quiet_name.candid.bindOpening (fun name => ?_)
    fun read => starts_name (agrees_name.always.mp read)
  refine candid_initializer.bindAttempt (fun written => (candid_enumValue name written).bindQuiet
    fun value => quiet_ending _) (fun _ _ => trivial) (fun _ _ => trivial) ?_ fun _ _ => trivial
  intro before value after equals read
  have ended : reads (Parser.separator >>= fun _ => Parser.drainTail >>= fun tail =>
      pure ({ name, value := none, comments := { head, tail } } : WrittenItem)) before =
        some (value, after) := read
  rw [reads_ending _ (stops_isSeparator_of_equals equals)] at ended
  obtain ⟨-, rfl⟩ := Prod.mk.inj (Option.some.inj ended)
  exact equals

private theorem candid_enumItems : Candid (Parser.many Parser.enumItem) Unclosed Nowhere := by
  refine candid_enumItem.many (fun {before} equals => missed_enumItem ?_)
    (fun _ => unclosed_of_equals) fun _ => unclosed_of_isIdentStart
  obtain ⟨rest, same⟩ := List.head?_eq_some_iff.mp equals
  rw [same]
  rfl

private theorem candid_fieldId : Candid Parser.fieldId Nowhere (formOf · = some .hex) :=
  candid_integer.bindQuiet fun _ => (quiet_mark _).bind fun _ => .pure _

/-- After a rejected value a field leaves an equals sign; after a rejected number it is not read at
all. -/
theorem candid_field : Candid Parser.field (fun text => text.head? = some '=')
    (formOf · = some .hex) := by
  refine .drainHead fun head => candid_fieldId.bindAttempt (fun id => .afterQuiet
    quiet_qualifier.attempt fun qualifier => .afterQuiet quiet_typeRef fun type =>
    .afterQuiet quiet_name fun name => candid_assignmentThenEnding _) (fun _ => False.elim)
    (fun _ => False.elim) (fun {before _ _} hex read => ?_) fun hex _ => hex
  have missed := missed_afterFieldId (head, none) (not_isIdentStart_of_formOf_hex hex)
  exact absurd (read.symm.trans missed) (by simp)

private theorem not_startsField_of_equals {text : List Char} (equals : text.head? = some '=') :
    ¬StartsField text := by
  unfold StartsField
  rw [equals]
  decide

private theorem candid_fields : Candid (Parser.many Parser.field) Unclosed Nowhere := by
  refine candid_field.many (fun equals => missed_field (not_startsField_of_equals equals))
    (fun _ => unclosed_of_equals) fun text hex => ?_
  constructor <;> intro closes <;> obtain ⟨rest, rfl⟩ := List.head?_eq_some_iff.mp closes <;>
    cases hex

private theorem candid_checkIds (duplicates : DuplicateIds) (owner : FieldOwner)
    (fields : List Field) :
    Candid (Parser.checkIds duplicates owner fields) Nowhere Everywhere := by
  unfold Parser.checkIds
  cases duplicates with
  | keep => exact (Quiet.pure _).candid
  | reject =>
      cases repeatedId? fields with
      | none => exact (Quiet.pure _).candid
      | some repeated => exact .rejected _

private theorem candid_fieldList (duplicates : DuplicateIds) :
    Candid (Parser.fieldList duplicates) Nowhere fun text => text.head? = some '(' := by
  refine (quiet_mark _).candid.bindOpening (fun _ => candid_fields.bindStuck (fun fields =>
      (quiet_close _).candid.bindInside fun _ => (candid_checkIds _ _ _).bindQuiet fun _ => .pure _)
    fun fields before unclosed => ?_) fun read => starts_mark ((agrees_mark rfl).always.mp read)
  exact missed_close rfl (fun _ => (Formed.checkIds _ _ _).bind fun _ => .pure _) unclosed.1

private theorem candid_throwsClause (duplicates : DuplicateIds) :
    Candid (Parser.throwsClause duplicates) Nowhere ThrowsAhead := by
  refine (quiet_keyword _).candid.bind (fun _ => candid_fieldList duplicates) ?_
  intro before _ after read opens
  obtain ⟨leads, rfl⟩ := keyword_iff.mp ((agrees_keyword (by decide)).always.mp read)
  exact ⟨leads, opens⟩

/-- Exceptions begin with a word. -/
theorem isIdentStart_of_throwsAhead {text : List Char} (throws : ThrowsAhead text) :
    text.head?.any isIdentStart := by
  by_contra plain
  exact not_throwsAhead_of_stops (by simpa [Stops] using plain) throws

/-- Whether a function may begin with a text: with a name, but not as a list of exceptions does. -/
def StartsFunction (text : List Char) : Prop :=
  text.head?.any isIdentStart ∧ ¬ThrowsAhead text

/-- A type before a name is no list of exceptions. -/
theorem startsFunction_of_reads_typeRef {before after : View} {type : TypeRef}
    (read : reads Parser.typeRef before = some (type, after))
    (named : after.rest.head?.any isIdentStart) : StartsFunction before.rest := by
  have here := (agrees_type.iff (noBracket_of_isIdentStart named)).mp read
  exact ⟨starts_type here, not_throwsAhead_of_type here named⟩

/-- A function may begin with the mark for one that does not wait. -/
theorem startsFunction_of_reads_oneway {before after : View} {oneway : Option Unit}
    (read : reads (Parser.attempt (Parser.keyword "oneway")) before = some (oneway, after))
    (starts : StartsFunction after.rest) : StartsFunction before.rest := by
  rw [Parser.reads_attempt _ (.keyword "oneway")] at read
  cases found : reads (Parser.keyword "oneway") before with
  | none =>
      simp only [found, Option.some.injEq, Prod.mk.injEq] at read
      rwa [read.2]
  | some word =>
      have here := agrees_oneway.always.mp found
      refine ⟨Lexeme.starts_words here, fun throws => ?_⟩
      obtain ⟨leads, -⟩ := keyword_iff.mp ((agrees_keyword (by decide)).always.mp found)
      exact absurd (throws.1.symm.trans leads) (by decide)

/-- After a rejected list of exceptions a function leaves that list, and after a rejected list of
arguments it is not read at all. -/
theorem candid_function (duplicates : DuplicateIds) :
    Candid (Parser.function duplicates) ThrowsAhead StartsFunction := by
  have named : Candid Parser.name Nowhere fun text => text.head?.any isIdentStart :=
    quiet_name.candid
  refine .drainHead fun head => (quiet_keyword _).attempt.candid.bind (fun oneway =>
    quiet_typeRef.candid.bind (fun returns => named.bindOpening (fun name =>
      (candid_fieldList _).inside.bindInside fun arguments =>
      ((candid_throwsClause _).bindAttempt (fun throws => (quiet_ending _).candid)
        (fun _ => id) (fun _ => id) ?_ fun _ _ => trivial))
      fun read => starts_name (agrees_name.always.mp read)) startsFunction_of_reads_typeRef)
    startsFunction_of_reads_oneway
  intro before value after throws read
  have plain : Stops isSeparator before.rest :=
    stops_isSeparator_of_head rfl rfl (isIdentStart_of_throwsAhead throws)
  rw [reads_ending _ plain] at read
  obtain ⟨-, rfl⟩ := Prod.mk.inj (Option.some.inj read)
  exact throws

/-- Where a list of exceptions begins, no function does. -/
theorem missed_function_of_throwsAhead {duplicates : DuplicateIds} {view : View}
    (throws : ThrowsAhead view.rest) : reads (Parser.function duplicates) view = none := by
  have typed (head : Option String) (oneway : Option Unit) :=
    Formed.typeRef.bind (.functionEnd duplicates head oneway)
  rw [Parser.function_eq]
  refine Agrees.missed_drainHead
    (fun head => (Formed.keyword "oneway").attempt.bind (typed head)) fun head => ?_
  refine Agrees.missed_optional (.keyword "oneway") (typed head) ?_ ?_
  · rw [reads_keyword (by decide), if_neg]
    rw [throws.1]
    decide
  · rw [Parser.reads_bind _ _ .typeRef (.functionEnd duplicates head none),
      Option.bind_eq_none_iff]
    rintro ⟨type, after⟩ read
    rw [Parser.functionEnd, Parser.reads_bind _ _ .name ?formed, agrees_name.missed starts_name]
    · rfl
    · exact fun begins => (startsFunction_of_reads_typeRef read begins).2 throws
    case formed =>
      exact fun _ => (Formed.fieldList duplicates).bind fun _ =>
        (Formed.throwsClause duplicates).attempt.bind fun _ => .ending _

private theorem candid_functions (duplicates : DuplicateIds) :
    Candid (Parser.many (Parser.function duplicates)) Unclosed Nowhere :=
  (candid_function duplicates).many missed_function_of_throwsAhead
    (fun _ throws => unclosed_of_isIdentStart (isIdentStart_of_throwsAhead throws))
    fun _ starts => unclosed_of_isIdentStart starts.1

/-! ## Declarations -/

/-- A declaration that begins with a keyword shows it when something inside is rejected. -/
theorem candid_headedKeyword {word : String} (isWord : IsIdentifier word.toList)
    {next : Option String → Unit → Rule Declaration}
    (inside : ∀ head value, Candid (next head value) Nowhere Everywhere) :
    Candid (Parser.drainHead >>= fun head => Parser.keyword word >>= next head) Nowhere
      (leadingWord · = word.toList) :=
  .drainHead fun head => (quiet_keyword word).candid.bindOpening (inside head)
    fun read => (keyword_iff.mp ((agrees_keyword isWord).always.mp read)).1

/-- What begins as a block does. -/
theorem candid_headedBlock {Value : Type} {word : String} (isWord : IsIdentifier word.toList)
    {next : Option String → String × Option String → Rule Value}
    (inside : ∀ head value, Candid (next head value) Nowhere Everywhere) :
    Candid (Parser.drainHead >>= fun head => Parser.blockHeader word >>= next head) Nowhere
      (leadingWord · = word.toList) := by
  refine .drainHead fun head => (quiet_blockHeader word).candid.bindOpening (inside head) ?_
  intro before value after read
  obtain ⟨_, _, keyed, -⟩ := (agrees_blockHeader isWord).always.mp read
  exact (keyword_iff.mp keyed).1

private theorem candid_enumValues (enumeration : String) (written : List WrittenItem) :
    Candid (Parser.enumValues enumeration written) Nowhere Everywhere := by
  unfold Parser.enumValues
  cases numberItems (some 0) written with
  | ok items => exact (Quiet.pure _).candid
  | error item => exact .rejected _

private theorem candid_namespaceForm :
    Candid Parser.namespaceForm Nowhere (leadingWord · = "namespace".toList) :=
  candid_headedKeyword (by decide) fun _ _ => (quiet_namespaceScope.bind fun _ =>
    quiet_path.bind fun _ => quiet_ending _).candid

private theorem candid_includeForm :
    Candid Parser.includeForm Nowhere (leadingWord · = "include".toList) :=
  candid_headedKeyword (by decide) fun _ _ => ((quiet_quoted _).bind fun _ => Quiet.skip.bind
    fun _ => quiet_ending _).candid

private theorem candid_typedefForm :
    Candid Parser.typedefForm Nowhere (leadingWord · = "typedef".toList) :=
  candid_headedKeyword (by decide) fun _ _ => (quiet_typeRef.bind fun _ => quiet_name.bind
    fun _ => quiet_ending _).candid

private theorem candid_constantForm :
    Candid Parser.constantForm Nowhere (leadingWord · = "const".toList) :=
  candid_headedKeyword (by decide) fun _ _ => quiet_typeRef.candid.bindInside fun _ =>
    quiet_name.candid.bindInside fun _ => (quiet_mark _).candid.bindInside fun _ =>
    (candid_literal.bindQuiet fun _ => quiet_ending _).inside

/-- What comes before the items of an enumeration is rejected only behind its keyword. -/
theorem candid_enumStart : Candid Parser.enumStart Nowhere (leadingWord · = "enum".toList) := by
  refine candid_headedBlock (by decide) fun head header => candid_enumItems.bindStuck
    (fun written => ((quiet_close _).bind fun _ => quiet_separator.bind fun _ => .pure _).candid) ?_
  intro written before unclosed
  exact missed_close rfl (fun _ => Formed.separator.bind fun _ => .pure _) unclosed.2

/-- An enumeration begins with its keyword. -/
theorem leadingWord_of_enumStart {before after : View} {start : Parser.EnumStart}
    (read : reads Parser.enumStart before = some (start, after)) :
    leadingWord before.rest = "enum".toList := by
  have starts : enumStart.Starts (leadingWord · = "enum".toList) := starts_headedBlock
  exact starts (agrees_enumStart.always.mp read)

private theorem candid_enumerationForm :
    Candid Parser.enumerationForm Nowhere (leadingWord · = "enum".toList) := by
  rw [Parser.enumerationForm_eq]
  exact candid_enumStart.bindOpening (fun _ => (candid_enumValues _ _).bindQuiet fun _ =>
    Quiet.drainTail.bind fun _ => .pure _) leadingWord_of_enumStart

private theorem candid_recordForm (duplicates : DuplicateIds) (kind : RecordKind) :
    Candid (Parser.recordForm duplicates kind) Nowhere (leadingWord · = kind.keyword.toList) := by
  refine candid_headedBlock (isIdentifier_keyword kind) fun head header =>
    candid_fields.bindStuck (fun fields => (quiet_close _).candid.bindInside fun _ =>
      (candid_checkIds _ _ _).bindQuiet fun _ => quiet_ending _) ?_
  intro fields before unclosed
  exact missed_close rfl (fun _ => (Formed.checkIds _ _ _).bind fun _ => Formed.ending _) unclosed.2

private theorem candid_serviceForm (duplicates : DuplicateIds) :
    Candid (Parser.serviceForm duplicates) Nowhere (leadingWord · = "service".toList) := by
  refine candid_headedKeyword (by decide) fun head _ => quiet_name.candid.bindInside fun name =>
    quiet_parentClause.attempt.candid.bindInside fun parent =>
    (quiet_mark _).candid.bindInside fun _ => Quiet.drainTail.candid.bindInside fun headerTail =>
    (candid_functions duplicates).bindStuck (fun functions => ((quiet_close _).bind fun _ =>
      quiet_ending _).candid) ?_
  intro functions before unclosed
  exact missed_close rfl (fun _ => Formed.ending _) unclosed.2

/-- A form of a declaration rejects only a text with its own keyword. -/
theorem candid_declarationTable (duplicates : DuplicateIds) :
    ∀ form ∈ declarationTable duplicates,
      Candid form.2.1 Nowhere (leadingWord · = form.1.toList) := by
  simp only [declarationTable, declarationWords, Parser.declarationForms, declarationForms,
    List.zip_cons_cons, List.zip_nil_left, List.forall_mem_cons, List.not_mem_nil, false_implies,
    implies_true, and_true]
  exact ⟨candid_namespaceForm, candid_includeForm, candid_typedefForm, candid_constantForm,
    candid_enumerationForm, candid_recordForm duplicates .struct,
    candid_recordForm duplicates .union, candid_recordForm duplicates .exception,
    candid_serviceForm duplicates⟩

/-- A form of a declaration is missed where the text has another keyword. -/
theorem missed_declarationTable (duplicates : DuplicateIds) :
    ∀ form ∈ declarationTable duplicates, ∀ {before : View},
      leadingWord before.rest ≠ form.1.toList → reads form.2.1 before = none :=
  fun form member _ => (agrees_declarationTable duplicates form member).1.missed
    (agrees_declarationTable duplicates form member).2

/-- **No declaration comes of a rejection.** While a declaration is read that matches in the end,
nothing is rejected. -/
theorem candid_declaration (duplicates : DuplicateIds) :
    Candid (Parser.declaration duplicates) Nowhere Everywhere := by
  have apart : (declarationTable duplicates).Pairwise fun first second =>
      Quiet first.2.1 ∨ first.1.toList ≠ second.1.toList := by
    have words : ((declarationTable duplicates).map Prod.fst).Nodup := nodup_declarationWords
    refine (List.pairwise_map.mp words).imp fun differs => .inr ?_
    simpa [String.toList_inj] using differs
  have table : Candid (Parser.choice .declaration ((declarationTable duplicates).map (·.2.1)))
      Nowhere fun text => ∃ form ∈ declarationTable duplicates,
        leadingWord text = form.1.toList :=
    Candid.choice_of_keys leadingWord _ _ .declaration (candid_declarationTable duplicates)
      (missed_declarationTable duplicates) apart
  exact table.inside

end Grammar
end ThriftIdl
