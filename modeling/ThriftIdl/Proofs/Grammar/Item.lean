import ThriftIdl.Proofs.Grammar.Literal
import ThriftIdl.Proofs.Grammar.TypeRef
import ThriftIdl.Parser.Item

/-!
# The grammar of items

Enumeration items, fields and functions. Their optional parts are left out where they could not be
read: a value where no equals sign follows, and exceptions where no `throws` with an opening
parenthesis does. With these conditions on what follows, the rules read exactly the phrases
(`agrees_enumItem`, `agrees_field`, `agrees_function`).
-/

namespace ThriftIdl

open Source (Stops opensGap)
open ThriftIdl.Parser (View Rule Formed reads isIdentStart isIdentChar isSeparator)

/-! ## Fields and functions in parts -/

namespace Parser

/-- A field up to its qualifier. -/
def fieldStart : Rule (Option String × Option Int64) := do
  let head ← drainHead
  let id ← attempt fieldId
  return (head, id)

/-- A field from its name on. -/
def fieldEnd (start : Option String × Option Int64) (qualifier : Option Qualifier)
    (type : TypeRef) : Rule Field := do
  let name ← name
  let defaultValue ← assignment
  separator
  let tail ← drainTail
  return { id := start.2, qualifier, type, name, defaultValue,
           comments := { head := start.1, tail } }

/-- A field falls into its parts before the qualifier and after the type. -/
theorem field_eq : field = fieldStart >>= fun start =>
    attempt qualifier >>= fun qualifier => typeRef >>= fieldEnd start qualifier := by
  simp only [field, fieldStart, bind_assoc, pure_bind]
  rfl

/-- The comments and the number before a field are read by the means of the rules. -/
theorem Formed.fieldStart : Formed fieldStart :=
  Formed.drainHead.bind fun _ => Formed.fieldId.attempt.bind fun _ => .pure _

/-- What comes after the type of a field is read by the means of the rules. -/
theorem Formed.fieldEnd (start : Option String × Option Int64) (qualifier : Option Qualifier)
    (type : TypeRef) : Formed (fieldEnd start qualifier type) :=
  Formed.name.bind fun _ => Formed.assignment.bind fun _ => Formed.ending _

/-- A function from its name on. -/
def functionEnd (duplicates : DuplicateIds) (head : Option String) (oneway : Option Unit)
    (returns : TypeRef) : Rule Function := do
  let name ← name
  let arguments ← fieldList duplicates
  let throws ← attempt (throwsClause duplicates)
  separator
  let tail ← drainTail
  return { oneway := oneway.isSome, returns, name, arguments, throws := throws.getD [],
           comments := { head, tail } }

/-- A function falls into its comments, the word `oneway`, its type and the rest. -/
theorem function_eq (duplicates : DuplicateIds) : Parser.function duplicates =
    drainHead >>= fun head => attempt (keyword "oneway") >>= fun oneway =>
      typeRef >>= functionEnd duplicates head oneway :=
  rfl

/-- What comes after the type of a function is read by the means of the rules. -/
theorem Formed.functionEnd (duplicates : DuplicateIds) (head : Option String)
    (oneway : Option Unit) (returns : TypeRef) :
    Formed (functionEnd duplicates head oneway returns) :=
  Formed.name.bind fun _ => (Formed.fieldList duplicates).bind fun _ =>
    (Formed.throwsClause duplicates).attempt.bind fun _ => Formed.ending _

end Parser

namespace Grammar

open Phrase

/-! ## Values after an equals sign -/

/-- An equals sign and a value. -/
def initializer : Phrase Literal := do
  mark '=' plain_equals
  literal

/-- What stands after an item: no equals sign. -/
def NoEquals (text : List Char) : Prop :=
  Stops (· == '=') text

private theorem agrees_initializer :
    Agrees (do Parser.mark '='; Parser.literal) initializer anything :=
  (agrees_mark _).bind fun _ => agrees_literal

private theorem narrows_initializer : initializer.Narrows :=
  (Lexeme.narrows_phrase _).bind fun _ => advances_literal.narrows

/-- Where no equals sign comes next, no value is read. -/
theorem missed_initializer {view : View} (ended : NoEquals view.rest) :
    reads (do Parser.mark '='; Parser.literal) view = none := by
  refine agrees_initializer.missed (Starts.bind starts_mark) fun opens => ?_
  unfold NoEquals Stops at ended
  rw [opens] at ended
  cases ended

/-- An item ends with a separator or right where its last part does. -/
theorem separator_cases {Value : Type} {make : Option String → Value} {before after : View}
    {value : Value}
    (here : (separator >>= fun _ => drainTail >>= fun tail => pure (make tail)) before value
      after) :
    (∃ char more, isSeparator char ∧ before.rest = char :: more) ∨ after.rest = before.rest := by
  obtain ⟨_, middle, separates, tail, _, ⟨-, rfl⟩, -, rfl⟩ := here
  rcases separates with ⟨_, more, rest, ⟨char, separates, rfl⟩, -, -⟩ | ⟨-, rfl⟩
  · exact .inl ⟨char, more, separates, rest⟩
  · exact .inr rfl

/-- A separator begins with no equals sign. -/
theorem noEquals_of_isSeparator {char : Char} {rest : List Char} (separates : isSeparator char) :
    NoEquals (char :: rest) := by
  refine Source.stops_cons.mpr (beq_eq_false_iff_ne.mpr ?_)
  rintro rfl
  cases separates

private theorem noEquals_of_separator_last {Value : Type} {make : Option String → Value}
    {before after : View} {value : Value}
    (here : (separator >>= fun _ => drainTail >>= fun tail => pure (make tail)) before value after)
    (ended : NoEquals after.rest) : NoEquals before.rest := by
  rcases separator_cases here with ⟨char, more, separates, rest⟩ | same
  · rw [rest]
    exact noEquals_of_isSeparator separates
  · rwa [← same]

/-! ## Enumeration items -/

/-- The value of an enumeration item that is written as a literal, if that is an integer. -/
def enumValue? : Option Literal → Option (Option Int64)
  | none => some none
  | some written => written.integer?.map some

/-- An enumeration item. -/
def enumItem : Phrase WrittenItem := do
  let head ← drainHead
  let name ← name
  let written ← initializer.optional
  let value ← given (enumValue? written)
  separator
  let tail ← drainTail
  return { name, value, comments := { head, tail } }

private theorem agrees_enumValue (item : String) (written : Option Literal) :
    Agrees (Parser.enumValue item written) (given (enumValue? written)) anything := by
  refine ⟨.enumValue item written, fun {before value after} _ => ?_⟩
  unfold Parser.enumValue enumValue? given
  cases written with
  | none => simp [eq_comm]
  | some literal =>
      cases integer : literal.integer? with
      | none => simp [integer]
      | some number => simp [integer, eq_comm]

/-- An item of an enumeration is read as the grammar has it where no equals sign follows. -/
theorem agrees_enumItem :
    Agrees Parser.enumItem enumItem fun _ after => NoEquals after.rest := by
  refine Agrees.drainHead.bind fun head => agrees_name.bind fun name =>
    agrees_initializer.bindOptionalApart (fun written =>
      (agrees_enumValue name written).bind fun value => agrees_separator.bind fun _ =>
      Agrees.drainTail.bind fun tail => .pure _) (fun _ _ => trivial) ?_
  rintro before found after ⟨value, _, ⟨-, rfl⟩, there⟩ ended
  exact missed_initializer (noEquals_of_separator_last there ended)

/-- An item of an enumeration begins with its name. -/
theorem starts_enumItem : enumItem.Starts fun text => text.head?.any isIdentStart :=
  Starts.drainHead fun _ => Starts.bind starts_name

/-- An item of an enumeration uses up its name. -/
theorem advances_enumItem : enumItem.Advances :=
  Advances.after .drainHead fun _ => (Lexeme.advances_phrase _).bind fun _ =>
    narrows_initializer.optional.bind fun _ => (narrows_given _).bind fun _ =>
    narrows_separator.bind fun _ => Narrows.drainTail.bind fun _ => .pure _

/-- No item of an enumeration is read where no name begins. -/
theorem missed_enumItem {view : View} (plain : Stops isIdentStart view.rest) :
    reads Parser.enumItem view = none := by
  have formed (name : String) (head : Option String) := Formed.assignment.bind fun written =>
    (Formed.enumValue name written).bind fun value => Formed.ending fun tail =>
    ({ name, value, comments := { head, tail } } : WrittenItem)
  refine Agrees.missed_drainHead (fun head => Formed.name.bind fun name => formed name head)
    fun head => ?_
  refine agrees_name.missed_bind (fun name => formed name head) fun name after here => ?_
  have begins := starts_name here
  unfold Stops at plain
  simp only [plain] at begins
  cases begins

/-! ## Fields -/

/-- The number of a field with the colon after it. -/
def fieldId : Phrase Int64 := do
  let id ← integer
  mark ':' plain_colon
  return id

private theorem agrees_fieldId : Agrees Parser.fieldId fieldId anything :=
  agrees_integer.bind fun _ => (agrees_mark _).bind fun _ => .pure _

private theorem advances_fieldId : fieldId.Advances :=
  advances_integer.bind fun _ => (Lexeme.narrows_phrase _).bind fun _ => .pure _

/-- The words for the qualifiers of a field. -/
def qualifiers : List (String × Qualifier) :=
  [("required", .required), ("optional", .optional)]

/-- The qualifiers of fields are words. -/
theorem areWords_qualifiers : ∀ entry ∈ qualifiers, IsIdentifier entry.1.toList := by
  decide

/-- The qualifier of a field. -/
def qualifier : Phrase Qualifier :=
  (Lexeme.words qualifiers areWords_qualifiers).phrase

/-- A qualifier is read as the grammar has it. -/
theorem agrees_qualifier : Agrees Parser.qualifier qualifier anything :=
  agrees_words (by decide) areWords_qualifiers

/-- A field. -/
def field : Phrase Field := do
  let head ← drainHead
  let id ← fieldId.optional
  let qualifier ← qualifier.optional
  let type ← typeAfter qualifiers qualifier
  let name ← name
  let defaultValue ← initializer.optional
  separator
  let tail ← drainTail
  return { id, qualifier, type, name, defaultValue, comments := { head, tail } }

private theorem missed_fieldId {view : View} (begins : view.rest.head?.any isIdentStart) :
    reads Parser.fieldId view = none := by
  refine agrees_fieldId.missed (Starts.bind starts_integer) fun number => ?_
  cases rest : view.rest with
  | nil => simp [rest] at begins
  | cons char others =>
      rw [rest, List.head?_cons, Option.any_some] at begins number
      rw [isNumberStart_of_isIdentStart begins] at number
      cases number

private theorem starts_typeAfter {Value : Type} {table : List (String × Value)}
    {found : Option Value} :
    (typeAfter table found).Starts fun text => text.head?.any isIdentStart :=
  Starts.only starts_type

private theorem agrees_field : Agrees Parser.field field fun _ after => NoEquals after.rest := by
  refine Agrees.drainHead.bind fun head => agrees_fieldId.bindOptionalApart (fun id => ?_)
    (fun _ _ => trivial) ?_
  · refine agrees_wordThenType agrees_qualifier (fun qualifier type => agrees_name.bind fun name =>
      agrees_initializer.bindOptionalApart (fun value => agrees_separator.bind fun _ =>
      Agrees.drainTail.bind fun tail => .pure _) (fun _ _ => trivial) ?_) ?_
    · intro before found after there ended
      exact missed_initializer (noEquals_of_separator_last there ended)
    · intro found type before value after there _
      exact noBracket_of_isIdentStart ((Starts.bind starts_name) there)
  · intro before found after there _
    exact missed_fieldId (Starts.optional Lexeme.starts_words (Starts.bind starts_typeAfter) there)

/-- Whether a field may begin with a text: with a number or a name. -/
def StartsField (text : List Char) : Prop :=
  text.head?.any isNumberStart ∨ text.head?.any isIdentStart

/-- A field begins with its number, its qualifier or its type. -/
theorem starts_field : field.Starts StartsField :=
  Starts.drainHead fun _ => Starts.optional ((Starts.bind starts_integer).mono fun _ => .inl)
    (Starts.optional (Lexeme.starts_words.mono fun _ => .inr)
      (Starts.bind (starts_typeAfter.mono fun _ => .inr)))

/-- Where a field begins there is no equals sign. -/
theorem noEquals_of_startsField {text : List Char} (starts : StartsField text) : NoEquals text := by
  cases text with
  | nil => rfl
  | cons char rest =>
      refine Source.stops_cons.mpr (beq_eq_false_iff_ne.mpr ?_)
      rintro rfl
      rcases starts with number | name
      · cases number
      · cases name

/-- A field uses up its type. -/
theorem advances_field : field.Advances :=
  Advances.after .drainHead fun _ => Advances.after advances_fieldId.narrows.optional fun _ =>
    Advances.after (Lexeme.narrows_phrase _).optional fun _ =>
    advances_type.only.bind fun _ => (Lexeme.narrows_phrase _).bind fun _ =>
    narrows_initializer.optional.bind fun _ => narrows_separator.bind fun _ =>
    Narrows.drainTail.bind fun _ => .pure _

/-- What comes after the number of a field begins with a name. -/
theorem missed_afterFieldId (start : Option String × Option Int64) {view : View}
    (plain : Stops isIdentStart view.rest) :
    reads (Parser.attempt Parser.qualifier >>= fun qualifier =>
      Parser.typeRef >>= Parser.fieldEnd start qualifier) view = none := by
  refine Agrees.missed_optional .qualifier
    (fun qualifier => Formed.typeRef.bind (.fieldEnd start qualifier))
    (agrees_qualifier.missed Lexeme.starts_words (by simpa [Stops] using plain)) ?_
  rw [Parser.reads_bind _ _ .typeRef (.fieldEnd start none), missed_typeRef plain]
  rfl

/-- No field is read where none begins. -/
theorem missed_field {view : View} (plain : ¬StartsField view.rest) :
    reads Parser.field view = none := by
  have typed (start : Option String × Option Int64) := Formed.qualifier.attempt.bind
    fun qualifier => Formed.typeRef.bind (.fieldEnd start qualifier)
  have named : ¬view.rest.head?.any isIdentStart := fun begins => plain (.inr begins)
  refine Agrees.missed_drainHead
    (fun head => Formed.fieldId.attempt.bind fun id => typed (head, id)) fun head => ?_
  refine Agrees.missed_optional .fieldId (fun id => typed (head, id))
    (agrees_fieldId.missed (Starts.bind starts_integer) fun begins => plain (.inl begins)) ?_
  exact missed_afterFieldId (head, none) (by simpa [Stops] using named)

/-! ## Lists of fields -/

/-- Whether a list of fields is acceptable: no number comes twice, unless such fields are kept. -/
def IdsAllowed (duplicates : DuplicateIds) (fields : List Field) : Prop :=
  duplicates = .reject → repeatedId? fields = none

/-- Checking the numbers of fields lets through what the grammar allows. -/
theorem agrees_checkIds (duplicates : DuplicateIds) (owner : FieldOwner) (fields : List Field) :
    Agrees (Parser.checkIds duplicates owner fields) (provided (IdsAllowed duplicates fields))
      anything := by
  refine ⟨.checkIds duplicates owner fields, fun {before value after} _ => ?_⟩
  unfold Parser.checkIds provided IdsAllowed
  cases duplicates with
  | keep => simp [eq_comm]
  | reject =>
      cases repeated : repeatedId? fields with
      | none => simp [eq_comm]
      | some first => simp

/-- Fields agree in sequence, up to a mark with which none begins. -/
theorem agrees_fields : Agrees (Parser.many Parser.field) (Repeated field)
    fun _ after => NoEquals after.rest ∧ reads Parser.field after = none :=
  agrees_field.many advances_field fun here => noEquals_of_startsField (starts_field here)

/-- No field begins with the mark that closes a list of fields or a record. -/
theorem fields_end {view : View}
    (closes : view.rest.head? = some ')' ∨ view.rest.head? = some '\x7d') :
    NoEquals view.rest ∧ reads Parser.field view = none := by
  rcases closes with closes | closes <;>
    · obtain ⟨rest, same⟩ := List.head?_eq_some_iff.mp closes
      constructor
      · rw [same]
        rfl
      · refine missed_field ?_
        rw [same]
        rintro (number | name)
        · cases number
        · cases name

/-- The arguments of a function, or the exceptions that it throws, in parentheses. -/
def fieldList (duplicates : DuplicateIds) : Phrase (List Field) := do
  mark '(' rfl
  let fields ← Repeated field
  close ')' rfl
  provided (IdsAllowed duplicates fields)
  return fields

private theorem agrees_fieldList (duplicates : DuplicateIds) :
    Agrees (Parser.fieldList duplicates) (fieldList duplicates) anything := by
  refine (agrees_mark _).bind fun _ => agrees_fields.bindFollow (fun fields =>
    (agrees_close _).bind fun _ => (agrees_checkIds _ _ _).bind fun _ => .pure _) ?_
  intro fields before found after there _
  exact fields_end (.inl ((Starts.bind starts_close) there))

/-- A list of fields uses up its opening parenthesis. -/
theorem advances_fieldList (duplicates : DuplicateIds) : (fieldList duplicates).Advances :=
  (Lexeme.advances_phrase _).bind fun _ => advances_field.narrows.repeated.bind fun _ =>
    advances_close.narrows.bind fun _ => (narrows_provided _).bind fun _ => .pure _

/-! ## Functions -/

/-- The exceptions that a function throws. -/
def throwsClause (duplicates : DuplicateIds) : Phrase (List Field) := do
  keyword "throws" (by decide)
  fieldList duplicates

private theorem agrees_throwsClause (duplicates : DuplicateIds) :
    Agrees (Parser.throwsClause duplicates) (throwsClause duplicates) anything :=
  (agrees_keyword _).bind fun _ => agrees_fieldList duplicates

/-- Whether a text begins a list of exceptions. The word alone may be the name of a type. -/
def ThrowsAhead (text : List Char) : Prop :=
  leadingWord text = "throws".toList ∧
    (View.ofText (text.drop "throws".toList.length)).skip.rest.head? = some '('

/-- The words that may stand before the type of a function. -/
def onewayWords : List (String × Unit) :=
  [("oneway", ())]

/-- The mark of a function that does not wait is a word. -/
theorem areWords_oneway : ∀ entry ∈ onewayWords, IsIdentifier entry.1.toList := by
  decide

/-- The mark of a function that does not wait is read as the grammar has it. -/
theorem agrees_oneway : Agrees (Parser.keyword "oneway")
    (Lexeme.words onewayWords areWords_oneway).phrase anything :=
  agrees_keyword (by decide)

/-- A function. -/
def function (duplicates : DuplicateIds) : Phrase Function := do
  let head ← drainHead
  let oneway ← (Lexeme.words onewayWords areWords_oneway).phrase.optional
  let returns ← typeAfter onewayWords oneway
  let name ← name
  let arguments ← fieldList duplicates
  let throws ← (throwsClause duplicates).optional
  separator
  let tail ← drainTail
  return { oneway := oneway.isSome, returns, name, arguments, throws := throws.getD [],
           comments := { head, tail } }

private theorem missed_throwsClause {duplicates : DuplicateIds} {view : View}
    (ended : ¬ThrowsAhead view.rest) : reads (Parser.throwsClause duplicates) view = none := by
  refine (agrees_keyword (by decide)).missed_bind (fun _ => .fieldList duplicates) ?_
  intro _ past here
  obtain ⟨leads, rfl⟩ := keyword_iff.mp here
  refine (agrees_fieldList duplicates).missed (Starts.bind starts_mark) fun opens => ?_
  exact ended ⟨leads, opens⟩

/-- Exceptions follow only where a word begins. -/
theorem not_throwsAhead_of_stops {text : List Char} (plain : Stops isIdentStart text) :
    ¬ThrowsAhead text := by
  rintro ⟨leads, -⟩
  cases text with
  | nil => cases leads
  | cons char rest =>
      have begins : (leadingWord (char :: rest)).head? = some 't' := by rw [leads]; rfl
      by_cases ident : isIdentChar char
      · rw [leadingWord, List.takeWhile_cons_of_pos ident] at begins
        cases begins
        cases plain
      · rw [leadingWord, List.takeWhile_cons_of_neg ident] at begins
        cases begins

private theorem stops_isIdentStart_of_isSeparator {char : Char} {rest : List Char}
    (separates : isSeparator char) : Stops isIdentStart (char :: rest) := by
  rw [Source.stops_cons]
  simp only [isSeparator, Bool.or_eq_true, beq_iff_eq] at separates
  rcases separates with rfl | rfl <;> rfl

private theorem agrees_function (duplicates : DuplicateIds) :
    Agrees (Parser.function duplicates) (function duplicates)
      fun _ after => ¬ThrowsAhead after.rest := by
  refine Agrees.drainHead.bind fun head => agrees_wordThenType agrees_oneway
    (fun oneway returns => agrees_name.bind fun name => (agrees_fieldList _).bind fun arguments =>
      (agrees_throwsClause _).bindOptionalApart (fun throws => agrees_separator.bind fun _ =>
      Agrees.drainTail.bind fun tail => .pure _) (fun _ _ => trivial) ?_) ?_
  · intro before found after there ended
    refine missed_throwsClause ?_
    rcases separator_cases there with ⟨char, more, separates, rest⟩ | same
    · rw [rest]
      exact not_throwsAhead_of_stops (stops_isIdentStart_of_isSeparator separates)
    · rwa [← same]
  · intro found type before value after there _
    exact noBracket_of_isIdentStart ((Starts.bind starts_name) there)

/-- A function begins with a word. -/
theorem starts_function (duplicates : DuplicateIds) :
    (function duplicates).Starts fun text => text.head?.any isIdentStart :=
  Starts.drainHead fun _ => Starts.optional Lexeme.starts_words (Starts.bind starts_typeAfter)

/-- A function uses up its type. -/
theorem advances_function (duplicates : DuplicateIds) : (function duplicates).Advances :=
  Advances.after .drainHead fun _ => Advances.after (Lexeme.narrows_phrase _).optional fun _ =>
    advances_type.only.bind fun _ => (Lexeme.narrows_phrase _).bind fun _ =>
    (advances_fieldList _).narrows.bind fun _ =>
    ((Lexeme.narrows_phrase _).bind fun _ => (advances_fieldList _).narrows).optional.bind fun _ =>
    narrows_separator.bind fun _ => Narrows.drainTail.bind fun _ => .pure _

/-- A type that is followed by a name begins no list of exceptions, even if its first word is the
word that such a list begins with. -/
theorem not_throwsAhead_of_type {before middle : View} {found : TypeRef}
    (here : type before found middle) (named : middle.rest.head?.any isIdentStart) :
    ¬ThrowsAhead before.rest := by
  rintro ⟨leads, opens⟩
  rcases type_cases here with ⟨keyword, leads'⟩ | ⟨value, scalar, rfl⟩
  · have differ : ∀ word ∈ ["map", "list", "set"], word.toList ≠ "throws".toList := by decide
    exact differ _ keyword (leads'.symm.trans leads)
  · rw [← leads] at opens
    rcases past_leadingWord_of_name scalar rfl with same | dot
    · have opens : middle.rest.head? = some '(' := by
        rw [← same]
        exact opens
      rw [opens] at named
      cases named
    · cases opens.symm.trans dot

/-- No function begins as a list of exceptions does. -/
theorem not_throwsAhead_of_function {duplicates : DuplicateIds} {before after : View}
    {value : Function} (here : function duplicates before value after) :
    ¬ThrowsAhead before.rest := by
  obtain ⟨head, _, ⟨-, rfl⟩, oneway, middle, optional, type, next, ⟨typed, -⟩, there⟩ := here
  cases oneway with
  | some _ =>
      obtain ⟨word, member, leads, -⟩ := Lexeme.words_phrase_iff.mp optional
      rintro ⟨leads', -⟩
      obtain rfl : word = "oneway" := by simpa [onewayWords] using member
      exact absurd (leads.symm.trans leads') (by decide)
  | none =>
      cases optional
      have none := not_throwsAhead_of_type typed ((Starts.bind starts_name) there)
      exact none

/-- Functions agree in sequence, up to a mark with which none begins. -/
theorem agrees_functions (duplicates : DuplicateIds) :
    Agrees (Parser.many (Parser.function duplicates)) (Repeated (function duplicates))
      fun _ after => ¬ThrowsAhead after.rest ∧ reads (Parser.function duplicates) after = none :=
  (agrees_function duplicates).many (advances_function duplicates) not_throwsAhead_of_function

/-- No function is read where no word begins. -/
theorem missed_function {duplicates : DuplicateIds} {view : View}
    (plain : Stops isIdentStart view.rest) : reads (Parser.function duplicates) view = none := by
  have typed (head : Option String) (oneway : Option Unit) :=
    Formed.typeRef.bind (.functionEnd duplicates head oneway)
  rw [Parser.function_eq]
  refine Agrees.missed_drainHead
    (fun head => (Formed.keyword "oneway").attempt.bind (typed head)) fun head => ?_
  refine Agrees.missed_optional (.keyword "oneway") (typed head)
    (agrees_oneway.missed Lexeme.starts_words (by simpa [Stops] using plain)) ?_
  have none : reads Parser.typeRef { view with head := [] } = none := missed_typeRef plain
  rw [Parser.reads_bind _ _ .typeRef (.functionEnd duplicates head .none), none]
  rfl

end Grammar
end ThriftIdl
