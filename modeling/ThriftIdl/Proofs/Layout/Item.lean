import ThriftIdl.Proofs.Layout.Value

/-!
# Items wherever they are laid out

The tokens that are written for the items of enumerations, for fields and for functions yield them,
up to comments: `yields_enumItems`, `Attributes.field` and `Attributes.function`.
-/

namespace ThriftIdl

open ThriftIdl.Source (Stops)
open ThriftIdl.Parser (isSeparator isIdentChar isNameChar)
open ThriftIdl.Grammar (Phrase Lexeme firstWord leadingWord)
open ThriftIdl.Grammar.Phrase (Starts)

namespace Layout

/-- What begins with a word does not begin with a separator. -/
theorem starts_plain {Value : Type} {phrase : Phrase Value}
    (starts : phrase.Starts fun text => text.head?.any Parser.isIdentStart) :
    phrase.Starts (Stops isSeparator) :=
  starts.mono fun _ => Grammar.stops_isSeparator_of_head rfl rfl

/-! ## Types after a word -/

/-- Before its first dot a name has the characters of an identifier only. -/
theorem leadingWord_eq_firstSegment {name : String} (passes : name.toList.all isNameChar) :
    leadingWord name.toList = (firstSegment name).toList := by
  rw [firstSegment, String.toList_ofList, leadingWord]
  generalize name.toList = chars at passes
  induction chars with
  | nil => rfl
  | cons char rest ih =>
      simp only [List.all_cons, Bool.and_eq_true] at passes
      by_cases dot : char = '.'
      · subst dot
        rfl
      · have ident : isIdentChar char := by simpa [isNameChar, dot] using passes.1
        rw [List.takeWhile_cons_of_pos ident, List.takeWhile_cons_of_pos (by simpa using dot),
          ih passes.2]

/-- A type that does not begin with a word has another first word. -/
theorem firstWord_ne {word : String} {type : TypeRef} (wellFormed : IsWellFormedType type)
    (apart : DoesNotBegin word type) (notContainer : word ∉ ["list", "set", "map"]) :
    firstWord type ≠ word.toList := by
  simp only [List.mem_cons, List.not_mem_nil, or_false, not_or] at notContainer
  obtain ⟨notList, notSet, notMap⟩ := notContainer
  have container (keyword : String) (isWord : Grammar.IsIdentifier keyword.toList)
      (differs : word ≠ keyword) : leadingWord keyword.toList ≠ word.toList := by
    rw [Grammar.leadingWord_of_isIdentifier isWord]
    exact fun same => differs (String.toList_inj.mp same.symm)
  cases type with
  | scalar name =>
      have names : leadingWord name.toList = (firstSegment name).toList :=
        leadingWord_eq_firstSegment wellFormed.2
      exact fun same => apart name rfl (String.toList_inj.mp (names.symm.trans same))
  | list item => exact container "list" (by decide) notList
  | set item => exact container "set" (by decide) notSet
  | map key value => exact container "map" (by decide) notMap

/-! ## Parts of items -/

namespace Yields

variable {tokens : List Token}

private theorem initializer {value : Option Literal}
    (wellFormed : ∀ found, value = some found → IsWellFormedLiteral found)
    (writes : WritesInitializer value tokens) :
    Takes Grammar.initializer.optional value anywhere tokens := by
  cases value with
  | none =>
      obtain rfl := writes
      exact absent
  | some value =>
      obtain ⟨inner, writes, rfl⟩ := writes
      exact present ((mark rfl).bind (yields_literal value (wellFormed value rfl) inner writes))

/-- A type before which a word may stand. -/
theorem typeAfter {Value : Type} {table : List (String × Value)} {found : Option Value}
    {type : TypeRef} (wellFormed : IsWellFormedType type)
    (apart : found = none → ∀ entry ∈ table, firstWord type ≠ entry.1.toList)
    (writes : WritesType type tokens) :
    Takes (Grammar.typeAfter table found) type anywhere tokens :=
  (Yields.type wellFormed writes).only fun _ same => same ▸ apart

end Yields

/-! ## Enumeration items -/

/-- Items are numbered as they are in a document, up to comments. -/
def NumberAs (next : Option Int64) (items : List EnumItem) (written : List WrittenItem) : Prop :=
  ∃ numbered, numberItems next written = .ok numbered ∧
    numbered.map EnumItem.bare = items.map EnumItem.bare

private theorem NumberAs.cons {next : Option Int64} {item : EnumItem} {rest : List EnumItem}
    {found : WrittenItem} {others : List WrittenItem} (named : found.name = item.name)
    (valued : (found.value <|> next) = some item.value)
    (later : NumberAs (nextValue? item.value) rest others) :
    NumberAs next (item :: rest) (found :: others) := by
  obtain ⟨numbered, known, same⟩ := later
  refine ⟨⟨found.name, item.value, found.comments⟩ :: numbered, ?_, ?_⟩
  · rw [numberItems, valued]
    simp only [known]
  · rw [List.map_cons, List.map_cons, same, EnumItem.bare, EnumItem.bare, named]

/-- Items whose values are all written are numbered by these. -/
theorem NumberAs.self (next : Option Int64) (items : List EnumItem) : NumberAs next items
    (items.map fun item => ⟨item.name, some item.value, item.comments⟩) := by
  induction items generalizing next with
  | nil => exact ⟨[], rfl, rfl⟩
  | cons item rest ih => exact .cons rfl rfl (ih _)

/-- A number of an item is a literal with that value. -/
theorem exists_literal {value : Int64} {token : Token} (writes : WritesNumber value token) :
    ∃ literal : Literal, literal.integer? = some value ∧
      Takes Grammar.literal literal anywhere [token] := by
  rcases writes with decimal | ⟨inRange, hexadecimal⟩
  · exact ⟨.int value, rfl, yields_literal (.int value) trivial _ ⟨token, decimal, rfl⟩⟩
  · exact ⟨.hex value, rfl, yields_literal (.hex value) inRange _ ⟨token, hexadecimal, rfl⟩⟩

/-- An item of an enumeration in its tokens is read as it is, with the comments around it. -/
theorem Attributes.enumItem {name : String} (isName : IsName name) {written : Option Literal}
    {value : Option Int64} {tokens separator : List Token}
    (inner : Takes Grammar.initializer.optional written anywhere tokens)
    (known : Grammar.enumValue? written = some value) (isSeparator : IsSeparator separator) :
    Attributes Grammar.enumItem (fun found => found.name = name ∧ found.value = value)
      (fun comments => { name, value, comments }) (name.toList :: (tokens ++ separator)) :=
  .of fun _ => (Yields.name isName).bind <| inner.bind <| (Yields.given known).bind <|
    Yields.ending isSeparator fun _ => ⟨rfl, rfl⟩

/-- **An enumeration item** is yielded by its tokens, whether its value is written or is just the
next one. -/
theorem Attributes.enumItemAfter {item : EnumItem} (isName : IsName item.name) {next : Option Int64}
    {tokens separator : List Token}
    (writes : tokens = [] ∧ next = some item.value ∨
      ∃ token, WritesNumber item.value token ∧ tokens = [['='], token])
    (isSeparator : IsSeparator separator) :
    ∃ value : Option Int64, (value <|> next) = some item.value ∧
      Attributes Grammar.enumItem (fun found => found.name = item.name ∧ found.value = value)
        (fun comments => { name := item.name, value, comments })
        (item.name.toList :: (tokens ++ separator)) := by
  rcases writes with ⟨rfl, isNext⟩ | ⟨token, writes, rfl⟩
  · exact ⟨none, isNext, .enumItem isName Yields.absent rfl isSeparator⟩
  · obtain ⟨literal, integer, inner⟩ := exists_literal writes
    have known : Grammar.enumValue? (some literal) = some (some item.value) := by
      simp [Grammar.enumValue?, integer]
    have written : Takes Grammar.initializer.optional (some literal) anywhere [['='], token] :=
      .present ((Yields.mark rfl).bind inner)
    exact ⟨some item.value, rfl, .enumItem isName written known isSeparator⟩

/-- Enumeration items in sequence are yielded by their tokens. -/
theorem yields_enumItems {items : List EnumItem} (named : ∀ item ∈ items, IsName item.name)
    {next : Option Int64} {tokens : List Token} (writes : WritesEnumItems next items tokens) :
    Yields (Phrase.Repeated Grammar.enumItem) (NumberAs next items) unknown Plain tokens := by
  induction items generalizing next tokens with
  | nil =>
      obtain rfl := writes
      exact (Yields.repeatedNil ⟨[], rfl, rfl⟩).forget
  | cons item rest ih =>
      obtain ⟨value, separator, back, writesValue, isSeparator, writesRest, rfl⟩ := writes
      obtain ⟨value, valued, first⟩ :=
        Attributes.enumItemAfter (named item (by simp)) writesValue isSeparator
      have later := ih (fun other member => named other (by simp [member])) writesRest
      refine .repeatedLoose (starts_plain Grammar.starts_enumItem) first.yields later ?_
      rintro found others ⟨sameName, rfl⟩ areOthers
      exact .cons sameName valued areOthers

/-! ## Fields -/

namespace Yields

variable {tokens : List Token}

private theorem fieldId {id : Option Int64} (writes : WritesFieldId id tokens) :
    Takes Grammar.fieldId.optional id anywhere tokens := by
  cases id with
  | none =>
      obtain rfl := writes
      exact absent
  | some id =>
      obtain ⟨token, writes, rfl⟩ := writes
      exact present ((number writes).bind <| (mark rfl).bind <| .pure rfl)

private theorem qualifier {qualifier : Option Qualifier}
    (writes : WritesQualifier qualifier tokens) :
    Takes Grammar.qualifier.optional qualifier anywhere tokens := by
  cases qualifier with
  | none =>
      obtain rfl := writes
      exact absent
  | some qualifier =>
      obtain rfl := writes
      cases qualifier with
      | required => exact present (words ("required", Qualifier.required) (.head _))
      | optional => exact present (words ("optional", Qualifier.optional) (.tail _ (.head _)))

end Yields

/-- **Fields** are yielded by their tokens. -/
theorem Attributes.field {field : Field} (wellFormed : IsWellFormedField field)
    {tokens : List Token} (writes : WritesField field tokens) :
    Attributes Grammar.field (fun found => found.bare = field.bare)
      (fun comments => { field with comments }) tokens := by
  obtain ⟨id, word, type, value, separator, writesId, writesWord, writesType, writesValue,
    isSeparator, rfl⟩ := writes
  have apart : field.qualifier = none →
      ∀ entry ∈ Grammar.qualifiers, firstWord field.type ≠ entry.1.toList := by
    intro none
    obtain ⟨notRequired, notOptional⟩ := wellFormed.unqualified none
    simp only [Grammar.qualifiers, List.forall_mem_cons, List.not_mem_nil, false_implies,
      implies_true, and_true]
    exact ⟨firstWord_ne wellFormed.type notRequired (by decide),
      firstWord_ne wellFormed.type notOptional (by decide)⟩
  exact .of fun _ => (Yields.fieldId writesId).bind <| (Yields.qualifier writesWord).bind <|
    (Yields.typeAfter wellFormed.type apart writesType).bind <|
    (Yields.name wellFormed.name).bind <| (Yields.initializer wellFormed.value writesValue).bind <|
    Yields.ending isSeparator fun _ => rfl

/-- No field begins with a separator. -/
theorem starts_field_plain : Grammar.field.Starts (Stops isSeparator) := by
  refine Grammar.starts_field.mono fun text starts => ?_
  rcases starts with number | word
  · exact Grammar.stops_isSeparator_of_head rfl rfl number
  · exact Grammar.stops_isSeparator_of_head rfl rfl word

/-- Lists of fields with the same fields up to comments have the same numbers in them. -/
theorem filterMap_id_bare (fields : List Field) :
    (fields.map Field.bare).filterMap Field.id = fields.filterMap Field.id := by
  rw [List.filterMap_map]
  rfl

/-- Well-formed fields have different numbers, so they are allowed whatever the comments. -/
theorem idsAllowed {duplicates : DuplicateIds} {fields found : List Field}
    (wellFormed : AreWellFormedFields fields)
    (same : found.map Field.bare = fields.map Field.bare) :
    Grammar.IdsAllowed duplicates found := by
  intro _
  rw [repeatedId?_eq_none_iff, ← filterMap_id_bare, same, filterMap_id_bare]
  exact wellFormed.ids

/-- Without comments a second time is without comments. -/
@[simp] theorem map_bare_bare (fields : List Field) :
    (fields.map Field.bare).map Field.bare = fields.map Field.bare := by
  rw [List.map_map]
  rfl

/-- Well-formed fields in their tokens are read as they are, up to comments. -/
theorem Yields.fields {fields : List Field} (wellFormed : ∀ field ∈ fields, IsWellFormedField field)
    {tokens : List Token} (writes : WritesEach WritesField fields tokens) :
    Yields (Phrase.Repeated Grammar.field)
      (fun found => found.map Field.bare = fields.map Field.bare) (quietly (fields.map Field.bare))
      Plain tokens := by
  induction fields generalizing tokens with
  | nil =>
      obtain rfl := writes
      have none : ([] : List Field).map Field.bare = [].map Field.bare := rfl
      exact .quiet (repeatedNil none)
  | cons field others ih =>
      obtain ⟨front, back, here, there, rfl⟩ := writes
      have item := (Attributes.field (wellFormed field (by simp)) here).quiet (by
        obtain ⟨id, word, type, value, separator, -, -, -, -, -, rfl⟩ := here
        simp)
      have rest := ih (fun other member => wellFormed other (by simp [member])) there
      exact repeatedCons starts_field_plain item rest
        fun value values first others => by rw [List.map_cons, List.map_cons, first, others]

/-- Fields in parentheses. -/
theorem Yields.fieldList {duplicates : DuplicateIds} {fields : List Field}
    (wellFormed : AreWellFormedFields fields) {tokens : List Token}
    (writes : WritesFieldList fields tokens) :
    Yields (Grammar.fieldList duplicates)
      (fun found => found.map Field.bare = fields.map Field.bare)
      (Pure.pure (fields.map Field.bare)) anywhere tokens := by
  obtain ⟨inner, writes, rfl⟩ := writes
  have rest (found : List Field) (same : found.map Field.bare = fields.map Field.bare) : Yields (do
      Grammar.close ')' rfl
      Grammar.provided (Grammar.IdsAllowed duplicates found)
      return found) (fun found => found.map Field.bare = fields.map Field.bare) (Pure.pure found)
      anywhere [[')']] :=
    (close rfl).bind <| (provided (idsAllowed wellFormed same)).bind <| .pure same
  exact (mark rfl).bind <| (Yields.fields wellFormed.each writes).bindQuiet (map_bare_bare fields)
    Pure.pure rest (fun _ _ _ => plain_cons rfl _ _) (by simp)

/-! ## Functions -/

/-- The word before a function for which the caller does not wait. -/
theorem Yields.oneway (oneway : Bool) : ∃ word : Option Unit, word.isSome = oneway ∧
    Takes (Lexeme.words Grammar.onewayWords Grammar.areWords_oneway).phrase.optional word anywhere
      (if oneway then ["oneway".toList] else []) := by
  cases oneway with
  | false => exact ⟨none, rfl, absent⟩
  | true => exact ⟨some (), rfl, present (words ("oneway", ()) (.head _))⟩

private theorem Yields.throws (duplicates : DuplicateIds) {fields : List Field}
    (wellFormed : AreWellFormedFields fields) {tokens : List Token}
    (writes : tokens = [] ∧ fields = [] ∨
      ∃ inner, WritesFieldList fields inner ∧ tokens = "throws".toList :: inner) :
    ∃ clause : Option (List Field), clause.getD [] = fields.map Field.bare ∧
      Yields (Grammar.throwsClause duplicates).optional
        (fun found => (found.getD []).map Field.bare = fields.map Field.bare) (Pure.pure clause)
        anywhere tokens := by
  rcases writes with ⟨rfl, rfl⟩ | ⟨inner, writes, rfl⟩
  · exact ⟨none, rfl, absent.mono (fun _ none => none ▸ rfl) (fun ends => ends) fun _ met => met⟩
  · have clause : Yields (Grammar.throwsClause duplicates)
        (fun found => found.map Field.bare = fields.map Field.bare)
        (Pure.pure (fields.map Field.bare)) anywhere (["throws".toList] ++ inner) :=
      (keyword _).bind (fieldList wellFormed writes)
    refine ⟨some (fields.map Field.bare), rfl,
      clause.presentGood.mono ?_ (fun ends => ends) fun _ met => met⟩
    rintro _ ⟨found, rfl, same⟩
    exact same

/-- **Functions** are yielded by their tokens. -/
theorem Attributes.function {duplicates : DuplicateIds} {function : Function}
    (wellFormed : IsWellFormedFunction function) {tokens : List Token}
    (writes : WritesFunction function tokens) :
    Attributes (Grammar.function duplicates) (fun found => found.bare = function.bare)
      (fun comments => { function.bare with comments }) tokens := by
  obtain ⟨returns, arguments, throws, separator, writesReturns, writesArguments, writesThrows,
    isSeparator, rfl⟩ := writes
  obtain ⟨word, sameWord, oneway⟩ := Yields.oneway function.oneway
  obtain ⟨clause, sameClause, throws⟩ := Yields.throws duplicates wellFormed.throws writesThrows
  have apart : word = none →
      ∀ entry ∈ Grammar.onewayWords, firstWord function.returns ≠ entry.1.toList := by
    rintro rfl
    simp only [Grammar.onewayWords, List.forall_mem_cons, List.not_mem_nil, false_implies,
      implies_true, and_true]
    exact firstWord_ne wellFormed.returns (wellFormed.waits sameWord.symm) (by decide)
  have attributes : Attributes (Grammar.function duplicates)
      (fun found => found.bare = function.bare) (fun comments =>
        { function.bare with oneway := word.isSome, throws := clause.getD [], comments }) _ :=
    .of fun head => oneway.bind <| (Yields.typeAfter wellFormed.returns apart writesReturns).bind <|
      (Yields.name wellFormed.name).bind <|
      (Yields.fieldList wellFormed.arguments writesArguments).bindGood (map_bare_bare _)
        (fun arguments => tailed fun tail =>
          ({ function with oneway := word.isSome, arguments, throws := clause.getD [],
                           comments := { head, tail } } : Function))
        (fun arguments sameArguments => throws.bindGood (by rw [sameClause, map_bare_bare])
          (fun clause => tailed fun tail =>
            ({ function with oneway := word.isSome, arguments, throws := clause.getD [],
                             comments := { head, tail } } : Function))
          (fun clause sameThrows => Yields.ending isSeparator fun tail => by
            simp only [Function.bare, sameWord, sameArguments, sameThrows])
          fun _ _ _ => trivial) fun _ _ _ => trivial
  rw [sameWord, sameClause] at attributes
  exact attributes

end Layout
end ThriftIdl
