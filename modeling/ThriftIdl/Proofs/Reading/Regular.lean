import ThriftIdl.Proofs.Document
import ThriftIdl.Proofs.Layout.Item
import ThriftIdl.Proofs.Reading.Sequence
import ThriftIdl.Proofs.Syntax.Numbering

/-!
# What holds of every document that is read

The rules let nothing into a document that the notation has no way to write: names are names, paths
are paths, and a value or a type that would be taken for something else when it is written out is
never there. What a phrase lets through is a property of phrases that sequences, options,
repetitions and alternatives pass on (`Phrase.Ensures`), so the grammar is walked once. Main
statement: `parse_regular`.
-/

namespace ThriftIdl

open ThriftIdl.Layout (IsName IsScope ArePath IsPath IsWellFormedType DoesNotBegin firstSegment)
open ThriftIdl.Parser (View isIdentStart isNameChar)

/-! ## Regular documents -/

/-- Whether a constant value is one that can be written: hexadecimal integers are above the least
integer, fractions are numbers, and references are paths that are not spelt as truth values are. -/
inductive Literal.Regular : Literal → Prop
  | int (value : Int64) : Regular (.int value)
  | hex {value : Int64} : -2 ^ 63 < value.toInt → Regular (.hex value)
  | double {value : Number.Binary64} : value.isNaN = false → Regular (.double value)
  | exponent {value : Number.Binary64} : value.isNaN = false → Regular (.exponent value)
  | bool (value : Bool) : Regular (.bool value)
  | str (value : String) : Regular (.str value)
  | list {items : List Literal} : (∀ item ∈ items, Regular item) → Regular (.list items)
  | map {entries : List (Literal × Literal)} : (∀ entry ∈ entries, Regular entry.1) →
      (∀ entry ∈ entries, Regular entry.2) → Regular (.map entries)
  | ref {segments : List String} : ArePath segments → segments.head? ≠ some "true" →
      segments.head? ≠ some "false" → Regular (.ref segments)

/-- Whether a field is one that can be written. A type that begins with the word of a qualifier
needs a qualifier before it. -/
structure Field.Regular (field : Field) : Prop where
  name : IsName field.name
  type : IsWellFormedType field.type
  unqualified : field.qualifier = none →
    DoesNotBegin "required" field.type ∧ DoesNotBegin "optional" field.type
  value : ∀ value, field.defaultValue = some value → value.Regular

/-- Whether a list of fields is one that can be read: no number comes twice, unless such fields are
kept. -/
structure RegularFields (duplicates : DuplicateIds) (fields : List Field) : Prop where
  each : ∀ field ∈ fields, field.Regular
  ids : duplicates = .reject → (fields.filterMap Field.id).Nodup

/-- Whether a function is one that can be read. A type of an answer that begins with the word
`oneway` needs that word before it. -/
structure Function.Regular (duplicates : DuplicateIds) (function : Function) : Prop where
  name : IsName function.name
  returns : IsWellFormedType function.returns
  waits : function.oneway = false → DoesNotBegin "oneway" function.returns
  arguments : RegularFields duplicates function.arguments
  throws : RegularFields duplicates function.throws

/-- Whether a declaration is one that can be read. -/
def Declaration.Regular (duplicates : DuplicateIds) : Declaration → Prop
  | scope declared => IsScope declared.scope ∧ IsPath declared.path
  | inclusion declared => ('"' ∉ declared.path.toList ∨ '\'' ∉ declared.path.toList) ∧
      declared.moduleName = moduleName declared.path ∧
      '/' ∉ declared.moduleName.toList ∧ '\\' ∉ declared.moduleName.toList
  | typedef declared => IsName declared.name ∧ IsWellFormedType declared.type
  | constant declared => IsName declared.name ∧ IsWellFormedType declared.type ∧
      declared.value.Regular
  | enumeration declared => IsName declared.name ∧ ∀ item ∈ declared.items, IsName item.name
  | record _ declared => IsName declared.name ∧ RegularFields duplicates declared.fields
  | service declared => IsName declared.name ∧
      (∀ parent, declared.parent = some parent → IsPath parent) ∧
      (∀ name function, declared.functions.find? name = some function ↔
        function ∈ declared.functions.items ∧ function.name = name) ∧
      ∀ function ∈ declared.functions.items, function.Regular duplicates

namespace Grammar

namespace Phrase

variable {Value First Second : Type}

/-- Phrases of a kind only stand for values that meet a condition. -/
def Ensures (phrase : Phrase Value) (condition : Value → Prop) : Prop :=
  ∀ ⦃before value after⦄, phrase before value after → condition value

namespace Ensures

variable {phrase : Phrase Value} {condition : Value → Prop}

/-- A value alone ensures what it meets. -/
theorem pure {value : Value} (meets : condition value) :
    Ensures (pure value) condition := by
  rintro before found after ⟨rfl, -⟩
  exact meets

private theorem bind {phrase : Phrase First} {next : First → Phrase Second} {between : First → Prop}
    {condition : Second → Prop} (first : Ensures phrase between)
    (second : ∀ value, between value → Ensures (next value) condition) :
    Ensures (phrase >>= next) condition := by
  rintro before value after ⟨found, middle, here, there⟩
  exact second found (first here) there

/-- A part whose value may be any. -/
theorem after {phrase : Phrase First} {next : First → Phrase Second} {condition : Second → Prop}
    (second : ∀ value, Ensures (next value) condition) : Ensures (phrase >>= next) condition := by
  rintro before value after ⟨found, middle, -, there⟩
  exact second found there

private theorem map {phrase : Phrase First} {change : First → Second} {condition : Second → Prop}
    (ensures : Ensures phrase fun value => condition (change value)) :
    Ensures (change <$> phrase) condition := by
  intro before value after here
  obtain ⟨found, read, rfl⟩ := map_iff.mp here
  exact ensures read

private theorem oneOf {phrases : List (Phrase Value)}
    (each : ∀ phrase ∈ phrases, Ensures phrase condition) :
    Ensures (oneOf phrases) condition := by
  rintro before value after ⟨phrase, member, here⟩
  exact each phrase member here

private theorem optional (ensures : Ensures phrase condition) :
    Ensures phrase.optional fun found => ∀ value, found = some value → condition value := by
  rintro before found after here value rfl
  exact ensures here

private theorem repeated (ensures : Ensures phrase condition) :
    Ensures (Repeated phrase) fun values => ∀ value ∈ values, condition value := by
  intro before values after repeated
  induction repeated with
  | done view => simp
  | next here _ ih => exact List.forall_mem_cons.mpr ⟨ensures here, ih⟩

private theorem lexeme {lexeme : Lexeme Value}
    (spelt : ∀ {chars value}, lexeme.spells chars value → condition value) :
    Ensures lexeme.phrase condition := by
  rintro before value after ⟨chars, more, -, spells, -, -⟩
  exact spelt spells

end Ensures

end Phrase

open Phrase

/-! ## Tokens -/

private theorem ensures_name : Ensures name IsName := by
  refine .lexeme fun spelt => ?_
  obtain ⟨⟨first, rest, rfl, begins⟩, passes, rfl⟩ := spelt
  exact ⟨by simpa using begins, by simpa using passes⟩

private theorem ensures_scope : Ensures scope IsScope := by
  refine .lexeme fun spelt => ?_
  obtain ⟨⟨first, rest, rfl, -⟩, passes, rfl⟩ := spelt
  refine ⟨?_, by simpa using passes⟩
  rw [ne_eq, ← String.toList_inj]
  simp

private theorem ensures_path : Ensures path ArePath := by
  refine .lexeme fun spelt => ?_
  obtain ⟨segments, nonempty, identifiers, -, rfl⟩ := spelt
  refine ⟨by simpa using nonempty, fun segment member => ?_⟩
  obtain ⟨chars, inside, rfl⟩ := List.mem_map.mp member
  simpa using identifiers chars inside

/-- Where escapes have no meaning, a closing quote is the first quote of its kind. -/
theorem not_mem_of_throughQuote? {quote : Char} {text raw : List Char}
    (found : Text.throughQuote? quote false text = some raw) : quote ∉ raw := by
  fun_induction Text.throughQuote? quote false text generalizing raw with
  | case1 => cases found
  | case2 rest =>
      cases found
      exact List.not_mem_nil
  | case3 _ _ hides => cases hides
  | case4 _ _ hides => cases hides
  | case5 char rest differs _ ih =>
      obtain ⟨inner, innerFound, rfl⟩ := Option.map_eq_some_iff.mp found
      rw [List.mem_cons, not_or]
      exact ⟨fun same => differs same.symm, ih innerFound⟩

private theorem ensures_includePath :
    Ensures includePath fun path => '"' ∉ path.toList ∨ '\'' ∉ path.toList := by
  refine .lexeme fun spelt => ?_
  obtain ⟨quote, raw, quotes, -, closes, means⟩ := spelt
  cases means
  have free := not_mem_of_throughQuote? closes
  rw [String.toList_ofList]
  simp only [Parser.isQuote, Bool.or_eq_true, beq_iff_eq] at quotes
  rcases quotes with rfl | rfl
  · exact .inl free
  · exact .inr free

/-- No directory is left in a module name. -/
theorem not_isPathSeparator_of_mem_moduleName {path : String} {char : Char}
    (member : char ∈ (moduleName path).toList) : isPathSeparator char = false := by
  have inFile {file : List Char}
      (is : file = (path.toList.reverse.takeWhile fun char => !isPathSeparator char).reverse)
      (member : char ∈ file) : isPathSeparator char = false := by
    rw [is, List.mem_reverse] at member
    simpa using List.mem_takeWhile_imp member
  unfold moduleName at member
  rw [String.toList_ofList] at member
  split at member
  · exact inFile rfl (List.mem_of_mem_take member)
  · exact inFile rfl member

/-! ## Types and literals -/

private theorem ensures_typeWithin (depth : Nat) : Ensures (typeWithin depth) IsWellFormedType := by
  induction depth with
  | zero => exact fun _ _ _ here => here.elim
  | succ depth ih =>
      refine .oneOf (forall_typeForms ?map ?sequence (.map ensures_name))
      case map =>
        exact .after fun _ => .after fun _ => ih.bind fun key isKey => .after fun _ =>
          ih.bind fun value isValue => .after fun _ => .pure ⟨isKey, isValue⟩
      case sequence =>
        have container : Ensures sequenceKeyword fun container =>
            ∀ item, IsWellFormedType item → IsWellFormedType (container item) := by
          refine .lexeme fun spelt => ?_
          obtain ⟨word, member, -⟩ := spelt
          simp only [List.mem_cons, Prod.mk.injEq, List.not_mem_nil, or_false] at member
          rcases member with ⟨-, rfl⟩ | ⟨-, rfl⟩ <;> exact fun _ isItem => isItem
        exact container.bind fun container keeps => .after fun _ => ih.bind fun item isItem =>
          .after fun _ => .pure (keeps item isItem)

private theorem ensures_type : Ensures type IsWellFormedType :=
  fun _ _ _ here => ensures_typeWithin here.choose here.choose_spec

private theorem ensures_hex :
    Ensures Lexeme.hex.phrase fun value => (Literal.hex value).Regular := by
  refine .lexeme fun spelt => ?_
  obtain ⟨sign, marker, digits, magnitude, -, -, -, -, -, bounded, rfl⟩ := spelt
  refine .hex ?_
  have lower : -2 ^ 63 < if sign.isEmpty then (magnitude : Int) else -magnitude := by
    split <;> omega
  have upper : (if sign.isEmpty then (magnitude : Int) else -magnitude) < 2 ^ 63 := by
    split <;> omega
  rwa [Int64.toInt_ofInt_of_le (by omega) (by omega)]

private theorem ensures_exponent :
    Ensures Lexeme.exponent.phrase fun value => (Literal.exponent value).Regular := by
  refine .lexeme fun spelt => ?_
  obtain ⟨_, _, _, _, _, -, -, -, -, -, -, -, -, read⟩ := spelt
  exact .exponent (Number.Binary64.isNaN_of_ofNumeral? read)

private theorem ensures_decimal : Ensures Lexeme.decimal.phrase Literal.Regular := by
  refine .lexeme fun spelt => ?_
  obtain ⟨_, _, -, -, -, -, denotes⟩ := spelt
  unfold Parser.decimalLiteral? at denotes
  split at denotes
  · obtain ⟨number, read, rfl⟩ := Option.map_eq_some_iff.mp denotes
    exact .double (Number.Binary64.isNaN_of_ofNumeral? read)
  · obtain ⟨value, -, rfl⟩ := Option.map_eq_some_iff.mp denotes
    exact .int value

private theorem ensures_boolLiteral : Ensures boolLiteral Literal.Regular := by
  refine .lexeme fun spelt => ?_
  obtain ⟨word, member, -⟩ := spelt
  simp only [List.mem_cons, Prod.mk.injEq, List.not_mem_nil, or_false] at member
  rcases member with ⟨-, rfl⟩ | ⟨-, rfl⟩ <;> exact .bool _

private theorem ensures_stringLiteral : Ensures stringLiteral Literal.Regular := by
  refine .lexeme fun spelt => ?_
  obtain ⟨_, _, -, -, -, means⟩ := spelt
  obtain ⟨chars, -, rfl⟩ := Option.map_eq_some_iff.mp means
  exact .str _

private theorem ensures_refLiteral : Ensures refLiteral Literal.Regular :=
  .map fun _ _ _ here =>
    .ref (ensures_path here.1) (not_or.mp here.2).1 (not_or.mp here.2).2

private theorem ensures_literalWithin (depth : Nat) :
    Ensures (literalWithin depth) Literal.Regular := by
  induction depth with
  | zero => exact fun _ _ _ here => here.elim
  | succ depth ih =>
      have item : Ensures (listItem (literalWithin depth)) Literal.Regular :=
        ih.bind fun _ regular => .after fun _ => .pure regular
      have entry : Ensures (mapEntry (literalWithin depth)) fun entry =>
          entry.1.Regular ∧ entry.2.Regular :=
        ih.bind fun _ key => .after fun _ => ih.bind fun _ value => .after fun _ =>
          .pure ⟨key, value⟩
      refine .oneOf (forall_literalForms (.map ensures_hex) (.map ensures_exponent) ensures_decimal
        ensures_boolLiteral ensures_stringLiteral ?list ?map ensures_refLiteral)
      case list =>
        exact .after fun _ => item.repeated.bind fun _ regular => .after fun _ =>
          .pure (.list regular)
      case map =>
        exact .after fun _ => entry.repeated.bind fun _ regular => .after fun _ =>
          .pure (.map (fun _ member => (regular _ member).1) fun _ member => (regular _ member).2)

/-- **Literals** are regular at every depth of nesting. -/
theorem ensures_literal : Ensures literal Literal.Regular :=
  fun _ _ _ here => ensures_literalWithin here.choose here.choose_spec

/-! ## Items -/

/-- A type whose first word is another than a word does not begin with it. -/
theorem doesNotBegin_of_firstWord_ne {word : String} {type : TypeRef}
    (wellFormed : IsWellFormedType type) (apart : firstWord type ≠ word.toList) :
    DoesNotBegin word type := by
  rintro name rfl same
  refine apart ?_
  rw [firstWord, TypeRef.name, Layout.leadingWord_eq_firstSegment wellFormed.2, same]

private theorem ensures_typeAfter {Value : Type} (table : List (String × Value))
    (found : Option Value) :
    Ensures (typeAfter table found) fun type => IsWellFormedType type ∧
      (found = none → ∀ entry ∈ table, DoesNotBegin entry.1 type) :=
  fun _ _ _ here => ⟨ensures_type here.1, fun absent entry member =>
    doesNotBegin_of_firstWord_ne (ensures_type here.1) (here.2 absent entry member)⟩

private theorem ensures_initializer :
    Ensures initializer.optional fun found => ∀ value, found = some value → value.Regular :=
  .optional (.after fun _ => ensures_literal)

private theorem ensures_field : Ensures field Field.Regular := by
  refine .after fun head => .after fun id => .after fun qualifier =>
    (ensures_typeAfter _ _).bind fun type isType => ensures_name.bind fun name isName =>
    ensures_initializer.bind fun value regular => .after fun _ => .after fun tail => .pure ?_
  obtain ⟨wellFormed, apart⟩ := isType
  refine ⟨isName, wellFormed, fun unqualified => ?_, regular⟩
  have apart := apart unqualified
  exact ⟨apart ("required", .required) (by decide), apart ("optional", .optional) (by decide)⟩

private theorem ensures_provided (condition : Prop) :
    Ensures (provided condition) fun _ => condition :=
  fun _ _ _ here => here.1

private theorem regularFields {duplicates : DuplicateIds} {fields : List Field}
    (each : ∀ field ∈ fields, field.Regular) (allowed : IdsAllowed duplicates fields) :
    RegularFields duplicates fields :=
  ⟨each, fun rejects => (repeatedId?_eq_none_iff fields).mp (allowed rejects)⟩

private theorem ensures_fieldList (duplicates : DuplicateIds) :
    Ensures (fieldList duplicates) (RegularFields duplicates) :=
  .after fun _ => ensures_field.repeated.bind fun _ each => .after fun _ =>
    (ensures_provided _).bind fun _ allowed => .pure (regularFields each allowed)

private theorem ensures_function (duplicates : DuplicateIds) :
    Ensures (function duplicates) (Function.Regular duplicates) := by
  have clause : Ensures (throwsClause duplicates) (RegularFields duplicates) :=
    .after fun _ => ensures_fieldList duplicates
  refine .after fun head => .after fun oneway => (ensures_typeAfter _ _).bind fun type isType =>
    ensures_name.bind fun name isName => (ensures_fieldList duplicates).bind fun fields regular =>
    clause.optional.bind fun throws thrown => .after fun _ => .after fun tail => .pure ?_
  obtain ⟨wellFormed, apart⟩ := isType
  refine ⟨isName, wellFormed, fun waits => ?_, regular, ?_⟩
  · have absent : oneway = none := by simpa using waits
    exact apart absent ("oneway", ()) (by decide)
  · cases throws with
    | none => exact ⟨by simp, by simp⟩
    | some fields => exact thrown fields rfl

/-! ## Declarations -/

private theorem ensures_blockHeader (word : String) (isWord : IsIdentifier word.toList) :
    Ensures (blockHeader word isWord) fun header => IsName header.1 :=
  .after fun _ => ensures_name.bind fun _ isName => .after fun _ => .after fun _ => .pure isName

private theorem ensures_enumItem : Ensures enumItem fun item => IsName item.name :=
  .after fun _ => ensures_name.bind fun _ isName => .after fun _ => .after fun _ => .after fun _ =>
    .after fun _ => .pure isName

private theorem ensures_recordForm (duplicates : DuplicateIds) (kind : RecordKind) :
    Ensures (recordForm duplicates kind) (Declaration.Regular duplicates) :=
  .after fun _ => (ensures_blockHeader _ _).bind fun _ isName =>
    ensures_field.repeated.bind fun _ each => .after fun _ =>
    (ensures_provided _).bind fun _ allowed => .after fun _ => .after fun _ =>
    .pure ⟨isName, regularFields each allowed⟩

private theorem ensures_enumerationForm (duplicates : DuplicateIds) :
    Ensures enumerationForm (Declaration.Regular duplicates) := by
  have numbered (written : List WrittenItem) (each : ∀ item ∈ written, IsName item.name) :
      Ensures (given (numberItems (some 0) written).toOption) fun items =>
        ∀ item ∈ items, IsName item.name := by
    rintro before items after ⟨found, -⟩ item member
    cases result : numberItems (some 0) written with
    | error _ => simp [result, Except.toOption] at found
    | ok numbered =>
        obtain rfl : numbered = items := by simpa [result, Except.toOption] using found
        have named : item.name ∈ written.map WrittenItem.name :=
          names_of_numberItems result ▸ List.mem_map_of_mem member
        obtain ⟨_, inside, same⟩ := List.mem_map.mp named
        exact same ▸ each _ inside
  exact .after fun _ => (ensures_blockHeader _ _).bind fun _ isName =>
    ensures_enumItem.repeated.bind fun written each => .after fun _ => .after fun _ =>
    (numbered written each).bind fun _ names => .after fun _ => .pure ⟨isName, names⟩

private theorem ensures_serviceForm (duplicates : DuplicateIds) :
    Ensures (serviceForm duplicates) (Declaration.Regular duplicates) := by
  have clause : Ensures parentClause ArePath := .after fun _ => ensures_path
  refine .after fun _ => .after fun _ => ensures_name.bind fun _ isName =>
    clause.optional.bind fun parent isParent => .after fun _ => .after fun _ =>
    (ensures_function duplicates).repeated.bind fun functions each => .after fun _ =>
    .after fun _ => .after fun _ => .pure ⟨isName, ?_, ?_, ?_⟩
  · intro path same
    obtain ⟨segments, is, rfl⟩ := Option.map_eq_some_iff.mp same
    exact ⟨segments, isParent segments is, rfl⟩
  · exact fun name function => Keyed.find?_eq_some_iff _
  · exact fun function member => each function (Keyed.mem_of_mem_ofList member)

/-- **Declarations** are regular. -/
theorem ensures_declaration (duplicates : DuplicateIds) :
    Ensures (declaration duplicates) (Declaration.Regular duplicates) := by
  refine .oneOf (forall_declarationForms ?scope ?inclusion ?typedef ?constant
    (ensures_enumerationForm duplicates) (fun _ => ensures_recordForm _ _)
    (ensures_serviceForm duplicates))
  case scope =>
    exact .after fun _ => .after fun _ => ensures_scope.bind fun _ isScope =>
      ensures_path.bind fun segments arePath => .after fun _ => .after fun _ =>
      .pure ⟨isScope, segments, arePath, rfl⟩
  case inclusion =>
    refine .after fun _ => .after fun _ => ensures_includePath.bind fun path isPath =>
      .after fun _ => .after fun _ => .pure ⟨isPath, rfl, fun member => ?_, fun member => ?_⟩
    · exact absurd (not_isPathSeparator_of_mem_moduleName member) (by decide)
    · exact absurd (not_isPathSeparator_of_mem_moduleName member) (by decide)
  case typedef =>
    exact .after fun _ => .after fun _ => ensures_type.bind fun _ isType =>
      ensures_name.bind fun _ isName => .after fun _ => .after fun _ => .pure ⟨isName, isType⟩
  case constant =>
    exact .after fun _ => .after fun _ => ensures_type.bind fun _ isType =>
      ensures_name.bind fun _ isName => .after fun _ => ensures_literal.bind fun _ regular =>
      .after fun _ => .after fun _ => .pure ⟨isName, isType, regular⟩

end Grammar

namespace Parser

variable {options : Options} {source : String} {document : Document}

/-- Whatever is in a document that is read is regular. -/
theorem regular_of_parse (parsed : Document.parse source options = .ok document) :
    ∀ declared ∈ document.toList, declared.Regular options.duplicates := by
  obtain ⟨declared, last, repeated, -, rfl⟩ := parse_eq_ok_iff.mp parsed
  intro declaration member
  exact (Grammar.ensures_declaration options.duplicates).repeated repeated declaration
    (Document.mem_of_mem_toList_ofList member)

/-- **Every document that is read is regular.** All its declarations are, at every depth; under a
kind and a name there is just the declaration of this kind and name; and a kind that is listed has a
declaration. -/
theorem parse_regular (parsed : Document.parse source options = .ok document) :
    (∀ declared ∈ document.toList, declared.Regular options.duplicates) ∧
    (∀ kind name declared, document.find? kind name = some declared ↔
      declared ∈ document.toList ∧ declared.kind = kind ∧ declared.name = name) ∧
    (∀ kind ∈ document.kinds, ∃ name declared, document.find? kind name = some declared) ∧
    ∀ kind names, document.names? kind = some names → names ≠ [] := by
  refine ⟨regular_of_parse parsed, fun kind name declared => document.find?_eq_some_iff,
    fun kind listed => ?_, fun kind names found => ?_⟩
  · have inhabited : document.ofKind kind ≠ [] := by
      simpa [Document.containsKind] using (List.mem_filter.mp listed).2
    obtain ⟨declared, member⟩ := List.exists_mem_of_ne_nil _ inhabited
    refine ⟨declared.name, declared, document.find?_eq_some_iff.mpr ⟨?_, ?_, rfl⟩⟩
    · exact document.mem_toList_iff.mpr (List.mem_of_mem_filter member)
    · exact Document.kind_of_mem_ofKind member
  · unfold Document.names? at found
    split at found
    · cases found
    · next declared inhabited =>
        cases found
        simpa using inhabited

/-- A constant with a nested value, and a service with a function: the document is there, and its
declarations are regular. -/
theorem parse_regular_nested :
    ∃ document,
      Document.parse "const map<i32, x.E> c = {-0x1: [x.y, 2.5]} service S { oneway void f() }" =
        .ok document ∧
      document.kinds = [.constant, .service] ∧
      ∀ declared ∈ document.toList, declared.Regular .reject := by
  let source := "const map<i32, x.E> c = {-0x1: [x.y, 2.5]} service S { oneway void f() }"
  have kinds :
      (Document.parse source).toOption.map Document.kinds = some [.constant, .service] := by
    decide +kernel
  cases parsed : Document.parse source with
  | error error => simp [parsed, Except.toOption] at kinds
  | ok document =>
      exact ⟨document, rfl, by simpa [parsed, Except.toOption] using kinds,
        (parse_regular parsed).1⟩

end Parser
end ThriftIdl
