import ThriftIdl.Parser.Declaration

/-!
# Rules made of steps and combinators

`Formed` is the smallest class of rules that holds the single steps and is closed under sequencing,
looking at the unread text and the combinators. Every rule of the grammar belongs to it, so what is
proved by induction over `Formed` holds of the whole grammar. `Production` lists the rules of the
grammar by name; main statement: `Production.formed`. What is proved form by form goes through
`forall_typeForms`, `forall_literalForms` and `forall_declarationForms`.
-/

namespace ThriftIdl.Parser

/-- Rules that are made of single steps by the combinators. What such a rule does next depends on
the values it has read and on the unread text, and on nothing else of the state. -/
inductive Formed : {Value : Type} → Rule Value → Prop
  | pure {Value : Type} (value : Value) : Formed (pure value)
  | bind {First Second : Type} {rule : Rule First} {next : First → Rule Second} :
      Formed rule → (∀ value, Formed (next value)) → Formed (rule >>= next)
  | look {Value : Type} (rule : List Char → Rule Value) :
      (∀ text, Formed (rule text)) → Formed fun state => rule state.input.rest state
  | advance (count : Nat) : Formed (advance count)
  | skip : Formed skip
  | missFor {Value : Type} (reason : Reason) : Formed (missFor reason : Rule Value)
  | drainHead : Formed drainHead
  | drainTail : Formed drainTail
  | discardHead : Formed discardHead
  | probe {Value : Type} {rule : Rule Value} : Formed rule → Formed (probe rule)
  | choice {Value : Type} (what : Expectation) {rules : List (Rule Value)} :
      (∀ rule ∈ rules, Formed rule) → Formed (choice what rules)
  | attempt {Value : Type} {rule : Rule Value} : Formed rule → Formed (attempt rule)
  | many {Value : Type} {rule : Rule Value} : Formed rule → Formed (many rule)

/-- The rule for quoted texts, given the unread text. -/
def quotedFrom (escapes : Bool) : List Char → Rule (List Char)
  | quote :: rest =>
    if isQuote quote then
      match Text.throughQuote? quote escapes rest with
      | none => expected .closingQuote
      | some raw => do
        advance (raw.length + 2)
        return raw
    else expected .string
  | [] => expected .string

/-! ## What holds of each form -/

/-- Whatever holds of the forms of a type, one by one, holds of all of them. -/
theorem forall_typeForms {motive : Rule TypeRef → Prop} {inner : Rule TypeRef}
    (map : motive (mapType inner)) (sequence : motive (sequenceType inner))
    (scalar : motive scalarType) : ∀ rule ∈ typeForms inner, motive rule := by
  simp only [typeForms, List.forall_mem_cons, List.not_mem_nil, false_implies, implies_true,
    and_true]
  exact ⟨map, sequence, scalar⟩

/-- Whatever holds of the forms of a literal, one by one, holds of all of them. -/
theorem forall_literalForms {motive : Rule Literal → Prop} {inner : Rule Literal}
    (hex : motive hexLiteral) (exponent : motive exponentLiteral) (decimal : motive decimalNumber)
    (bool : motive boolLiteral) (string : motive stringLiteral) (list : motive (listLiteral inner))
    (map : motive (mapLiteral inner)) (ref : motive refLiteral) :
    ∀ rule ∈ literalForms inner, motive rule := by
  simp only [literalForms, List.forall_mem_cons, List.not_mem_nil, false_implies, implies_true,
    and_true]
  exact ⟨hex, exponent, decimal, bool, string, list, map, ref⟩

/-- Whatever holds of the forms of a declaration, one by one, holds of all of them. -/
theorem forall_declarationForms {motive : Rule Declaration → Prop} {duplicates : DuplicateIds}
    (scope : motive namespaceForm) (inclusion : motive includeForm) (typedef : motive typedefForm)
    (constant : motive constantForm) (enumeration : motive enumerationForm)
    (record : ∀ kind, motive (recordForm duplicates kind))
    (service : motive (serviceForm duplicates)) :
    ∀ rule ∈ declarationForms duplicates, motive rule := by
  simp only [declarationForms, List.forall_mem_cons, List.not_mem_nil, false_implies, implies_true,
    and_true]
  exact ⟨scope, inclusion, typedef, constant, enumeration, record _, record _, record _, service⟩

namespace Formed

variable {Value Result : Type}

private theorem map {rule : Rule Value} (change : Value → Result) (formed : Formed rule) :
    Formed (change <$> rule) :=
  formed.bind fun value => .pure (change value)

/-- A rule may depend on a condition. -/
theorem ite {condition : Prop} [Decidable condition] {first second : Rule Value}
    (left : Formed first) (right : Formed second) :
    Formed (if condition then first else second) := by
  split
  · exact left
  · exact right

/-- A rule may miss because it needs something else. -/
theorem expected (what : Expectation) : Formed (expected what : Rule Value) :=
  .missFor _

/-- A rule may reject what it has read. -/
theorem rejected (why : Rejection) : Formed (rejected why : Rule Value) :=
  .missFor _

/-- A rule may look at the next character. -/
theorem peek : Formed peek :=
  look (fun text => Pure.pure text.head?) fun _ => .pure _

/-- A rule may compare the text with a word. -/
theorem startsWith (word : List Char) : Formed (startsWith word) :=
  look (fun text => Pure.pure (word.isPrefixOf text)) fun _ => .pure _

/-- A rule may read a run of characters. -/
theorem takeWhile (test : Char → Bool) : Formed (takeWhile test) :=
  look (fun text => do
    let run := text.takeWhile test
    Parser.advance run.length
    return run) fun _ => (Formed.advance _).bind fun _ => .pure _

/-! ## Tokens -/

/-- A keyword is compared, passed, and skipped behind. -/
theorem keyword (word : String) : Formed (keyword word) :=
  look (fun text =>
    if startsWithWord word.toList text then do
      Parser.advance word.toList.length
      Parser.skip
    else Parser.expected (.keyword word)) fun _ =>
    ((Formed.advance _).bind fun _ => .skip).ite (expected _)

/-- A mark is a character and the gap behind it. -/
theorem mark (char : Char) : Formed (mark char) :=
  peek.bind fun _ => ((Formed.advance 1).bind fun _ => .skip).ite (expected _)

/-- A closing mark is a mark, before which comments are given up. -/
theorem close (char : Char) : Formed (close char) :=
  discardHead.bind fun _ => mark char

/-- A separator is one of two marks or nothing. -/
theorem separator : Formed separator :=
  peek.bind fun _ => ((Formed.advance 1).bind fun _ => .skip).ite (.pure _)

/-- A name is a run of characters after a first one. -/
theorem name : Formed name :=
  peek.bind fun _ =>
    ((takeWhile _).bind fun _ => Formed.skip.bind fun _ => .pure _).ite (expected _)

/-- A path is a run of segments. -/
theorem path : Formed path :=
  peek.bind fun _ => (look (fun text => do
    let segments := pathSegments text
    Parser.advance (['.'].intercalate segments).length
    Parser.skip
    return segments.map String.ofList) fun _ =>
      (Formed.advance _).bind fun _ => Formed.skip.bind fun _ => .pure _).ite (expected _)

/-! ## Types -/

private theorem mapType {inner : Rule TypeRef} (formed : Formed inner) : Formed (mapType inner) :=
  (keyword _).bind fun _ => (mark _).bind fun _ => formed.bind fun _ => separator.bind fun _ =>
    formed.bind fun _ => (mark _).bind fun _ => .pure _

private theorem sequenceKeyword : Formed sequenceKeyword := by
  refine (keyword "list").probe.bind fun found => ?_
  cases found with
  | some _ => exact .pure _
  | none => exact (keyword "set").bind fun _ => .pure _

private theorem sequenceType {inner : Rule TypeRef} (formed : Formed inner) :
    Formed (sequenceType inner) :=
  sequenceKeyword.bind fun _ => (mark _).bind fun _ => formed.bind fun _ =>
    (mark _).bind fun _ => .pure _

private theorem scalarType : Formed scalarType :=
  name.map _

/-- Each form of a type is formed if the types inside it are. -/
theorem typeForms {inner : Rule TypeRef} (formed : Formed inner) :
    ∀ rule ∈ typeForms inner, Formed rule :=
  forall_typeForms formed.mapType formed.sequenceType scalarType

/-- Types are formed whatever the bound on their nesting, by induction on it. -/
theorem typeWithin (depth : Nat) : Formed (typeWithin depth) := by
  induction depth with
  | zero => exact expected _
  | succ depth inner => exact .choice _ inner.typeForms

/-- Types are formed, their bound being the length of the text. -/
theorem typeRef : Formed typeRef :=
  look (fun text => Parser.typeWithin (text.length + 1)) fun _ => typeWithin _

/-! ## Literals -/

/-- A character that may be left out is looked for and passed. -/
theorem optionalChar (test : Char → Bool) : Formed (optionalChar test) := by
  refine peek.bind fun next => ?_
  cases next with
  | none => exact .pure _
  | some char => exact ((Formed.advance 1).bind fun _ => .pure _).ite (.pure _)

/-- The end of a number is a look at the next character. -/
theorem endOfNumber : Formed endOfNumber :=
  peek.bind fun _ => (expected _).ite .skip

/-- A number in hexadecimal has a sign, a marker and digits. -/
theorem hexNumber : Formed hexNumber := by
  refine (optionalChar _).bind fun _ => (startsWith _).bind fun _ => (startsWith _).bind fun _ =>
    ((Formed.advance 2).bind fun _ => (takeWhile _).bind fun digits => ?_).ite (expected _)
  cases Number.ofDigits? 16 digits with
  | none => exact expected _
  | some magnitude => exact (endOfNumber.bind fun _ => .pure _).ite (rejected _)

/-- A number with an exponent has figures, a marker, and a sign with digits. -/
theorem exponentNumber : Formed exponentNumber := by
  refine (optionalChar _).bind fun sign => (takeWhile _).bind fun mantissa => (expected _).ite <|
    (optionalChar _).bind fun letter => (expected _).ite <| (optionalChar _).bind fun second =>
    (takeWhile _).bind fun digits => (expected _).ite ?_
  cases Number.Binary64.ofNumeral? (sign ++ mantissa ++ letter ++ second ++ digits) with
  | none => exact expected _
  | some number => exact endOfNumber.bind fun _ => .pure _

/-- A decimal number has a sign and figures, out of which its value is made. -/
theorem decimalNumber : Formed decimalNumber := by
  refine (optionalChar _).bind fun sign => (takeWhile _).bind fun body => (expected _).ite ?_
  cases decimalLiteral? (sign ++ body) with
  | none => exact expected _
  | some literal => exact endOfNumber.bind fun _ => .pure _

/-- A decimal integer is a decimal number of which the value is an integer. -/
theorem decimalInteger : Formed decimalInteger := by
  refine decimalNumber.bind fun literal => ?_
  cases literal with
  | int value => exact .pure _
  | _ => exact expected _

private theorem integer : Formed integer := by
  refine .choice _ ?_
  simp only [List.forall_mem_cons, List.not_mem_nil, false_implies, implies_true, and_true]
  exact ⟨hexNumber, decimalInteger⟩

/-- A quoted text is found by looking for the closing quote. -/
theorem quoted (escapes : Bool) : Formed (quoted escapes) := by
  refine look (quotedFrom escapes) fun text => ?_
  cases text with
  | nil => exact expected _
  | cons quote rest =>
      unfold quotedFrom
      refine ite ?_ (expected _)
      cases Text.throughQuote? quote escapes rest with
      | none => exact expected _
      | some raw => exact (Formed.advance _).bind fun _ => .pure _

/-- A truth value is one of two words. -/
theorem boolLiteral : Formed boolLiteral := by
  refine (keyword "true").probe.bind fun found => ?_
  cases found with
  | some _ => exact .pure _
  | none => exact (keyword "false").bind fun _ => .pure _

/-- A string is a quoted text whose escapes can be resolved or are rejected. -/
theorem stringLiteral : Formed stringLiteral := by
  refine (quoted true).bind fun raw => ?_
  cases Text.unescape raw with
  | none => exact rejected _
  | some chars => exact Formed.skip.bind fun _ => .pure _

/-- An item of a list is a literal and a separator. -/
theorem listItem {inner : Rule Literal} (formed : Formed inner) : Formed (listItem inner) :=
  formed.bind fun _ => separator.bind fun _ => .pure _

/-- A list is its items between brackets. -/
theorem listLiteral {inner : Rule Literal} (formed : Formed inner) : Formed (listLiteral inner) :=
  (mark _).bind fun _ => formed.listItem.many.bind fun _ => (close _).bind fun _ => .pure _

/-- An entry of a map is two literals with a colon between them, and a separator. -/
theorem mapEntry {inner : Rule Literal} (formed : Formed inner) : Formed (mapEntry inner) :=
  formed.bind fun _ => (mark _).bind fun _ => formed.bind fun _ => separator.bind fun _ => .pure _

/-- A map is its entries between braces. -/
theorem mapLiteral {inner : Rule Literal} (formed : Formed inner) : Formed (mapLiteral inner) :=
  (mark _).bind fun _ => formed.mapEntry.many.bind fun _ => (close _).bind fun _ => .pure _

/-- A reference is a path. -/
theorem refLiteral : Formed refLiteral :=
  path.map _

/-- Each form of a literal is formed if the literals inside it are. -/
theorem literalForms {inner : Rule Literal} (formed : Formed inner) :
    ∀ rule ∈ literalForms inner, Formed rule :=
  forall_literalForms (hexNumber.map _) (exponentNumber.map _) decimalNumber boolLiteral
    stringLiteral formed.listLiteral formed.mapLiteral refLiteral

/-- Literals are formed whatever the bound on their nesting, by induction on it. -/
theorem literalWithin (depth : Nat) : Formed (literalWithin depth) := by
  induction depth with
  | zero => exact expected _
  | succ depth inner => exact .choice _ inner.literalForms

/-- Literals are formed, their bound being the length of the text. -/
theorem literal : Formed literal :=
  look (fun text => Parser.literalWithin (text.length + 1)) fun _ => literalWithin _

/-- An initial value is an equals sign and a literal, or nothing. -/
theorem assignment : Formed assignment :=
  ((mark _).bind fun _ => literal).attempt

/-- The end of an item or of a declaration: a separator, and the comments behind it. -/
theorem ending (make : Option String → Value) :
    Formed (Parser.separator >>= fun _ => Parser.drainTail >>= fun tail => Pure.pure (make tail)) :=
  separator.bind fun _ => drainTail.bind fun _ => .pure _

/-! ## Items -/

/-- The value of an enumeration item is no value, an integer, or rejected. -/
theorem enumValue (item : String) (written : Option Literal) : Formed (enumValue item written) := by
  unfold Parser.enumValue
  split
  · exact .pure _
  · split
    · exact .pure _
    · exact rejected _

/-- An item of an enumeration is a name, perhaps a value, and comments. -/
theorem enumItem : Formed enumItem :=
  drainHead.bind fun _ => name.bind fun _ => assignment.bind fun _ => (enumValue _ _).bind fun _ =>
    ending _

/-- The number of a field is an integer and a colon. -/
theorem fieldId : Formed fieldId :=
  integer.bind fun _ => (mark _).bind fun _ => .pure _

/-- A qualifier is one of two words. -/
theorem qualifier : Formed qualifier := by
  refine (keyword "required").probe.bind fun found => ?_
  cases found with
  | some _ => exact .pure _
  | none => exact (keyword "optional").bind fun _ => .pure _

/-- A field has a number, a qualifier, a type, a name and a value, some of them optional. -/
theorem field : Formed field :=
  drainHead.bind fun _ => fieldId.attempt.bind fun _ => qualifier.attempt.bind fun _ =>
    typeRef.bind fun _ => name.bind fun _ => assignment.bind fun _ => ending _

/-- A list of fields is rejected if two numbers in it are the same and this is not allowed. -/
theorem checkIds (duplicates : DuplicateIds) (owner : FieldOwner) (fields : List Field) :
    Formed (checkIds duplicates owner fields) := by
  unfold Parser.checkIds
  cases duplicates with
  | keep => exact .pure _
  | reject =>
      cases repeatedId? fields with
      | none => exact .pure _
      | some repeated => exact rejected _

/-- A list of fields stands between parentheses and is checked. -/
theorem fieldList (duplicates : DuplicateIds) : Formed (fieldList duplicates) :=
  (mark _).bind fun _ => field.many.bind fun _ => (close _).bind fun _ =>
    (checkIds _ _ _).bind fun _ => .pure _

/-- Exceptions are a list of fields behind a word. -/
theorem throwsClause (duplicates : DuplicateIds) : Formed (throwsClause duplicates) :=
  (keyword _).bind fun _ => fieldList duplicates

/-- A function has a type, a name, arguments and perhaps exceptions. -/
theorem function (duplicates : DuplicateIds) : Formed (function duplicates) :=
  drainHead.bind fun _ => (keyword _).attempt.bind fun _ => typeRef.bind fun _ =>
    name.bind fun _ => (fieldList _).bind fun _ => (throwsClause _).attempt.bind fun _ =>
    ending _

/-! ## Declarations -/

/-- A scope is a run of characters or a star. -/
theorem namespaceScope : Formed namespaceScope :=
  (takeWhile _).bind fun _ => (expected _).ite (Formed.skip.bind fun _ => .pure _)

/-- A namespace is its keyword, a scope and a name. -/
theorem namespaceForm : Formed namespaceForm :=
  drainHead.bind fun _ => (keyword _).bind fun _ => namespaceScope.bind fun _ =>
    path.bind fun _ => ending _

/-- An include is its keyword and a quoted path. -/
theorem includeForm : Formed includeForm :=
  drainHead.bind fun _ => (keyword _).bind fun _ => (quoted _).bind fun _ =>
    Formed.skip.bind fun _ => ending _

/-- A type definition is its keyword, a type and a name. -/
theorem typedefForm : Formed typedefForm :=
  drainHead.bind fun _ => (keyword _).bind fun _ => typeRef.bind fun _ => name.bind fun _ =>
    ending _

/-- A constant is its keyword, a type, a name and a literal. -/
theorem constantForm : Formed constantForm :=
  drainHead.bind fun _ => (keyword _).bind fun _ => typeRef.bind fun _ => name.bind fun _ =>
    (mark _).bind fun _ => literal.bind fun _ => ending _

/-- A block begins with its keyword, a name, comments and a brace. -/
theorem blockHeader (word : String) : Formed (blockHeader word) :=
  (keyword _).bind fun _ => name.bind fun _ => (mark _).bind fun _ => drainTail.bind fun _ =>
    .pure _

/-- The items of an enumeration are numbered, or one of them is rejected. -/
theorem enumValues (enumeration : String) (written : List WrittenItem) :
    Formed (enumValues enumeration written) := by
  unfold Parser.enumValues
  cases numberItems (some 0) written with
  | ok items => exact .pure _
  | error item => exact rejected _

/-- An enumeration is a block of items. -/
theorem enumerationForm : Formed enumerationForm :=
  drainHead.bind fun _ => (blockHeader _).bind fun _ => enumItem.many.bind fun _ =>
    (close _).bind fun _ => separator.bind fun _ => (enumValues _ _).bind fun _ =>
    drainTail.bind fun _ => .pure _

private theorem recordForm (duplicates : DuplicateIds) (kind : RecordKind) :
    Formed (recordForm duplicates kind) :=
  drainHead.bind fun _ => (blockHeader _).bind fun _ => field.many.bind fun _ =>
    (close _).bind fun _ => (checkIds _ _ _).bind fun _ => ending _

/-- The parent of a service is a path behind a word. -/
theorem parentClause : Formed parentClause :=
  (keyword _).bind fun _ => path

private theorem serviceForm (duplicates : DuplicateIds) : Formed (serviceForm duplicates) :=
  drainHead.bind fun _ => (keyword _).bind fun _ => name.bind fun _ =>
    parentClause.attempt.bind fun _ => (mark _).bind fun _ => drainTail.bind fun _ =>
    (function _).many.bind fun _ => (close _).bind fun _ => ending _

/-- Every form of a declaration is formed. -/
theorem declarationForms (duplicates : DuplicateIds) :
    ∀ rule ∈ declarationForms duplicates, Formed rule :=
  forall_declarationForms namespaceForm includeForm typedefForm constantForm enumerationForm
    (recordForm _) (serviceForm _)

/-- A declaration is one of its forms, tried one after the other. -/
theorem declaration (duplicates : DuplicateIds) : Formed (declaration duplicates) :=
  .choice _ (declarationForms duplicates)

end Formed

/-- The rules of the grammar by name, each with the type of what it reads. -/
inductive Production : Type → Type
  | keyword (word : String) : Production Unit
  | mark (char : Char) : Production Unit
  | close (char : Char) : Production Unit
  | separator : Production Unit
  | name : Production String
  | path : Production (List String)
  | mapType (depth : Nat) : Production TypeRef
  | sequenceKeyword : Production (TypeRef → TypeRef)
  | sequenceType (depth : Nat) : Production TypeRef
  | scalarType : Production TypeRef
  | typeRef : Production TypeRef
  | optionalChar (test : Char → Bool) : Production (List Char)
  | endOfNumber : Production Unit
  | hexNumber : Production Int64
  | exponentNumber : Production Number.Binary64
  | decimalNumber : Production Literal
  | decimalInteger : Production Int64
  | integer : Production Int64
  | quoted (escapes : Bool) : Production (List Char)
  | hexLiteral : Production Literal
  | exponentLiteral : Production Literal
  | boolLiteral : Production Literal
  | stringLiteral : Production Literal
  | listItem (depth : Nat) : Production Literal
  | listLiteral (depth : Nat) : Production Literal
  | mapEntry (depth : Nat) : Production (Literal × Literal)
  | mapLiteral (depth : Nat) : Production Literal
  | refLiteral : Production Literal
  | literal : Production Literal
  | assignment : Production (Option Literal)
  | enumValue (item : String) (written : Option Literal) : Production (Option Int64)
  | enumItem : Production WrittenItem
  | fieldId : Production Int64
  | qualifier : Production Qualifier
  | field : Production Field
  | checkIds (duplicates : DuplicateIds) (owner : FieldOwner) (fields : List Field) :
      Production Unit
  | fieldList (duplicates : DuplicateIds) : Production (List Field)
  | throwsClause (duplicates : DuplicateIds) : Production (List Field)
  | function (duplicates : DuplicateIds) : Production Function
  | namespaceScope : Production String
  | namespaceForm : Production Declaration
  | includeForm : Production Declaration
  | typedefForm : Production Declaration
  | constantForm : Production Declaration
  | blockHeader (word : String) : Production (String × Option String)
  | enumValues (enumeration : String) (written : List WrittenItem) : Production (List EnumItem)
  | enumerationForm : Production Declaration
  | recordForm (duplicates : DuplicateIds) (kind : RecordKind) : Production Declaration
  | parentClause : Production (List String)
  | serviceForm (duplicates : DuplicateIds) : Production Declaration
  | declaration (duplicates : DuplicateIds) : Production Declaration

namespace Production

/-- The rule of a production. Rules for what is inside a container are bounded in their depth. -/
def rule : {Value : Type} → Production Value → Rule Value
  | _, keyword word => Parser.keyword word
  | _, mark char => Parser.mark char
  | _, close char => Parser.close char
  | _, separator => Parser.separator
  | _, name => Parser.name
  | _, path => Parser.path
  | _, mapType depth => Parser.mapType (typeWithin depth)
  | _, sequenceKeyword => Parser.sequenceKeyword
  | _, sequenceType depth => Parser.sequenceType (typeWithin depth)
  | _, scalarType => Parser.scalarType
  | _, typeRef => Parser.typeRef
  | _, optionalChar test => Parser.optionalChar test
  | _, endOfNumber => Parser.endOfNumber
  | _, hexNumber => Parser.hexNumber
  | _, exponentNumber => Parser.exponentNumber
  | _, decimalNumber => Parser.decimalNumber
  | _, decimalInteger => Parser.decimalInteger
  | _, integer => Parser.integer
  | _, quoted escapes => Parser.quoted escapes
  | _, hexLiteral => Parser.hexLiteral
  | _, exponentLiteral => Parser.exponentLiteral
  | _, boolLiteral => Parser.boolLiteral
  | _, stringLiteral => Parser.stringLiteral
  | _, listItem depth => Parser.listItem (literalWithin depth)
  | _, listLiteral depth => Parser.listLiteral (literalWithin depth)
  | _, mapEntry depth => Parser.mapEntry (literalWithin depth)
  | _, mapLiteral depth => Parser.mapLiteral (literalWithin depth)
  | _, refLiteral => Parser.refLiteral
  | _, literal => Parser.literal
  | _, assignment => Parser.assignment
  | _, enumValue item written => Parser.enumValue item written
  | _, enumItem => Parser.enumItem
  | _, fieldId => Parser.fieldId
  | _, qualifier => Parser.qualifier
  | _, field => Parser.field
  | _, checkIds duplicates owner fields => Parser.checkIds duplicates owner fields
  | _, fieldList duplicates => Parser.fieldList duplicates
  | _, throwsClause duplicates => Parser.throwsClause duplicates
  | _, function duplicates => Parser.function duplicates
  | _, namespaceScope => Parser.namespaceScope
  | _, namespaceForm => Parser.namespaceForm
  | _, includeForm => Parser.includeForm
  | _, typedefForm => Parser.typedefForm
  | _, constantForm => Parser.constantForm
  | _, blockHeader word => Parser.blockHeader word
  | _, enumValues enumeration written => Parser.enumValues enumeration written
  | _, enumerationForm => Parser.enumerationForm
  | _, recordForm duplicates kind => Parser.recordForm duplicates kind
  | _, parentClause => Parser.parentClause
  | _, serviceForm duplicates => Parser.serviceForm duplicates
  | _, declaration duplicates => Parser.declaration duplicates

/-- Every rule of the grammar is made of steps and combinators. -/
theorem formed {Value : Type} (production : Production Value) : Formed production.rule := by
  cases production with
  | keyword word => exact .keyword word
  | mark char => exact .mark char
  | close char => exact .close char
  | separator => exact .separator
  | name => exact .name
  | path => exact .path
  | mapType depth => exact (Formed.typeWithin depth).mapType
  | sequenceKeyword => exact .sequenceKeyword
  | sequenceType depth => exact (Formed.typeWithin depth).sequenceType
  | scalarType => exact .scalarType
  | typeRef => exact .typeRef
  | optionalChar test => exact .optionalChar test
  | endOfNumber => exact .endOfNumber
  | hexNumber => exact .hexNumber
  | exponentNumber => exact .exponentNumber
  | decimalNumber => exact .decimalNumber
  | decimalInteger => exact .decimalInteger
  | integer => exact .integer
  | quoted escapes => exact .quoted escapes
  | hexLiteral => exact Formed.hexNumber.map _
  | exponentLiteral => exact Formed.exponentNumber.map _
  | boolLiteral => exact .boolLiteral
  | stringLiteral => exact .stringLiteral
  | listItem depth => exact (Formed.literalWithin depth).listItem
  | listLiteral depth => exact (Formed.literalWithin depth).listLiteral
  | mapEntry depth => exact (Formed.literalWithin depth).mapEntry
  | mapLiteral depth => exact (Formed.literalWithin depth).mapLiteral
  | refLiteral => exact .refLiteral
  | literal => exact .literal
  | assignment => exact .assignment
  | enumValue item written => exact .enumValue item written
  | enumItem => exact .enumItem
  | fieldId => exact .fieldId
  | qualifier => exact .qualifier
  | field => exact .field
  | checkIds duplicates owner fields => exact .checkIds duplicates owner fields
  | fieldList duplicates => exact .fieldList duplicates
  | throwsClause duplicates => exact .throwsClause duplicates
  | function duplicates => exact .function duplicates
  | namespaceScope => exact .namespaceScope
  | namespaceForm => exact .namespaceForm
  | includeForm => exact .includeForm
  | typedefForm => exact .typedefForm
  | constantForm => exact .constantForm
  | blockHeader word => exact .blockHeader word
  | enumValues enumeration written => exact .enumValues enumeration written
  | enumerationForm => exact .enumerationForm
  | recordForm duplicates kind => exact .recordForm duplicates kind
  | parentClause => exact .parentClause
  | serviceForm duplicates => exact .serviceForm duplicates
  | declaration duplicates => exact .declaration duplicates

end Production
end ThriftIdl.Parser
