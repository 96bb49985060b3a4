import Mathlib.Algebra.Order.Ring.Nat
import ThriftIdl.Document
import ThriftIdl.Proofs.Grammar.Lexeme
import ThriftIdl.Proofs.Layout.Text

/-!
# How documents are written

For every part of a document: when it is well formed, and which lists of tokens write it. There is a
choice wherever the notation leaves one: numbers may have leading zeros and either sign of zero,
strings either kind of quotes and escapes or not, separators may be left out, and the value of an
enumeration item may be left out where it is the next one anyway. Comments are not written; what a
document says apart from its comments is its bare form.
-/

namespace ThriftIdl

open ThriftIdl.Parser (isIdentStart isNameChar isScopeChar isQuote)
open ThriftIdl.Grammar (IsIdentifier)

/-! ## Documents without comments -/

/-- A field without its comments. -/
def Field.bare (field : Field) : Field :=
  { field with comments := {} }

/-- An enumeration item without its comments. -/
def EnumItem.bare (item : EnumItem) : EnumItem :=
  { item with comments := {} }

/-- A function without the comments in it. -/
def Function.bare (function : Function) : Function :=
  { function with
    arguments := function.arguments.map Field.bare
    throws := function.throws.map Field.bare
    comments := {} }

/-- A declaration without the comments in it. -/
def Declaration.bare : Declaration → Declaration
  | scope declared => .scope { declared with comments := {} }
  | inclusion declared => .inclusion { declared with comments := {} }
  | typedef declared => .typedef { declared with comments := {} }
  | constant declared => .constant { declared with comments := {} }
  | enumeration declared =>
    .enumeration { declared with items := declared.items.map EnumItem.bare, comments := {} }
  | record kind declared =>
    .record kind { declared with fields := declared.fields.map Field.bare, comments := {} }
  | service declared =>
    .service { declared with
      functions := .ofList (declared.functions.items.map Function.bare)
      comments := {} }

/-- Comments have no part in the key of a declaration. -/
@[simp] theorem Declaration.key_bare (declared : Declaration) :
    declared.bare.key = declared.key := by
  cases declared <;> rfl

namespace Layout

/-! ## Names and paths -/

/-- Whether a text is a name: a letter or an underscore, and then letters, figures, underscores and
dots. -/
def IsName (name : String) : Prop :=
  name.toList.head?.any isIdentStart ∧ name.toList.all isNameChar

/-- Whether a text is the scope of a namespace. -/
def IsScope (scope : String) : Prop :=
  scope ≠ "" ∧ scope.toList.all isScopeChar

/-- Whether segments make a dotted path. -/
def ArePath (segments : List String) : Prop :=
  segments ≠ [] ∧ ∀ segment ∈ segments, IsIdentifier segment.toList

/-- Whether a text is a dotted path. -/
def IsPath (path : String) : Prop :=
  ∃ segments, ArePath segments ∧ path = Parser.dotted segments

/-- A name up to its first dot. -/
def firstSegment (name : String) : String :=
  String.ofList (name.toList.takeWhile (· != '.'))

/-! ## Literals -/

/-- The sign that a number may have. -/
def WritesSign (value : Int) (sign : List Char) : Prop :=
  sign = ['-'] ∧ value ≤ 0 ∨ sign = [] ∧ 0 ≤ value

/-- Decimal numerals of an integer. -/
def WritesInteger (value : Int) (token : Token) : Prop :=
  ∃ sign zeros, (WritesSign value sign ∨ sign = ['+'] ∧ 0 ≤ value) ∧ (∀ char ∈ zeros, char = '0') ∧
    token = sign ++ (zeros ++ Number.decimalDigits value.natAbs)

/-- Hexadecimal figures of a natural number, letters in either case. -/
def WritesHexDigits (value : Nat) (digits : List Char) : Prop :=
  ∃ zeros, (∀ char ∈ zeros, char = '0') ∧
    digits.map Char.toLower = zeros ++ Number.hexDigits value

/-- Hexadecimal numerals of an integer. -/
def WritesHex (value : Int) (token : Token) : Prop :=
  ∃ sign marker digits, WritesSign value sign ∧ (marker = 'x' ∨ marker = 'X') ∧
    WritesHexDigits value.natAbs digits ∧ token = sign ++ '0' :: marker :: digits

/-- The letters that name a control character after a backslash. -/
def escapeLetters : List (Char × Char) :=
  [('n', '\n'), ('r', '\r'), ('t', '\t'), ('0', '\x00'), ('b', '\x08'), ('f', '\x0c'),
    ('v', '\x0b')]

/-- The characters that do not stand for themselves after a backslash. -/
def specialChars : List Char :=
  ['n', 'r', 't', '0', 'b', 'f', 'v', 'x', 'u', '\r', '\n']

/-- The letters that begin a code point of a fixed number of figures after a backslash. -/
def groupLetters : List (Char × Nat) :=
  [('x', 2), ('u', 4)]

/-- What may stand after a backslash for a character. -/
inductive WritesEscape : Char → List Char → Prop
  | letter {letter char : Char} : (letter, char) ∈ escapeLetters → WritesEscape char [letter]
  | itself {char : Char} : char ∉ specialChars → WritesEscape char [char]
  | group {char letter : Char} {digits : List Char} : (letter, digits.length) ∈ groupLetters →
      WritesHexDigits char.toNat digits → WritesEscape char (letter :: digits)
  | braced {char : Char} {digits : List Char} : digits.length ≤ 6 →
      WritesHexDigits char.toNat digits → WritesEscape char ('u' :: '\x7b' :: (digits ++ ['\x7d']))

/-- What may stand between quotes for a text: each character as it is or by an escape. -/
inductive WritesText (quote : Char) : List Char → List Char → Prop
  | nil : WritesText quote [] []
  | plain {char : Char} {text raw : List Char} : char ≠ quote → char ≠ '\\' →
      WritesText quote text raw → WritesText quote (char :: text) (char :: raw)
  | escaped {char : Char} {text escape raw : List Char} : WritesEscape char escape →
      WritesText quote text raw → WritesText quote (char :: text) ('\\' :: (escape ++ raw))

/-- Strings in quotes of either kind. -/
def WritesString (text : String) (token : Token) : Prop :=
  ∃ quote raw, isQuote quote ∧ WritesText quote text.toList raw ∧ token = quote :: (raw ++ [quote])

/-- A comma, a semicolon, or no separator at all. -/
def IsSeparator (tokens : List Token) : Prop :=
  tokens = [] ∨ tokens = [[',']] ∨ tokens = [[';']]

mutual

/-- Whether a literal is well formed: it has no fractions in it, its hexadecimal integers have
magnitudes below `2 ^ 63`, and its references are paths that are not spelt as truth values are. -/
def IsWellFormedLiteral : Literal → Prop
  | .int _ => True
  | .hex value => value.toInt.natAbs < 2 ^ 63
  | .double _ => False
  | .exponent _ => False
  | .bool _ => True
  | .str _ => True
  | .list items => AreWellFormedItems items
  | .map entries => AreWellFormedEntries entries
  | .ref segments =>
    ArePath segments ∧ segments.head? ≠ some "true" ∧ segments.head? ≠ some "false"

/-- Whether all items of a list are well formed. -/
def AreWellFormedItems : List Literal → Prop
  | [] => True
  | item :: rest => IsWellFormedLiteral item ∧ AreWellFormedItems rest

/-- Whether all entries of a map are well formed. -/
def AreWellFormedEntries : List (Literal × Literal) → Prop
  | [] => True
  | (key, value) :: rest =>
    IsWellFormedLiteral key ∧ IsWellFormedLiteral value ∧ AreWellFormedEntries rest

end

mutual

/-- The tokens of a literal. -/
def WritesLiteral : Literal → List Token → Prop
  | .int value, tokens => ∃ token, WritesInteger value.toInt token ∧ tokens = [token]
  | .hex value, tokens => ∃ token, WritesHex value.toInt token ∧ tokens = [token]
  | .double _, _ => False
  | .exponent _, _ => False
  | .bool value, tokens => tokens = [(if value then "true" else "false").toList]
  | .str text, tokens => ∃ token, WritesString text token ∧ tokens = [token]
  | .list items, tokens => ∃ inner, WritesItems items inner ∧ tokens = ['['] :: (inner ++ [[']']])
  | .map entries, tokens =>
    ∃ inner, WritesEntries entries inner ∧ tokens = ['\x7b'] :: (inner ++ [['\x7d']])
  | .ref segments, tokens => tokens = [(Parser.dotted segments).toList]

/-- The tokens of the items of a list, each with the separator after it. -/
def WritesItems : List Literal → List Token → Prop
  | [], tokens => tokens = []
  | item :: rest, tokens => ∃ front separator back, WritesLiteral item front ∧
      IsSeparator separator ∧ WritesItems rest back ∧ tokens = front ++ separator ++ back

/-- The tokens of the entries of a map, each with the separator after it. -/
def WritesEntries : List (Literal × Literal) → List Token → Prop
  | [], tokens => tokens = []
  | (key, value) :: rest, tokens => ∃ front middle separator back, WritesLiteral key front ∧
      WritesLiteral value middle ∧ IsSeparator separator ∧ WritesEntries rest back ∧
      tokens = front ++ ([':'] :: (middle ++ separator)) ++ back

end

/-! ## Types -/

/-- Whether the names in a type are names. -/
def IsWellFormedType : TypeRef → Prop
  | .scalar name => IsName name
  | .list item => IsWellFormedType item
  | .set item => IsWellFormedType item
  | .map key value => IsWellFormedType key ∧ IsWellFormedType value

/-- The tokens of a type. Between the two types of a map there may be a separator. -/
def WritesType : TypeRef → List Token → Prop
  | .scalar name, tokens => tokens = [name.toList]
  | .list item, tokens =>
    ∃ inner, WritesType item inner ∧ tokens = "list".toList :: ['<'] :: (inner ++ [['>']])
  | .set item, tokens =>
    ∃ inner, WritesType item inner ∧ tokens = "set".toList :: ['<'] :: (inner ++ [['>']])
  | .map key value, tokens => ∃ first separator second, WritesType key first ∧
      IsSeparator separator ∧ WritesType value second ∧
      tokens = "map".toList :: ['<'] :: (first ++ (separator ++ (second ++ [['>']])))

/-- Whether a type is not taken for a word when it begins with it. -/
def DoesNotBegin (word : String) (type : TypeRef) : Prop :=
  ∀ name, type = .scalar name → firstSegment name ≠ word

/-! ## Items -/

/-- The tokens of items one after the other. -/
def WritesEach {Item : Type} (writes : Item → List Token → Prop) : List Item → List Token → Prop
  | [], tokens => tokens = []
  | item :: rest, tokens =>
    ∃ front back, writes item front ∧ WritesEach writes rest back ∧ tokens = front ++ back

/-- The tokens of a value after an equals sign, or none when there is no value. -/
def WritesInitializer : Option Literal → List Token → Prop
  | none, tokens => tokens = []
  | some value, tokens => ∃ inner, WritesLiteral value inner ∧ tokens = ['='] :: inner

/-- Numerals of an integer in either base. -/
def WritesNumber (value : Int64) (token : Token) : Prop :=
  WritesInteger value.toInt token ∨ value.toInt.natAbs < 2 ^ 63 ∧ WritesHex value.toInt token

/-- The tokens of the items of an enumeration, given the value that the first of them has if none is
written for it. -/
def WritesEnumItems : Option Int64 → List EnumItem → List Token → Prop
  | _, [], tokens => tokens = []
  | next, item :: rest, tokens => ∃ value separator back,
      (value = [] ∧ next = some item.value ∨
        ∃ token, WritesNumber item.value token ∧ value = [['='], token]) ∧
      IsSeparator separator ∧ WritesEnumItems (nextValue? item.value) rest back ∧
      tokens = item.name.toList :: (value ++ separator) ++ back

/-- Whether a field is well formed. A type that begins with the word of a qualifier needs a
qualifier before it. -/
structure IsWellFormedField (field : Field) : Prop where
  name : IsName field.name
  type : IsWellFormedType field.type
  unqualified : field.qualifier = none →
    DoesNotBegin "required" field.type ∧ DoesNotBegin "optional" field.type
  value : ∀ value, field.defaultValue = some value → IsWellFormedLiteral value

/-- Whether a list of fields is well formed: no number comes twice. -/
structure AreWellFormedFields (fields : List Field) : Prop where
  each : ∀ field ∈ fields, IsWellFormedField field
  ids : (fields.filterMap Field.id).Nodup

/-- The tokens of the number of a field. -/
def WritesFieldId : Option Int64 → List Token → Prop
  | none, tokens => tokens = []
  | some id, tokens => ∃ token, WritesNumber id token ∧ tokens = [token, [':']]

/-- The tokens of the qualifier of a field. -/
def WritesQualifier : Option Qualifier → List Token → Prop
  | none, tokens => tokens = []
  | some qualifier, tokens => tokens = [qualifier.keyword.toList]

/-- The tokens of a field. -/
def WritesField (field : Field) (tokens : List Token) : Prop :=
  ∃ id qualifier type value separator, WritesFieldId field.id id ∧
    WritesQualifier field.qualifier qualifier ∧ WritesType field.type type ∧
    WritesInitializer field.defaultValue value ∧ IsSeparator separator ∧
    tokens = id ++ (qualifier ++ (type ++ (field.name.toList :: (value ++ separator))))

/-- The tokens of a list of fields in parentheses. -/
def WritesFieldList (fields : List Field) (tokens : List Token) : Prop :=
  ∃ inner, WritesEach WritesField fields inner ∧ tokens = ['('] :: (inner ++ [[')']])

/-- Whether a function is well formed. A type of an answer that begins with the word `oneway` needs
that word before it. -/
structure IsWellFormedFunction (function : Function) : Prop where
  name : IsName function.name
  returns : IsWellFormedType function.returns
  waits : function.oneway = false → DoesNotBegin "oneway" function.returns
  arguments : AreWellFormedFields function.arguments
  throws : AreWellFormedFields function.throws

/-- The tokens of a function. An empty list of exceptions may be left out. -/
def WritesFunction (function : Function) (tokens : List Token) : Prop :=
  ∃ returns arguments throws separator, WritesType function.returns returns ∧
    WritesFieldList function.arguments arguments ∧
    (throws = [] ∧ function.throws = [] ∨
      ∃ fields, WritesFieldList function.throws fields ∧ throws = "throws".toList :: fields) ∧
    IsSeparator separator ∧
    tokens = (if function.oneway then ["oneway".toList] else []) ++
      (returns ++ (function.name.toList :: (arguments ++ (throws ++ separator))))

/-! ## Declarations -/

/-- Whether a declaration is well formed. -/
def IsWellFormed : Declaration → Prop
  | .scope declared => IsScope declared.scope ∧ IsPath declared.path
  | .inclusion declared => ('"' ∉ declared.path.toList ∨ '\'' ∉ declared.path.toList) ∧
      declared.moduleName = moduleName declared.path
  | .typedef declared => IsName declared.name ∧ IsWellFormedType declared.type
  | .constant declared => IsName declared.name ∧ IsWellFormedType declared.type ∧
      IsWellFormedLiteral declared.value
  | .enumeration declared => IsName declared.name ∧ ∀ item ∈ declared.items, IsName item.name
  | .record _ declared => IsName declared.name ∧ AreWellFormedFields declared.fields
  | .service declared => IsName declared.name ∧
      (∀ parent, declared.parent = some parent → IsPath parent) ∧
      ∀ function ∈ declared.functions.items, IsWellFormedFunction function

/-- The tokens of a block: its keyword, its name, and what is in it between braces. -/
def block (keyword name : String) (clause inner : List Token) : List Token :=
  keyword.toList :: name.toList :: (clause ++ (['\x7b'] :: (inner ++ [['\x7d']])))

/-- The tokens for the service that a service adds to, or none when there is no such service. -/
def WritesParent : Option String → List Token → Prop
  | none, tokens => tokens = []
  | some parent, tokens => tokens = ["extends".toList, parent.toList]

/-- The tokens of a declaration without the separator after it. -/
def WritesForm : Declaration → List Token → Prop
  | .scope declared, tokens =>
    tokens = ["namespace".toList, declared.scope.toList, declared.path.toList]
  | .inclusion declared, tokens => ∃ quote, isQuote quote ∧ quote ∉ declared.path.toList ∧
      tokens = ["include".toList, quote :: (declared.path.toList ++ [quote])]
  | .typedef declared, tokens => ∃ type, WritesType declared.type type ∧
      tokens = "typedef".toList :: (type ++ [declared.name.toList])
  | .constant declared, tokens => ∃ type value, WritesType declared.type type ∧
      WritesLiteral declared.value value ∧
      tokens = "const".toList :: (type ++ (declared.name.toList :: ['='] :: value))
  | .enumeration declared, tokens => ∃ inner, WritesEnumItems (some 0) declared.items inner ∧
      tokens = block "enum" declared.name [] inner
  | .record kind declared, tokens => ∃ inner, WritesEach WritesField declared.fields inner ∧
      tokens = block kind.keyword declared.name [] inner
  | .service declared, tokens => ∃ clause inner, WritesParent declared.parent clause ∧
      WritesEach WritesFunction declared.functions.items inner ∧
      tokens = block "service" declared.name clause inner

/-- The tokens of a declaration. -/
def WritesDeclaration (declared : Declaration) (tokens : List Token) : Prop :=
  ∃ form separator, WritesForm declared form ∧ IsSeparator separator ∧ tokens = form ++ separator

/-- Whether the declarations of a document are well formed. -/
def IsWellFormedDocument (document : Document) : Prop :=
  ∀ declared ∈ document.toList, IsWellFormed declared

/-- The tokens of a document: its declarations one after the other. Declarations of different kinds
may come in any order. -/
def WritesDocument (document : Document) (tokens : List Token) : Prop :=
  ∃ declared, (∀ kind, declared.filter (fun declaration => declaration.kind = kind) =
    document.ofKind kind) ∧ WritesEach WritesDeclaration declared tokens

end Layout
end ThriftIdl
