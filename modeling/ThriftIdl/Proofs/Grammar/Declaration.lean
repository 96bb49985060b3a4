import ThriftIdl.Proofs.Grammar.Item

/-!
# The grammar of declarations

Each of the nine forms of a declaration begins with its own keyword, so at most one of them can
match and their order makes no difference. The rule for declarations reads exactly the declaration
phrases (`agrees_declaration`), whatever follows.
-/

namespace ThriftIdl

open Source (Stops opensGap)
open ThriftIdl.Parser (View Rule Formed reads isIdentStart isIdentChar isSeparator dotted)

/-! ## Enumerations up to their values -/

namespace Parser

/-- The comments before an enumeration, its name with the comments behind the opening brace, and its
items as they are written. -/
abbrev EnumStart : Type :=
  Option String × (String × Option String) × List WrittenItem

/-- An enumeration up to the values of its items. -/
def enumStart : Rule EnumStart := do
  let head ← drainHead
  let header ← blockHeader "enum"
  let written ← many enumItem
  close '\x7d'
  separator
  return (head, header, written)

/-- An enumeration of which the values of the items are left to find. -/
def enumEnd (start : EnumStart) : Rule Declaration := do
  let items ← enumValues start.2.1.1 start.2.2
  let tail ← drainTail
  return .enumeration
    { name := start.2.1.1, items
      comments := { head := start.1, tail := Comment.append? start.2.1.2 tail } }

/-- An enumeration falls into its part before the items and the rest. -/
theorem enumerationForm_eq : enumerationForm = enumStart >>= enumEnd := by
  simp only [enumerationForm, enumStart, enumEnd, bind_assoc, pure_bind]

end Parser

namespace Grammar

open Phrase

/-- A scope with the gap after it. -/
abbrev scope : Phrase String :=
  Lexeme.scope.phrase

/-- The path of an included file. Escapes have no meaning in it. -/
def includePath : Phrase String :=
  (Lexeme.quoted false fun raw => some (String.ofList raw)).phrase

/-- A namespace. -/
def namespaceForm : Phrase Declaration := do
  let head ← drainHead
  keyword "namespace" (by decide)
  let scope ← scope
  let segments ← path
  separator
  let tail ← drainTail
  return .scope { scope, path := dotted segments, comments := { head, tail } }

/-- The inclusion of another file. -/
def includeForm : Phrase Declaration := do
  let head ← drainHead
  keyword "include" (by decide)
  let path ← includePath
  separator
  let tail ← drainTail
  return .inclusion { path, moduleName := moduleName path, comments := { head, tail } }

/-- A type definition. -/
def typedefForm : Phrase Declaration := do
  let head ← drainHead
  keyword "typedef" (by decide)
  let type ← type
  let name ← name
  separator
  let tail ← drainTail
  return .typedef { type, name, comments := { head, tail } }

/-- A constant. -/
def constantForm : Phrase Declaration := do
  let head ← drainHead
  keyword "const" (by decide)
  let type ← type
  let name ← name
  mark '=' plain_equals
  let value ← literal
  separator
  let tail ← drainTail
  return .constant { type, name, value, comments := { head, tail } }

/-- The keyword, the name and the opening brace of a block, with the comments after the brace. -/
def blockHeader (word : String) (isWord : IsIdentifier word.toList) :
    Phrase (String × Option String) := do
  keyword word isWord
  let name ← name
  mark '\x7b' plain_leftBrace
  let tail ← drainTail
  return (name, tail)

/-- An enumeration. -/
def enumerationForm : Phrase Declaration := do
  let head ← drainHead
  let (name, headerTail) ← blockHeader "enum" (by decide)
  let written ← Repeated enumItem
  close '\x7d' plain_rightBrace
  separator
  let items ← given (numberItems (some 0) written).toOption
  let tail ← drainTail
  return .enumeration
    { name, items, comments := { head, tail := Comment.append? headerTail tail } }

/-- An enumeration up to the values of its items. -/
def enumStart : Phrase Parser.EnumStart := do
  let head ← drainHead
  let header ← blockHeader "enum" (by decide)
  let written ← Repeated enumItem
  close '\x7d' plain_rightBrace
  separator
  return (head, header, written)

/-- An enumeration of which the values of the items are left to find. -/
def enumEnd (start : Parser.EnumStart) : Phrase Declaration := do
  let items ← given (numberItems (some 0) start.2.2).toOption
  let tail ← drainTail
  return .enumeration
    { name := start.2.1.1, items
      comments := { head := start.1, tail := Comment.append? start.2.1.2 tail } }

private theorem enumerationForm_eq : enumerationForm = enumStart >>= enumEnd := by
  funext before value after
  apply propext
  constructor
  · rintro ⟨_, _, head, _, _, header, _, _, items, _, _, brace, _, _, ends, last⟩
    exact ⟨_, _, ⟨_, _, head, _, _, header, _, _, items, _, _, brace, _, _, ends, rfl, rfl⟩, last⟩
  · rintro ⟨_, _, ⟨_, _, head, _, _, header, _, _, items, _, _, brace, _, _, ends, rfl, rfl⟩, last⟩
    exact ⟨_, _, head, _, _, header, _, _, items, _, _, brace, _, _, ends, last⟩

/-- The keyword of a record is an identifier. -/
theorem isIdentifier_keyword (kind : RecordKind) : IsIdentifier kind.keyword.toList := by
  cases kind <;> decide

/-- A structure, a union or an exception. -/
def recordForm (duplicates : DuplicateIds) (kind : RecordKind) : Phrase Declaration := do
  let head ← drainHead
  let (name, headerTail) ← blockHeader kind.keyword (isIdentifier_keyword kind)
  let fields ← Repeated field
  close '\x7d' plain_rightBrace
  provided (IdsAllowed duplicates fields)
  separator
  let tail ← drainTail
  return .record kind
    { name, fields, comments := { head, tail := Comment.append? headerTail tail } }

/-- The service that a service adds to. -/
def parentClause : Phrase (List String) := do
  keyword "extends" (by decide)
  path

/-- A service. -/
def serviceForm (duplicates : DuplicateIds) : Phrase Declaration := do
  let head ← drainHead
  keyword "service" (by decide)
  let name ← name
  let parent ← parentClause.optional
  mark '\x7b' plain_leftBrace
  let headerTail ← drainTail
  let functions ← Repeated (function duplicates)
  close '\x7d' plain_rightBrace
  separator
  let tail ← drainTail
  return .service
    { name, parent := parent.map dotted, functions := .ofList functions
      comments := { head, tail := Comment.append? headerTail tail } }

/-- The forms of a declaration. -/
def declarationForms (duplicates : DuplicateIds) : List (Phrase Declaration) :=
  [namespaceForm, includeForm, typedefForm, constantForm, enumerationForm,
    recordForm duplicates .struct, recordForm duplicates .union,
    recordForm duplicates .exception, serviceForm duplicates]

/-- Whatever holds of the forms of a declaration, one by one, holds of all of them. -/
theorem forall_declarationForms {motive : Phrase Declaration → Prop} {duplicates : DuplicateIds}
    (scope : motive namespaceForm) (inclusion : motive includeForm) (typedef : motive typedefForm)
    (constant : motive constantForm) (enumeration : motive enumerationForm)
    (record : ∀ kind, motive (recordForm duplicates kind))
    (service : motive (serviceForm duplicates)) :
    ∀ form ∈ declarationForms duplicates, motive form := by
  simp only [declarationForms, List.forall_mem_cons, List.not_mem_nil, false_implies, implies_true,
    and_true]
  exact ⟨scope, inclusion, typedef, constant, enumeration, record _, record _, record _, service⟩

/-- A top-level declaration. -/
def declaration (duplicates : DuplicateIds) : Phrase Declaration :=
  oneOf (declarationForms duplicates)

private theorem narrows_ending {Value : Type} (make : Option String → Value) :
    Narrows (do
      separator
      let tail ← drainTail
      return make tail) :=
  narrows_separator.bind fun _ => Narrows.drainTail.bind fun _ => .pure _

/-- The header of a block uses up its word. -/
theorem advances_blockHeader (word : String) (isWord : IsIdentifier word.toList) :
    (blockHeader word isWord).Advances :=
  (Lexeme.advances_phrase _).bind fun _ => (Lexeme.narrows_phrase _).bind fun _ =>
    (Lexeme.narrows_phrase _).bind fun _ => Narrows.drainTail.bind fun _ => .pure _

/-- Every form of a declaration uses up its keyword. -/
theorem advances_declarationForms (duplicates : DuplicateIds) :
    ∀ form ∈ declarationForms duplicates, form.Advances := by
  have headed {Value : Type} {next : Option String → Phrase Value}
      (advances : ∀ head, (next head).Advances) : (drainHead >>= next).Advances :=
    .after .drainHead advances
  have token {Value : Type} (lexeme : Lexeme Value) := lexeme.advances_phrase
  have inside {Value : Type} (lexeme : Lexeme Value) := lexeme.narrows_phrase
  have record (kind : RecordKind) : (recordForm duplicates kind).Advances :=
    headed fun _ => (advances_blockHeader _ _).bind fun _ => advances_field.narrows.repeated.bind
      fun _ => advances_close.narrows.bind fun _ => (narrows_provided _).bind fun _ =>
      narrows_ending _
  refine forall_declarationForms ?scope ?inclusion ?typedef ?constant ?enumeration record ?service
  case scope =>
    exact headed fun _ => (token _).bind fun _ => (inside _).bind fun _ => (inside _).bind fun _ =>
      narrows_ending _
  case inclusion =>
    exact headed fun _ => (token _).bind fun _ => (inside _).bind fun _ => narrows_ending _
  case typedef =>
    exact headed fun _ => (token _).bind fun _ => advances_type.narrows.bind fun _ =>
      (inside _).bind fun _ => narrows_ending _
  case constant =>
    exact headed fun _ => (token _).bind fun _ => advances_type.narrows.bind fun _ =>
      (inside _).bind fun _ => (inside _).bind fun _ => advances_literal.narrows.bind fun _ =>
      narrows_ending _
  case enumeration =>
    exact headed fun _ => (advances_blockHeader _ _).bind fun _ =>
      advances_enumItem.narrows.repeated.bind fun _ => advances_close.narrows.bind fun _ =>
      narrows_separator.bind fun _ => (narrows_given _).bind fun _ =>
      Narrows.drainTail.bind fun _ => .pure _
  case service =>
    exact headed fun _ => (token _).bind fun _ => (inside _).bind fun _ =>
      ((inside _).bind fun _ => inside _).optional.bind fun _ => (inside _).bind fun _ =>
      Narrows.drainTail.bind fun _ => (advances_function _).narrows.repeated.bind fun _ =>
      advances_close.narrows.bind fun _ => narrows_ending _

/-- A declaration uses up part of the text. -/
theorem advances_declaration (duplicates : DuplicateIds) : (declaration duplicates).Advances :=
  Advances.oneOf (advances_declarationForms duplicates)

/-! ## Agreement with the rules -/

/-- A path of an included file and what comes after it. -/
theorem agrees_includePath {next : String → Rule Declaration} {later : String → Phrase Declaration}
    (rest : ∀ path, Agrees (next path) (later path) anything) :
    Agrees (do
      let raw ← Parser.quoted false
      Parser.skip
      next (String.ofList raw)) (includePath >>= later) anything := by
  have formed (raw : List Char) : Formed (do Parser.skip; next (String.ofList raw)) :=
    Formed.skip.bind fun _ => (rest _).formed
  refine ⟨(Formed.quoted false).bind formed, fun {before value after} _ => ?_⟩
  rw [Parser.reads_bind _ _ (.quoted false) formed, Option.bind_eq_some_iff, bind_iff]
  constructor
  · rintro ⟨⟨raw, middle⟩, here, there⟩
    obtain ⟨quote, more, quotes, text, closes, rfl⟩ := reads_quoted_iff.mp here
    rw [Parser.reads_bind _ _ .skip fun _ => (rest _).formed, Parser.reads_skip,
      Option.bind_some, (rest _).always] at there
    exact ⟨String.ofList raw, _, ⟨quote :: (raw ++ [quote]), more, by simp [text],
      ⟨quote, raw, quotes, rfl, closes, rfl⟩, rfl, rfl⟩, there⟩
  · rintro ⟨path, middle, ⟨_, more, text, ⟨quote, raw, quotes, rfl, closes, same⟩, -, rfl⟩, there⟩
    cases same
    refine ⟨(raw, { before with rest := more }),
      reads_quoted_iff.mpr ⟨quote, more, quotes, by simp [text], closes, rfl⟩, ?_⟩
    rw [Parser.reads_bind _ _ .skip fun _ => (rest _).formed, Parser.reads_skip,
      Option.bind_some, (rest _).always]
    exact there

/-- Namespaces are read as the grammar has them. -/
theorem agrees_namespaceForm : Agrees Parser.namespaceForm namespaceForm anything :=
  Agrees.drainHead.bind fun _ => (agrees_keyword _).bind fun _ => agrees_scope.bind fun _ =>
    agrees_path.bind fun _ => agrees_separator.bind fun _ => Agrees.drainTail.bind fun _ => .pure _

/-- Includes are read as the grammar has them: the module name is taken from the path. -/
theorem agrees_includeForm : Agrees Parser.includeForm includeForm anything := by
  have ending (head : Option String) (path : String) :
      Agrees (do
        Parser.separator
        let tail ← Parser.drainTail
        return Declaration.inclusion
          { path, moduleName := moduleName path, comments := { head, tail } }) (do
        separator
        let tail ← drainTail
        return Declaration.inclusion
          { path, moduleName := moduleName path, comments := { head, tail } }) anything :=
    agrees_separator.bind fun _ => Agrees.drainTail.bind fun _ => .pure _
  exact Agrees.drainHead.bind fun head => (agrees_keyword _).bind fun _ =>
    agrees_includePath (ending head)

/-- A type and then what begins with a name. -/
theorem agrees_typeThenName {Value : Type} {next : TypeRef → String → Rule Value}
    {later : TypeRef → String → Phrase Value} {follow : Value → View → Prop}
    (rest : ∀ type name, Agrees (next type name) (later type name) follow) :
    Agrees (Parser.typeRef >>= fun type => Parser.name >>= next type)
      (type >>= fun type => name >>= later type) follow :=
  agrees_type.bindFollow (fun type => agrees_name.bind (rest type)) fun there _ =>
    noBracket_of_isIdentStart ((Starts.bind starts_name) there)

/-- Type definitions are read as the grammar has them. -/
theorem agrees_typedefForm : Agrees Parser.typedefForm typedefForm anything :=
  Agrees.drainHead.bind fun _ => (agrees_keyword _).bind fun _ => agrees_typeThenName fun _ _ =>
    agrees_separator.bind fun _ => Agrees.drainTail.bind fun _ => .pure _

/-- Constants are read as the grammar has them. -/
theorem agrees_constantForm : Agrees Parser.constantForm constantForm anything :=
  Agrees.drainHead.bind fun _ => (agrees_keyword _).bind fun _ => agrees_typeThenName fun _ _ =>
    (agrees_mark _).bind fun _ => agrees_literal.bind fun _ => agrees_separator.bind fun _ =>
    Agrees.drainTail.bind fun _ => .pure _

/-- The word, the name and the opening brace of a block are read as the grammar has them. -/
theorem agrees_blockHeader {word : String} (isWord : IsIdentifier word.toList) :
    Agrees (Parser.blockHeader word) (blockHeader word isWord) anything :=
  (agrees_keyword _).bind fun _ => agrees_name.bind fun _ => (agrees_mark _).bind fun _ =>
    Agrees.drainTail.bind fun _ => .pure _

private theorem agrees_enumValues (enumeration : String) (written : List WrittenItem) :
    Agrees (Parser.enumValues enumeration written) (given (numberItems (some 0) written).toOption)
      anything := by
  refine ⟨.enumValues enumeration written, fun {before value after} _ => ?_⟩
  unfold Parser.enumValues given
  cases numberItems (some 0) written with
  | ok items => simp [Except.toOption, eq_comm]
  | error item => simp [Except.toOption]

/-- What comes before the items of an enumeration is read as the grammar has it. -/
theorem agrees_enumStart : Agrees Parser.enumStart enumStart anything := by
  refine Agrees.drainHead.bind fun head => (agrees_blockHeader _).bind fun header =>
    (agrees_enumItem.many advances_enumItem ?_).bindFollow (fun written =>
      (agrees_close _).bind fun _ => agrees_separator.bind fun _ => .pure _) ?_
  · intro before value after here
    exact noEquals_of_startsField (.inr (starts_enumItem here))
  · intro written before found after there _
    obtain ⟨rest, same⟩ := List.head?_eq_some_iff.mp ((Starts.bind starts_close) there)
    rw [same]
    exact ⟨rfl, missed_enumItem (by rw [same]; rfl)⟩

/-- The items of an enumeration and what follows them are read as the grammar has them. -/
theorem agrees_enumEnd (start : Parser.EnumStart) :
    Agrees (Parser.enumEnd start) (enumEnd start) anything :=
  (agrees_enumValues _ _).bind fun _ => Agrees.drainTail.bind fun _ => .pure _

/-- Enumerations are read as the grammar has them. -/
theorem agrees_enumerationForm : Agrees Parser.enumerationForm enumerationForm anything := by
  rw [Parser.enumerationForm_eq, enumerationForm_eq]
  exact agrees_enumStart.bind agrees_enumEnd

/-- Structures, unions and exceptions are read as the grammar has them. -/
theorem agrees_recordForm (duplicates : DuplicateIds) (kind : RecordKind) :
    Agrees (Parser.recordForm duplicates kind) (recordForm duplicates kind) anything := by
  refine Agrees.drainHead.bind fun head => (agrees_blockHeader _).bind fun header =>
    agrees_fields.bindFollow (fun fields => (agrees_close _).bind fun _ =>
      (agrees_checkIds _ _ _).bind fun _ => agrees_separator.bind fun _ =>
      Agrees.drainTail.bind fun tail => .pure _) ?_
  intro fields before found after there _
  exact fields_end (.inr ((Starts.bind starts_close) there))

private theorem agrees_parentClause : Agrees Parser.parentClause parentClause anything :=
  (agrees_keyword _).bind fun _ => agrees_path

/-- Services are read as the grammar has them. -/
theorem agrees_serviceForm (duplicates : DuplicateIds) :
    Agrees (Parser.serviceForm duplicates) (serviceForm duplicates) anything := by
  refine Agrees.drainHead.bind fun head => (agrees_keyword _).bind fun _ =>
    agrees_name.bind fun name => agrees_parentClause.bindOptionalApart (fun parent =>
      (agrees_mark _).bind fun _ => Agrees.drainTail.bind fun headerTail =>
      (agrees_functions duplicates).bindFollow (fun functions => (agrees_close _).bind fun _ =>
        agrees_separator.bind fun _ => Agrees.drainTail.bind fun tail => .pure _) ?_)
      (fun _ _ => trivial) ?_
  · intro functions before found after there _
    obtain ⟨rest, same⟩ := List.head?_eq_some_iff.mp ((Starts.bind starts_close) there)
    have plain : Stops isIdentStart before.rest := by
      rw [same]
      rfl
    exact ⟨not_throwsAhead_of_stops plain, missed_function plain⟩
  · intro before found after there _
    refine agrees_parentClause.missed (Starts.bind Lexeme.starts_words) fun begins => ?_
    rw [(Starts.bind starts_mark) there] at begins
    cases begins

/-- Rules that each begin with a word of their own agree as a choice. -/
theorem agrees_choice_of_words {Value : Type} {what : Expectation}
    (forms : List (String × Rule Value × Phrase Value))
    (agrees : ∀ form ∈ forms, Agrees form.2.1 form.2.2 anything ∧
      form.2.2.Starts (leadingWord · = form.1.toList))
    (apart : (forms.map Prod.fst).Nodup) :
    Agrees (Parser.choice what (forms.map fun form => form.2.1))
      (oneOf (forms.map fun form => form.2.2)) anything := by
  induction forms with
  | nil => exact .choice_nil what
  | cons form others ih =>
      obtain ⟨first, starts⟩ := agrees form (by simp)
      have later : ∀ other ∈ others, Agrees other.2.1 other.2.2 anything ∧
          other.2.2.Starts (leadingWord · = other.1.toList) :=
        fun other member => agrees other (by simp [member])
      obtain ⟨fresh, apart⟩ := List.nodup_cons.mp apart
      refine first.choice_cons_apart ?_ (ih later apart) ?_
      · intro rule member
        obtain ⟨other, inside, rfl⟩ := List.mem_map.mp member
        exact (later other inside).1.formed
      · rintro before value after ⟨phrase, member, here⟩ -
        obtain ⟨other, inside, rfl⟩ := List.mem_map.mp member
        refine first.missed starts fun same => fresh ?_
        rw [(later other inside).2 here, String.toList_inj] at same
        exact List.mem_map.mpr ⟨other, inside, same⟩

/-- The keywords of declarations. -/
def declarationWords : List String :=
  ["namespace", "include", "typedef", "const", "enum", "struct", "union", "exception", "service"]

/-- No two forms of a declaration begin with the same word. -/
theorem nodup_declarationWords : declarationWords.Nodup := by
  decide

/-- The forms of a declaration by their keywords. -/
def declarationTable (duplicates : DuplicateIds) :
    List (String × Rule Declaration × Phrase Declaration) :=
  declarationWords.zip ((Parser.declarationForms duplicates).zip (declarationForms duplicates))

/-- Past the comments before it, a form begins with its keyword. -/
theorem starts_headedKeyword {word : String} {isWord : IsIdentifier word.toList}
    {next : Option String → Unit → Phrase Declaration} :
    Starts (drainHead >>= fun head => keyword word isWord >>= next head)
      (leadingWord · = word.toList) :=
  Starts.drainHead fun _ => Starts.bind fun _ _ _ here => (keyword_iff.mp here).1

/-- Past the comments before it, a block begins with its keyword. -/
theorem starts_headedBlock {Value : Type} {word : String} {isWord : IsIdentifier word.toList}
    {next : Option String → String × Option String → Phrase Value} :
    Starts (drainHead >>= fun head => blockHeader word isWord >>= next head)
      (leadingWord · = word.toList) :=
  Starts.drainHead fun _ => Starts.bind (Starts.bind fun _ _ _ here => (keyword_iff.mp here).1)

/-- Each form of a declaration is read as the grammar has it, and begins with its own word. -/
theorem agrees_declarationTable (duplicates : DuplicateIds) :
    ∀ form ∈ declarationTable duplicates, Agrees form.2.1 form.2.2 anything ∧
      form.2.2.Starts (leadingWord · = form.1.toList) := by
  simp only [declarationTable, declarationWords, Parser.declarationForms, declarationForms,
    List.zip_cons_cons, List.zip_nil_left, List.forall_mem_cons, List.not_mem_nil, false_implies,
    implies_true, and_true]
  exact ⟨⟨agrees_namespaceForm, starts_headedKeyword⟩, ⟨agrees_includeForm, starts_headedKeyword⟩,
    ⟨agrees_typedefForm, starts_headedKeyword⟩, ⟨agrees_constantForm, starts_headedKeyword⟩,
    ⟨agrees_enumerationForm, starts_headedBlock⟩,
    ⟨agrees_recordForm duplicates .struct, starts_headedBlock⟩,
    ⟨agrees_recordForm duplicates .union, starts_headedBlock⟩,
    ⟨agrees_recordForm duplicates .exception, starts_headedBlock⟩,
    ⟨agrees_serviceForm duplicates, starts_headedKeyword⟩⟩

/-- **Declarations.** The rule for declarations reads exactly the declaration phrases. -/
theorem agrees_declaration (duplicates : DuplicateIds) :
    Agrees (Parser.declaration duplicates) (declaration duplicates) anything :=
  agrees_choice_of_words (declarationTable duplicates) (agrees_declarationTable duplicates)
    nodup_declarationWords

/-- A declaration begins as its keyword does. -/
theorem starts_declaration (duplicates : DuplicateIds) :
    (declaration duplicates).Starts fun text => text.head?.any isIdentStart := by
  have headed {word : String} {isWord : IsIdentifier word.toList}
      {next : Option String → Unit → Phrase Declaration} :
      Starts (drainHead >>= fun head => keyword word isWord >>= next head)
        fun text => text.head?.any isIdentStart :=
    Starts.drainHead fun _ => Starts.bind Lexeme.starts_words
  have block {word : String} {isWord : IsIdentifier word.toList}
      {next : Option String → String × Option String → Phrase Declaration} :
      Starts (drainHead >>= fun head => blockHeader word isWord >>= next head)
        fun text => text.head?.any isIdentStart :=
    Starts.drainHead fun _ => Starts.bind (Starts.bind Lexeme.starts_words)
  exact Starts.oneOf (forall_declarationForms headed headed headed headed block (fun _ => block)
    headed)

end Grammar
end ThriftIdl
