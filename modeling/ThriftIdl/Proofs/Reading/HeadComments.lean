import ThriftIdl.Proofs.Grammar.Bare
import ThriftIdl.Proofs.Reading.DottedNames
import ThriftIdl.Proofs.Reading.Places
import ThriftIdl.Proofs.Reading.Tails

/-!
# The comments before declarations

A declaration takes the comments that wait when it begins. Behind a bracket that closes a value or a
block only those wait that have come since, for what had waited before is dropped there. But a
declaration without such a bracket leaves all comments that stood on lines of their own inside it to
the next one (`head_comments_own`).
-/

namespace ThriftIdl

open Source (opensGap gap gapComments)
open ThriftIdl.Comment.Queue (together)
open ThriftIdl.Parser (View Rule Formed EndsWith reads isSeparator)

/-- The bracket that closes a value. -/
def Literal.closing? : Literal → Option Char
  | list _ => some ']'
  | map _ => some '\x7d'
  | _ => none

/-- The bracket that closes a declaration. -/
def Declaration.closing? : Declaration → Option Char
  | constant declared => declared.value.closing?
  | enumeration _ => some '\x7d'
  | record _ _ => some '\x7d'
  | service _ => some '\x7d'
  | _ => none

namespace Grammar

variable {Value First : Type}

/-! ## What waits behind a declaration -/

/-- The tokens behind which waiting comments are kept: all of them, or those from the closing
bracket on, which are the bracket and separators. -/
inductive Kept : Option Char → List Lexed → List Lexed → Prop
  | all (tokens : List Lexed) : Kept none tokens tokens
  | fromClosing {char : Char} (body : List Lexed) (gap : List Source.Piece)
      (separators : List Lexed) :
      (∀ token ∈ separators, ∃ char, isSeparator char ∧ token.chars = [char]) →
      Kept (some char) (body ++ ⟨[char], gap⟩ :: separators) (⟨[char], gap⟩ :: separators)

namespace Effect

/-- Nothing is said. -/
def Anything : Effect := fun _ _ _ => True

private theorem lawful_anything : Anything.Lawful where
  nothing _ := trivial
  token _ _ := trivial
  append _ _ := trivial

/-- Only the comments of the gaps wait for the next item. -/
def Fresh : Effect := fun _ tokens after => after.head = heads tokens

/-- Separators, the comments of whose gaps are added to those that wait for the next item. -/
def Separates : Effect := fun before tokens after =>
  AddsHead before tokens after ∧
    ∀ token ∈ tokens, ∃ char, isSeparator char ∧ token.chars = [char]

private theorem separates_nothing (view : View) : Separates view [] view :=
  ⟨lawful_addsHead.nothing view, by simp⟩

private theorem dropsTail_separates : Separates.DropsTail :=
  separates_nothing

private theorem Separates.append {before middle after : View} {front back : List Lexed}
    (first : Separates before front middle) (second : Separates middle back after) :
    Separates before (front ++ back) after :=
  ⟨lawful_addsHead.append first.1 second.1, List.forall_mem_append.mpr ⟨first.2, second.2⟩⟩

/-- Only the comments of the gaps from a bracket on wait for the next item. -/
def Closes (char : Char) : Effect := fun _ tokens after =>
  ∃ kept, Kept (some char) tokens kept ∧ after.head = heads kept

private theorem Closes.before {char : Char} {before middle after : View} {front back : List Lexed}
    (closes : Closes char middle back after) : Closes char before (front ++ back) after := by
  obtain ⟨kept, closed, head⟩ := closes
  cases closed with
  | fromClosing body gap separators separate =>
      refine ⟨_, ?_, head⟩
      rw [← List.append_assoc]
      exact .fromClosing (front ++ body) gap separators separate

private theorem Closes.append {char : Char} {before middle after : View} {front back : List Lexed}
    (closes : Closes char before front middle) (separates : Separates middle back after) :
    Closes char before (front ++ back) after := by
  obtain ⟨kept, closed, head⟩ := closes
  cases closed with
  | fromClosing body gap separators separate =>
      refine ⟨⟨[char], gap⟩ :: (separators ++ back), ?_, ?_⟩
      · rw [List.append_assoc, List.cons_append]
        exact .fromClosing body gap _ (List.forall_mem_append.mpr ⟨separate, separates.2⟩)
      · rw [separates.1, head, ← heads_append, List.cons_append]

end Effect

/-! ## Rules and what waits behind them -/

private theorem traces_separator_separates : Traces Effect.Separates Parser.separator := by
  refine ⟨.separator, fun {before value after} read => ?_⟩
  rcases agrees_separator.always.mp read with ⟨_, more, text, ⟨char, separates, rfl⟩, -, rfl⟩ |
    ⟨-, rfl⟩
  · have isToken := isToken_of_mark (isPlain_of_isSeparator separates)
    refine ⟨[⟨[char], gap more⟩], ?_, Effect.lawful_addsHead.token isToken text, ?_⟩
    · rw [text]
      exact .token isToken (.done _)
    · exact List.forall_mem_singleton.mpr ⟨char, separates, rfl⟩
  · exact ⟨[], .done _, Effect.separates_nothing _⟩

private theorem traces_close_closes {char : Char} (plain : isPlain char) :
    Traces (Effect.Closes char) (Parser.close char) := by
  refine ⟨.close char, fun {before value after} read => ?_⟩
  obtain ⟨_, middle, dropped, here⟩ :=
    (Parser.reads_bind_eq_some_iff _ .discardHead fun _ => .mark char).mp read
  rw [Parser.reads_discardHead] at dropped
  cases dropped
  obtain ⟨_, more, text, rfl, -, rfl⟩ := (agrees_mark (opensGap_of_isPlain plain)).always.mp here
  have isToken := isToken_of_mark plain
  have text : before.rest = [char] ++ more := text
  refine ⟨[⟨[char], gap more⟩], ?_, [⟨[char], gap more⟩], .fromClosing [] _ [] (by simp), ?_⟩
  · rw [text]
    exact .token isToken (.done _)
  · exact (Effect.lawful_addsHead.token isToken text)

/-- Behind the comments before it, all that waits comes from the gaps. -/
theorem traces_headed {next : Option String → Rule Value}
    (later : ∀ head, Traces Effect.AddsHead (next head)) :
    Traces Effect.Fresh (Parser.drainHead >>= next) := by
  have emptied : Traces (fun _ tokens after => tokens = [] ∧ after.head = [])
      Parser.drainHead :=
    .drainHead fun _ => ⟨rfl, rfl⟩
  refine emptied.compose later fun {before middle after front back} first adds => ?_
  obtain ⟨rfl, empty⟩ := first
  have adds : after.head = middle.head ++ heads back := adds
  rw [Effect.Fresh, adds, empty]
  rfl

/-- What follows a closing bracket. -/
theorem traces_separated {make : Option String → Value} :
    Traces Effect.Separates (do
      Parser.separator
      let tail ← Parser.drainTail
      return make tail) :=
  traces_separator_separates.compose (fun _ => Traces.compose
    (.drainTail Effect.dropsTail_separates) (fun _ => .pure Effect.separates_nothing _)
    Effect.Separates.append) Effect.Separates.append

/-- What comes before a closing bracket makes no difference. -/
theorem Traces.beforeClosing {char : Char} {rule : Rule First} {next : First → Rule Value}
    (first : Traces Effect.Anything rule)
    (later : ∀ value, Traces (Effect.Closes char) (next value)) :
    Traces (Effect.Closes char) (rule >>= next) :=
  first.compose later fun _ closes => closes.before

/-- Behind a closing bracket only separators come. -/
theorem Traces.closing {char : Char} (plain : isPlain char) {next : Unit → Rule Value}
    (later : ∀ value, Traces Effect.Separates (next value)) :
    Traces (Effect.Closes char) (Parser.close char >>= next) :=
  (traces_close_closes plain).compose later Effect.Closes.append

/-! ## Literals -/

private theorem closing?_of_decimal {chars : List Char} {value : Literal}
    (spells : Lexeme.decimal.spells chars value) : value.closing? = none := by
  have decimal := isDecimal_of_spells spells
  cases value <;> first | rfl | cases decimal

/-- The forms of a literal that are one token have no closing bracket. -/
theorem ends_tokenForms :
    ∀ form ∈ [Parser.hexLiteral, Parser.exponentLiteral, Parser.decimalNumber, Parser.boolLiteral,
        Parser.stringLiteral, Parser.refLiteral],
      EndsWith form fun value _ => value.closing? = none := by
  simp only [List.forall_mem_cons, List.not_mem_nil, false_implies, implies_true, and_true]
  refine ⟨.after .hexNumber fun _ => .pure fun _ => rfl,
    .after .exponentNumber fun _ => .pure fun _ => rfl, ⟨.decimalNumber, fun read => ?_⟩,
    ⟨.boolLiteral, fun read => ?_⟩, ⟨.stringLiteral, fun read => ?_⟩,
    .after .path fun _ => .pure fun _ => rfl⟩
  · obtain ⟨_, _, _, spells, -, -⟩ := agrees_decimalNumber.always.mp read
    exact closing?_of_decimal spells
  · obtain ⟨_, _, _, ⟨word, member, -⟩, -, -⟩ := agrees_boolLiteral.always.mp read
    simp only [List.mem_cons, Prod.mk.injEq, List.not_mem_nil, or_false] at member
    rcases member with ⟨-, rfl⟩ | ⟨-, rfl⟩ <;> rfl
  · obtain ⟨_, _, _, ⟨_, _, -, -, -, means⟩, -, -⟩ := agrees_stringLiteral.always.mp read
    obtain ⟨chars, -, rfl⟩ := Option.map_eq_some_iff.mp means
    rfl

private theorem closes_listLiteral {inner : Rule Literal} (traces : Traces Effect.Anything inner) :
    Traces (Effect.Closes ']') (Parser.listLiteral inner) :=
  have lawful := Effect.lawful_anything
  .beforeClosing (traces_mark lawful rfl) fun _ => .beforeClosing (.many lawful
    (.bind lawful traces fun _ => .bind lawful (traces_separator lawful) fun _ =>
      .pure lawful.nothing _)) fun _ => .closing rfl fun _ => .pure Effect.separates_nothing _

private theorem closes_mapLiteral {inner : Rule Literal} (traces : Traces Effect.Anything inner) :
    Traces (Effect.Closes '\x7d') (Parser.mapLiteral inner) :=
  have lawful := Effect.lawful_anything
  .beforeClosing (traces_mark lawful rfl) fun _ => .beforeClosing (.many lawful
    (.bind lawful traces fun _ => .bind lawful (traces_mark lawful rfl) fun _ =>
      .bind lawful traces fun _ => .bind lawful (traces_separator lawful) fun _ =>
      .pure lawful.nothing _)) fun _ =>
    .closing rfl fun _ => .pure Effect.separates_nothing _

/-- Behind a literal, the comments of its gaps wait as well, or only those from its closing bracket
on. -/
theorem leaves_literal {before after : View} {value : Literal}
    (read : reads Parser.literal before = some (value, after)) :
    ∃ tokens, Lexes before.rest tokens after.rest ∧
      (value.closing? = none → Effect.AddsHead before tokens after) ∧
      ∀ char, value.closing? = some char → Effect.Closes char before tokens after := by
  have looked : Parser.literal = Parser.look fun text => Parser.literalWithin (text.length + 1) :=
    rfl
  rw [looked, Parser.reads_look, Parser.literalWithin,
    Parser.reads_choice _ _ (Formed.literalWithin _).literalForms] at read
  obtain ⟨form, member, found⟩ := List.exists_of_findSome?_eq_some read
  have inner : Traces Effect.Anything (Parser.literalWithin before.rest.length) :=
    traces_literalWithin Effect.lawful_anything (fun _ => trivial) _
  have bracketed {char : Char} (closes : Traces (Effect.Closes char) form)
      (ends : EndsWith form fun value _ => value.closing? = some char) :
      ∃ tokens, Lexes before.rest tokens after.rest ∧
        (value.closing? = none → Effect.AddsHead before tokens after) ∧
        ∀ char, value.closing? = some char → Effect.Closes char before tokens after := by
    obtain ⟨tokens, lexes, closed⟩ := closes.traced found
    refine ⟨tokens, lexes, ?_, ?_⟩ <;> rw [ends.holds found]
    · intro none
      cases none
    · intro other same
      cases same
      exact closed
  -- Lists and maps give up comments before their closing bracket, other literals none.
  by_cases single : form ∈ [Parser.hexLiteral, Parser.exponentLiteral, Parser.decimalNumber,
      Parser.boolLiteral, Parser.stringLiteral, Parser.refLiteral]
  · obtain ⟨tokens, lexes, adds⟩ :=
      (traces_tokenForms Effect.lawful_addsHead form single).traced found
    refine ⟨tokens, lexes, fun _ => adds, ?_⟩
    rw [(ends_tokenForms form single).holds found]
    intro char same
    cases same
  · have other : form = Parser.listLiteral (Parser.literalWithin before.rest.length) ∨
        form = Parser.mapLiteral (Parser.literalWithin before.rest.length) := by
      simp only [Parser.literalForms, List.mem_cons, List.not_mem_nil, or_false] at member single
      tauto
    have item := (Formed.literalWithin before.rest.length).listItem
    have entry := (Formed.literalWithin before.rest.length).mapEntry
    rcases other with rfl | rfl
    · exact bracketed (closes_listLiteral inner) (.after (.mark _) fun _ => .after item.many
        fun _ => .after (.close _) fun _ => .pure fun _ => rfl)
    · exact bracketed (closes_mapLiteral inner) (.after (.mark _) fun _ => .after entry.many
        fun _ => .after (.close _) fun _ => .pure fun _ => rfl)

/-! ## Declarations -/

/-- The end of a declaration without a closing bracket. -/
theorem adds_ending {make : Option String → Value} :
    Traces Effect.AddsHead (do
      Parser.separator
      let tail ← Parser.drainTail
      return make tail) :=
  have lawful := Effect.lawful_addsHead
  .bind lawful (traces_separator lawful) fun _ => .bind lawful (.drainTail lawful.nothing) fun _ =>
    .pure lawful.nothing _

/-- A declaration without a closing bracket leaves the comments of all its gaps. -/
theorem fresh_namespaceForm : Traces Effect.Fresh Parser.namespaceForm :=
  have lawful := Effect.lawful_addsHead
  traces_headed fun _ => .bind lawful (traces_keyword lawful (by decide)) fun _ =>
    .bind lawful (traces_scope lawful) fun _ => .bind lawful (traces_path lawful) fun _ =>
    adds_ending

private theorem fresh_includeForm : Traces Effect.Fresh Parser.includeForm := by
  have lawful := Effect.lawful_addsHead
  rw [Parser.includeForm_eq]
  exact traces_headed fun _ => .bind lawful (traces_keyword lawful (by decide)) fun _ =>
    .bind lawful (traces_includePath lawful) fun _ => adds_ending

private theorem fresh_typedefForm : Traces Effect.Fresh Parser.typedefForm :=
  have lawful := Effect.lawful_addsHead
  traces_headed fun _ => .bind lawful (traces_keyword lawful (by decide)) fun _ =>
    .bind lawful (traces_typeRef lawful) fun _ => .bind lawful (traces_name lawful) fun _ =>
    adds_ending

private theorem fresh_constantStart : Traces Effect.Fresh Parser.constantStart :=
  have lawful := Effect.lawful_addsHead
  traces_headed fun _ => .bind lawful (traces_keyword lawful (by decide)) fun _ =>
    .bind lawful (traces_typeRef lawful) fun _ => .bind lawful (traces_name lawful) fun _ =>
    .bind lawful (traces_mark lawful rfl) fun _ => .pure lawful.nothing _

section Blocks

variable (duplicates : DuplicateIds)

/-- A block leaves the comments from its closing bracket on. -/
theorem closes_enumerationForm : Traces (Effect.Closes '\x7d') Parser.enumerationForm := by
  have lawful := Effect.lawful_anything
  have item := (takes_enumItem lawful lawful.nothing).traces lawful lawful.nothing
  have ending {make : Option String → Declaration} :
      Traces Effect.Separates (Parser.drainTail >>= fun tail => pure (make tail)) :=
    .compose (.drainTail Effect.dropsTail_separates)
      (fun _ => .pure Effect.separates_nothing _) Effect.Separates.append
  exact .beforeClosing (.drainHead lawful.nothing) fun _ =>
    .beforeClosing (traces_blockHeader lawful (by decide) lawful.nothing) fun _ =>
    .beforeClosing (.many lawful item) fun _ => .closing rfl fun _ =>
    traces_separator_separates.compose (fun _ =>
      (traces_enumValues Effect.separates_nothing _ _).compose (fun _ => ending)
        Effect.Separates.append) Effect.Separates.append

private theorem closes_recordForm (kind : RecordKind) :
    Traces (Effect.Closes '\x7d') (Parser.recordForm duplicates kind) := by
  have lawful := Effect.lawful_anything
  have item := (takes_field lawful lawful.nothing).traces lawful lawful.nothing
  exact .beforeClosing (.drainHead lawful.nothing) fun _ =>
    .beforeClosing (traces_blockHeader lawful (by cases kind <;> decide) lawful.nothing) fun _ =>
    .beforeClosing (.many lawful item) fun _ => .closing rfl fun _ =>
    (traces_checkIds Effect.separates_nothing _ _ _).compose (fun _ => traces_separated)
      Effect.Separates.append

private theorem closes_serviceForm :
    Traces (Effect.Closes '\x7d') (Parser.serviceForm duplicates) := by
  have lawful := Effect.lawful_anything
  have item := (takes_function lawful lawful.nothing lawful.nothing duplicates).traces lawful
    lawful.nothing
  exact .beforeClosing (.drainHead lawful.nothing) fun _ =>
    .beforeClosing (traces_keyword lawful (by decide)) fun _ =>
    .beforeClosing (traces_name lawful) fun _ =>
    .beforeClosing (.attempt lawful (traces_parentClause lawful)) fun _ =>
    .beforeClosing (traces_mark lawful rfl) fun _ =>
    .beforeClosing (.drainTail lawful.nothing) fun _ =>
    .beforeClosing (.many lawful item) fun _ => .closing rfl fun _ => traces_separated

end Blocks

/-- Behind a constant, the comments of all its gaps wait, or those from the closing bracket of its
value on. -/
theorem kept_of_constantForm {before after : View} {declared : Declaration}
    (read : reads Parser.constantForm before = some (declared, after)) :
    ∃ tokens kept, Lexes before.rest tokens after.rest ∧ Kept declared.closing? tokens kept ∧
      after.head = heads kept := by
  rw [Parser.constantForm_eq] at read
  obtain ⟨start, middle, started, ended⟩ :=
    (Parser.reads_bind_eq_some_iff _ .constantStart .constantEnd).mp read
  have ends (value : Literal) : EndsWith (do
      Parser.separator
      let tail ← Parser.drainTail
      return Declaration.constant
        { type := start.2.1, name := start.2.2, value, comments := { head := start.1, tail } })
      fun declared _ => declared.closing? = value.closing? :=
    .after .separator fun _ => .after .drainTail fun _ => .pure fun _ => rfl
  obtain ⟨value, behind, valueRead, ending⟩ :=
    (Parser.reads_bind_eq_some_iff _ .literal fun value => (ends value).formed).mp ended
  obtain ⟨front, lexes, fresh⟩ := fresh_constantStart.traced started
  obtain ⟨inner, lexes', adds, closes⟩ := leaves_literal valueRead
  obtain ⟨back, lexes'', separates⟩ := traces_separated.traced ending
  refine ⟨front ++ (inner ++ back), ?_⟩
  rw [(ends value).holds ending]
  cases bracket : value.closing? with
  | none =>
      have fresh : middle.head = heads front := fresh
      have adds : behind.head = middle.head ++ heads inner := adds bracket
      have more : after.head = behind.head ++ heads back := separates.1
      refine ⟨_, lexes.append (lexes'.append lexes''), .all _, ?_⟩
      rw [more, adds, fresh, heads_append, heads_append, List.append_assoc]
  | some char =>
      have closed : Effect.Closes char before (front ++ (inner ++ back)) after :=
        ((closes char bracket).append separates).before
      obtain ⟨kept, closed, head⟩ := closed
      exact ⟨kept, lexes.append (lexes'.append lexes''), closed, head⟩

/-- **What waits behind a declaration** for the next one: the comments of all its gaps, or those
from its closing bracket on. -/
theorem kept_of_declaration {duplicates : DuplicateIds} {before after : View}
    {declared : Declaration}
    (read : reads (Parser.declaration duplicates) before = some (declared, after)) :
    ∃ tokens kept, Lexes before.rest tokens after.rest ∧ Kept declared.closing? tokens kept ∧
      after.head = heads kept := by
  have all {rule : Rule Declaration} (traces : Traces Effect.Fresh rule)
      (read : reads rule before = some (declared, after)) :
      ∃ tokens kept, Lexes before.rest tokens after.rest ∧ Kept none tokens kept ∧
        after.head = heads kept := by
    obtain ⟨tokens, lexes, fresh⟩ := traces.traced read
    exact ⟨tokens, tokens, lexes, .all tokens, fresh⟩
  have closed {rule : Rule Declaration} (traces : Traces (Effect.Closes '\x7d') rule)
      (read : reads rule before = some (declared, after)) :
      ∃ tokens kept, Lexes before.rest tokens after.rest ∧ Kept (some '\x7d') tokens kept ∧
        after.head = heads kept := by
    obtain ⟨tokens, lexes, kept, closes, head⟩ := traces.traced read
    exact ⟨tokens, kept, lexes, closes, head⟩
  have form := (Parser.reads_declaration_iff duplicates).mp read
  cases declared with
  | scope => exact all fresh_namespaceForm form
  | inclusion => exact all fresh_includeForm form
  | typedef => exact all fresh_typedefForm form
  | constant => exact kept_of_constantForm form
  | enumeration => exact closed closes_enumerationForm form
  | record kind => exact closed (closes_recordForm duplicates kind) form
  | service => exact closed (closes_serviceForm duplicates) form

end Grammar

namespace Parser

open ThriftIdl.Grammar (Lexes Kept heads)

variable {options : Options} {source : String}

/-- A declaration takes the comments that wait when it begins. -/
theorem head_of_declaration {duplicates : DuplicateIds} {state after : State}
    {declared : Declaration} (sound : state.Sound)
    (matched : declaration duplicates (state.keeping []) = .ok declared after) :
    declared.comments.head = together state.view.head := by
  have aligned : Aligned 0 [] [] (state.keeping []) (state.keeping []) :=
    ⟨rfl, rfl, sound.keeping [], sound.keeping [], rfl, [], rfl, rfl⟩
  rcases declaration_aligned duplicates aligned with
    ⟨bare, _, _, read, -, -⟩ | ⟨_, _, _, missed, -, -⟩
  · rw [matched] at read
    cases read
    exact Declaration.head_withHead _ _
  · rw [matched] at missed
    cases missed

/-- **Whose comments a declaration takes before it.** The first declaration takes the comments
before it in the source. Every other one takes comments behind tokens of the declaration before,
each of them after the first line break behind its token: behind all tokens, or behind those from
the closing bracket on if there is one. Every declaration of a document is one that the reading
comes to. -/
theorem head_comments_own (options : Options) (source : String) :
    (∀ state declared after, TopLevel options source state →
      declaration options.duplicates (state.keeping []) = .ok declared after →
      (state = openingState source ∧
        declared.comments.head = together (gapComments (gap (withoutMark source.toList)))) ∨
      ∃ before previous tokens kept, TopLevel options source before ∧
        declaration options.duplicates (before.keeping []) = .ok previous state ∧
        Lexes before.input.rest tokens state.input.rest ∧ Kept previous.closing? tokens kept ∧
        declared.comments.head = together (heads kept)) ∧
    ∀ document, Document.parse source options = .ok document →
      ∀ declared ∈ document.declarations.items, ∃ state after, TopLevel options source state ∧
        declaration options.duplicates (state.keeping []) = .ok declared after := by
  refine ⟨fun state declared after reached matched => ?_, fun _ => exists_topLevel_of_parse⟩
  have head := head_of_declaration reached.sound matched
  cases reached with
  | start =>
      have opening :
          (openingState source).view.head = gapComments (gap (withoutMark source.toList)) := by
        rw [view_openingState, View.opening_eq]
      exact .inl ⟨rfl, opening ▸ head⟩
  | @next before _ previous earlier _ matched' =>
      obtain ⟨read, -⟩ := (Formed.declaration _).reads_of_ok (earlier.sound.keeping []) matched'
      obtain ⟨tokens, kept, lexes, closing, waits⟩ := Grammar.kept_of_declaration read
      exact .inr ⟨before, previous, tokens, kept, earlier, matched', lexes, closing, waits ▸ head⟩

/-- The head comments of the declarations of a document. -/
def headComments (document : Document) : List (Option String) :=
  document.declarations.items.map fun declared => declared.comments.head

/-- A comment before the closing bracket of a list is not one of the next declaration. -/
theorem head_comments_own_list :
    ∃ document, Document.parse "const list<i8> c = [\n// a\n]\n// b\ntypedef i8 T" = .ok document ∧
      headComments document = [none, some "// b"] ∧
      ∀ declared ∈ document.declarations.items, ∃ state after,
        TopLevel {} "const list<i8> c = [\n// a\n]\n// b\ntypedef i8 T" state ∧
        declaration .reject (state.keeping []) = .ok declared after ∧
        (declared.comments.head = none ∨ ∃ (before : State), ∃ previous tokens kept,
          declaration .reject (before.keeping []) = .ok previous state ∧
          Lexes before.input.rest tokens state.input.rest ∧ Kept previous.closing? tokens kept ∧
          declared.comments.head = together (heads kept)) := by
  obtain ⟨document, parsed, computed⟩ := exists_of_map_parse {}
    "const list<i8> c = [\n// a\n]\n// b\ntypedef i8 T" headComments [none, some "// b"]
    (by decide +kernel)
  refine ⟨document, parsed, computed, fun declared member => ?_⟩
  obtain ⟨origin, covers⟩ :=
    head_comments_own {} "const list<i8> c = [\n// a\n]\n// b\ntypedef i8 T"
  obtain ⟨state, after, reached, matched⟩ := covers document parsed declared member
  refine ⟨state, after, reached, matched, ?_⟩
  rcases origin state declared after reached matched with
    ⟨-, head⟩ | ⟨before, previous, tokens, kept, -, rest⟩
  · refine .inl (head.trans ?_)
    decide +kernel
  · exact .inr ⟨before, previous, tokens, kept, rest⟩

/-- A comment between two tokens of a type definition is left to the next declaration. -/
theorem head_comment_leaks :
    (reads (declaration .reject) (openingState "typedef i32\n// c\nT\nconst i8 d = 1").view).map
        Prod.snd = some ⟨"const i8 d = 1".toList, ["// c"], []⟩ ∧
    ∃ document, Document.parse "typedef i32\n// c\nT\nconst i8 d = 1" = .ok document ∧
      document.kinds = [.typedef, .constant] ∧ headComments document = [none, some "// c"] := by
  constructor
  · decide +kernel
  · obtain ⟨document, parsed, computed⟩ := exists_of_map_parse {}
      "typedef i32\n// c\nT\nconst i8 d = 1"
      (fun document => (document.kinds, headComments document))
      ([.typedef, .constant], [none, some "// c"]) (by decide +kernel)
    rw [Prod.mk.injEq] at computed
    exact ⟨document, parsed, computed⟩

end Parser
end ThriftIdl
