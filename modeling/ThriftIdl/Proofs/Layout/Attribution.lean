import ThriftIdl.Proofs.Layout.Facing
import ThriftIdl.Proofs.Reading.Joining

/-!
# Comments are read with their items

In a document in rows every item is read with exactly the comments that stand above its row and
behind it, and a block with those behind its opening and its closing brace: `Parser.parse_rows`.
-/

namespace ThriftIdl

open ThriftIdl.Source (Stops)
open ThriftIdl.Parser (View isSeparator)
open ThriftIdl.Grammar (Phrase IsIdentifier)
open ThriftIdl.Comment.Queue (together)

namespace Layout

variable {Value First : Type} {duplicates : DuplicateIds}

/-! ## Blocks -/

/-- Tokens up to the opening brace of a block: past them, and past the comments behind the brace,
the phrase goes on as a body that depends on these comments. -/
structure Opens (phrase : Phrase Value) (body : Option String → Phrase Value)
    (tokens : List Token) : Prop where
  areTokens : AreTokens tokens
  found : ∀ {more : List Token} {before after : View} {rest : List Char} {head tails : List String}
    {value : Value}, AreTokens more → Laid (tokens ++ more) before.rest → Calm before tokens →
    past before tokens = ⟨rest, head, tails⟩ → body (together tails) ⟨rest, head, []⟩ value after →
    phrase before value after

namespace Opens

private theorem tail (body : Option String → Phrase Value) :
    Opens (Phrase.drainTail >>= body) body [] := by
  refine ⟨by simp [AreTokens], fun _ _ _ passed there => ?_⟩
  obtain rfl := passed
  exact ⟨_, _, ⟨rfl, rfl⟩, there⟩

private theorem bind {first : Phrase First} {next : First → Phrase Value} {known : First}
    {body : Option String → Phrase Value} {front back : List Token}
    (takes : Takes first known anywhere front) (opens : Opens (next known) body back) :
    Opens (first >>= next) body (front ++ back) := by
  refine ⟨takes.areTokens.append opens.areTokens, fun areTokens laid calm passed there => ?_⟩
  rw [List.append_assoc] at laid
  obtain ⟨_, middle, here, rfl, later, ends⟩ :=
    takes.found (opens.areTokens.append areTokens) trivial laid
  obtain ⟨calmFront, calmBack⟩ := calm_append.mp calm
  obtain ⟨-, rfl⟩ := ends calmFront
  rw [past_append] at passed
  exact ⟨_, _, here, opens.found areTokens later calmBack passed there⟩

end Opens

/-- A first part that ends with the comments behind it. -/
theorem Yields.opens {first : Phrase First} {next : First → Phrase Value} {good : First → Prop}
    {make : Option String → First} {tokens : List Token}
    (yields : Yields first good (tailed make) anywhere tokens) :
    Opens (first >>= next) (fun tail => next (make tail)) tokens := by
  refine ⟨yields.areTokens, fun areTokens laid calm passed there => ?_⟩
  obtain ⟨_, middle, here, -, -, ends⟩ := yields.found areTokens trivial laid
  rw [passed] at ends
  obtain ⟨_, _, ⟨rfl, rfl⟩, rfl, rfl⟩ := ends calm
  exact ⟨_, _, here, there⟩

/-- A closing mark is read in the same way whether comments wait before it or not. -/
theorem close_of_quiet {char : Char} {plain : Source.opensGap char = false}
    {next : Unit → Phrase Value} {view after : View} {value : Value}
    (here : (Grammar.close char plain >>= next) { view with head := [] } value after) :
    (Grammar.close char plain >>= next) view value after := by
  obtain ⟨_, middle, ⟨_, _, rfl, closes⟩, there⟩ := here
  exact ⟨_, middle, ⟨(), _, rfl, closes⟩, there⟩

/-- The row of a closing brace. What stands above it belongs to nothing. -/
theorem Gives.closing {rest : Unit → Phrase Value} {make : Option String → Value} {row : Row}
    {separator : List Token} (ends : row.tokens = ['\x7d'] :: separator)
    (yields : Yields (Grammar.close '\x7d' Grammar.plain_rightBrace >>= rest) (fun _ => True)
      (tailed make) Plain (['\x7d'] :: separator)) :
    Gives (Grammar.close '\x7d' Grammar.plain_rightBrace >>= rest) (make (together row.tails))
      [row] := by
  have single : tokensOf [row] = ['\x7d'] :: separator := by rw [← ends]; exact List.append_nil _
  refine ⟨single ▸ yields.areTokens, fun _ _ => ?_, fun {more before} areTokens plain facing => ?_⟩
  · rw [single]
    exact plain_cons rfl _ _
  · rw [← ends] at yields
    have tokens : AreTokens (tokensOf (row :: more)) := yields.areTokens.append areTokens
    have laid : Laid (row.tokens ++ tokensOf more) { before with head := [] }.rest :=
      facing.laid tokens
    obtain ⟨-, calm, _, _, passed, later⟩ := facing.past tokens
    obtain ⟨_, after, here, -, -, left⟩ := yields.found areTokens plain laid
    rw [passed] at left
    obtain ⟨_, _, ⟨rfl, rfl⟩, rfl, rfl⟩ := left calm
    exact ⟨_, close_of_quiet here, later⟩

/-- A text that begins with a word begins with no separator. -/
theorem plain_word {word : String} (isWord : IsIdentifier word.toList) {tokens : List Token}
    (areTokens : AreTokens tokens) : Plain (word.toList :: tokens) :=
  (Yields.keyword isWord).plain (starts_plain Grammar.Lexeme.starts_words) areTokens trivial

/-- The row up to the opening brace of a block, and the rows of what is in the block. -/
theorem Gives.opening {header : Option String → Phrase Value}
    {body : Option String → Option String → Phrase Value} {row : Row} {rows : List Row}
    {word : String} {clause : List Token} {value : Value} (isWord : IsIdentifier word.toList)
    (begins : row.tokens = word.toList :: clause)
    (opens : ∀ head, Opens (header head) (body head) (word.toList :: clause))
    (inside : Gives (body (together row.heads) (together row.tails)) value rows) :
    Gives (Phrase.drainHead >>= header) value (row :: rows) := by
  have shape (more : List Token) : tokensOf (row :: rows) ++ more =
      word.toList :: (clause ++ (tokensOf rows ++ more)) := by
    have whole : tokensOf (row :: rows) = row.tokens ++ tokensOf rows := rfl
    rw [whole, begins, List.append_assoc, List.cons_append]
  have clauses : AreTokens clause := (opens none).areTokens.tail
  rw [← begins] at opens
  refine ⟨(opens none).areTokens.append inside.areTokens, fun {more} areTokens _ => ?_,
    fun {more before} areTokens plain facing => ?_⟩
  · rw [shape]
    exact plain_word isWord (clauses.append (inside.areTokens.append areTokens))
  · have later : AreTokens (tokensOf (rows ++ more)) := by
      rw [tokensOf_append]
      exact inside.areTokens.append areTokens
    have tokens : AreTokens (tokensOf (row :: (rows ++ more))) :=
      (opens none).areTokens.append later
    have laid : Laid (row.tokens ++ tokensOf (rows ++ more)) before.rest := facing.laid tokens
    obtain ⟨heads, calm, _, _, passed, within⟩ := facing.past tokens
    obtain ⟨after, here, last⟩ := inside.found areTokens plain within
    rw [← heads] at here
    exact ⟨after, ⟨_, _, ⟨rfl, rfl⟩, (opens _).found later laid calm passed here⟩, last⟩

/-! ## Items -/

private theorem gives_field {field : Field} {row : Row} (wellFormed : IsWellFormedField field)
    (isRow : IsFieldRow field row) : Gives Grammar.field field [row] := by
  obtain ⟨writes, same⟩ := isRow
  have gives := (Attributes.field wellFormed writes).gives starts_field_plain
  rw [← same] at gives
  exact gives

/-- Fields without comments are bare. -/
theorem map_bare {fields : List Field} (without : ∀ field ∈ fields, field.comments = {}) :
    fields.map Field.bare = fields := by
  have same : ∀ field ∈ fields, field.bare = id field := by
    intro field member
    rw [Field.bare, ← without field member]
    rfl
  rw [List.map_congr_left same, List.map_id]

private theorem gives_function {function : Function} {row : Row}
    (wellFormed : IsWellFormedFunction function) (isRow : IsFunctionRow function row) :
    Gives (Grammar.function duplicates) function [row] := by
  obtain ⟨writes, same, without⟩ := isRow
  have attributes : Attributes (Grammar.function duplicates) _
      (fun comments => { function.bare with comments }) row.tokens := .function wellFormed writes
  have gives := attributes.gives (starts_plain (Grammar.starts_function duplicates))
  obtain ⟨arguments, throws⟩ := List.forall_mem_append.mp without
  rw [← same, Function.bare] at gives
  simp only [map_bare arguments, map_bare throws] at gives
  exact gives

/-- Enumeration items with a row each, and their numbers. -/
theorem gives_enumItems {items : List EnumItem} (named : ∀ item ∈ items, IsName item.name)
    {next : Option Int64} {rows : List Row} (areRows : AreEnumRows next items rows) :
    ∃ written, Gives (Phrase.Repeated Grammar.enumItem) written rows ∧
      numberItems next written = .ok items := by
  induction items generalizing next rows with
  | nil =>
      obtain rfl := areRows
      exact ⟨[], .repeatedNil _, rfl⟩
  | cons item rest ih =>
      obtain ⟨row, others, writes, same, areOthers, rfl⟩ := areRows
      obtain ⟨tokens, separator, _, writesValue, isSeparator, rfl, whole⟩ := writes
      rw [List.append_nil] at whole
      obtain ⟨value, valued, attributes⟩ :=
        Attributes.enumItemAfter (named item (by simp)) writesValue isSeparator
      rw [← whole] at attributes
      have first := attributes.gives (starts_plain Grammar.starts_enumItem)
      obtain ⟨written, gives, numbered⟩ :=
        ih (fun other member => named other (by simp [member])) areOthers
      refine ⟨_, first.repeatedCons gives, ?_⟩
      rw [numberItems, valued]
      simp only [numbered, ← same]

/-! ## Declarations -/

/-- A declaration without a block has a row of its own. -/
theorem gives_single {phrase : Phrase Declaration} {good : Declaration → Prop}
    {make : Comments → Declaration} {declared : Declaration} {row : Row}
    (member : phrase ∈ Grammar.declarationForms duplicates)
    (attributes : Attributes phrase good make row.tokens) (same : make row.comments = declared) :
    Gives (Grammar.declaration duplicates) declared [row] :=
  same ▸ (attributes.oneOf member).gives (starts_plain (Grammar.starts_declaration duplicates))

private theorem opens_blockHeader {word : String} (isWord : IsIdentifier word.toList)
    {name : String}
    (isName : IsName name) (next : String × Option String → Phrase Value) :
    Opens (Grammar.blockHeader word isWord >>= next) (fun tail => next (name, tail))
      [word.toList, name.toList, ['\x7b']] :=
  (Yields.blockHeader isWord isName).opens

private theorem gives_enumeration {declared : Enumeration} {rows : List Row}
    (wellFormed : IsWellFormed (.enumeration declared))
    (areRows : AreRows (.enumeration declared) rows) :
    Gives Grammar.enumerationForm (.enumeration declared) rows := by
  obtain ⟨isName, named⟩ := wellFormed
  obtain ⟨inner, areEnumRows, opening, closing, separator, header, brace, isSeparator, same, rfl⟩ :=
    areRows
  obtain ⟨written, inside, numbered⟩ := gives_enumItems named areEnumRows
  have gives : Gives Grammar.enumerationForm _ _ :=
    .opening (by decide) header (fun _ => opens_blockHeader _ isName _) <| inside.bind <|
      .closing brace <| (Yields.close rfl).bind <| Yields.separatorLast isSeparator <|
      (Yields.given (congrArg Except.toOption numbered)).bind <| Yields.tail fun _ => trivial
  rw [← Comment.Queue.together_append, ← same] at gives
  exact gives

private theorem gives_record {kind : RecordKind} {declared : Record} {rows : List Row}
    (wellFormed : IsWellFormed (.record kind declared))
    (areRows : AreRows (.record kind declared) rows) :
    Gives (Grammar.recordForm duplicates kind) (.record kind declared) rows := by
  obtain ⟨isName, wellFormedFields⟩ := wellFormed
  obtain ⟨inner, areFields, opening, closing, separator, header, brace, isSeparator, same, rfl⟩ :=
    areRows
  have inside : Gives (Phrase.Repeated Grammar.field) declared.fields inner :=
    .eachRow areFields fun field member _ => gives_field (wellFormedFields.each field member)
  have gives : Gives (Grammar.recordForm duplicates kind) _ _ :=
    .opening (Grammar.isIdentifier_keyword kind) header (fun _ => opens_blockHeader _ isName _) <|
      inside.bind <| .closing brace <| (Yields.close rfl).bind <|
      (Yields.provided (idsAllowed wellFormedFields rfl)).bind <|
      Yields.ending isSeparator fun _ => trivial
  rw [← Comment.Queue.together_append, ← same] at gives
  exact gives

private theorem gives_service {declared : Service} {rows : List Row}
    (wellFormed : IsWellFormed (.service declared)) (areRows : AreRows (.service declared) rows) :
    Gives (Grammar.serviceForm duplicates) (.service declared) rows := by
  obtain ⟨isName, isPath, wellFormedFunctions⟩ := wellFormed
  obtain ⟨clause, inner, writesParent, areFunctions, opening, closing, separator, header, brace,
    isSeparator, same, rfl⟩ := areRows
  obtain ⟨segments, sameParent, parent⟩ := Yields.parentClause isPath writesParent
  have inside :
      Gives (Phrase.Repeated (Grammar.function duplicates)) declared.functions.items inner :=
    .eachRow areFunctions fun function member _ =>
      gives_function (wellFormedFunctions function member)
  have gives : Gives (Grammar.serviceForm duplicates) _ _ :=
    .opening (by decide) header (fun _ => Opens.bind (Yields.keyword _) <|
        .bind (Yields.name isName) <| .bind parent <| .bind (Yields.mark rfl) <| .tail _) <|
      inside.bind <| .closing brace <| (Yields.close rfl).bind <|
      Yields.ending isSeparator fun _ => trivial
  rw [← Comment.Queue.together_append, ← same, sameParent, Keyed.ofList_items] at gives
  exact gives

/-- **Declarations** in rows have the comments of their rows. -/
theorem gives_declaration {declared : Declaration} {rows : List Row}
    (wellFormed : IsWellFormed declared) (areRows : AreRows declared rows) :
    Gives (Grammar.declaration duplicates) declared rows := by
  cases declared with
  | scope declared =>
      obtain ⟨row, ⟨form, separator, writes, isSeparator, tokens⟩, same, rfl⟩ := areRows
      have attributes := tokens ▸ Attributes.scopeForm wellFormed writes isSeparator
      exact gives_single (.head _) attributes (by rw [← same]; rfl)
  | inclusion declared =>
      obtain ⟨row, ⟨form, separator, writes, isSeparator, tokens⟩, same, rfl⟩ := areRows
      have attributes := tokens ▸ Attributes.inclusionForm wellFormed writes isSeparator
      exact gives_single (.tail _ (.head _)) attributes (by rw [← same]; rfl)
  | typedef declared =>
      obtain ⟨row, ⟨form, separator, writes, isSeparator, tokens⟩, same, rfl⟩ := areRows
      have attributes := tokens ▸ Attributes.typedefForm wellFormed writes isSeparator
      exact gives_single (.tail _ (.tail _ (.head _))) attributes (by rw [← same]; rfl)
  | constant declared =>
      obtain ⟨row, ⟨form, separator, writes, isSeparator, tokens⟩, same, rfl⟩ := areRows
      have attributes := tokens ▸ Attributes.constantForm wellFormed writes isSeparator
      exact gives_single (.tail _ (.tail _ (.tail _ (.head _)))) attributes (by rw [← same]; rfl)
  | enumeration declared =>
      exact (gives_enumeration wellFormed areRows).oneOf (by simp [Grammar.declarationForms])
  | record kind declared =>
      have member : Grammar.recordForm duplicates kind ∈ Grammar.declarationForms duplicates := by
        cases kind <;> simp [Grammar.declarationForms]
      exact (gives_record wellFormed areRows).oneOf member
  | service declared =>
      have member : Grammar.serviceForm duplicates ∈ Grammar.declarationForms duplicates := by
        simp [Grammar.declarationForms]
      exact (gives_service wellFormed areRows).oneOf member

end Layout

namespace Parser

open ThriftIdl.Layout

/-- **Comments are read with their items.** A well-formed document in rows is read as the document
it is, comments included: the comments above a row and those behind it are those of its item and of
no other, whatever comes before and after it. -/
theorem parse_rows {document : Document} (wellFormed : IsWellFormedDocument document)
    {text : String} (inRows : IsInRows document text.toList) (options : Options) :
    ∃ parsed, Document.parse text options = .ok parsed ∧ parsed.toList = document.toList := by
  obtain ⟨mark, rest, declared, parts, isMark, whole, arranged, areRows, inRows⟩ := inRows
  have gives : Gives (Phrase.Repeated (Grammar.declaration options.duplicates)) declared
      parts.flatten :=
    .each areRows fun declaration member _ areRows =>
      gives_declaration (wellFormed.of_arranged arranged declaration member) areRows
  have facing : Facing (parts.flatten ++ []) (View.opening rest) := by
    rw [List.append_nil]
    exact inRows.facing gives.areTokens
  have nothing : AreTokens (tokensOf []) := by simp [AreTokens, tokensOf]
  obtain ⟨last, repeated, ended⟩ := gives.found nothing plain_nil facing
  have ended : last.rest = [] := by
    cases ended
    rfl
  have unmarked : withoutMark text.toList = rest := by
    rw [whole, withoutMark]
    rcases isMark with rfl | rfl
    · refine if_neg fun marked => ?_
      obtain ⟨others, rfl⟩ := List.head?_eq_some_iff.mp marked
      have noGap : Source.gap ('\ufeff' :: others) = [] := Source.gap_eq_nil rfl
      rw [View.opening_of_gap_eq_nil noGap] at repeated
      exact head?_ne_mark_of_repeated repeated ended marked
    · rfl
  rw [← unmarked] at repeated
  exact ⟨.ofList declared, parse_eq_ok_iff.mpr ⟨declared, last, repeated, ended, rfl⟩,
    toList_ofList arranged⟩

/-- A structure is read with the comments around its rows. -/
theorem parse_rows_struct :
    ∃ parsed,
      Document.parse "# user\nstruct User \x7b // data\n  1: i64 id // key\n\x7d // end\n" {} =
        .ok parsed ∧
      parsed.toList = [.record .struct ⟨"User",
        [⟨some 1, none, .scalar "i64", "id", none, ⟨none, some "// key"⟩⟩],
        ⟨some "// user", some "// data\r\n// end"⟩⟩] := by
  have wellFormed : IsWellFormedDocument (.ofList [.record .struct ⟨"User",
      [⟨some 1, none, .scalar "i64", "id", none, ⟨none, some "// key"⟩⟩],
      ⟨some "// user", some "// data\r\n// end"⟩⟩]) := by
    intro declared member
    obtain rfl := List.mem_singleton.mp member
    refine ⟨⟨rfl, rfl⟩, fun field member => ?_, by decide⟩
    obtain rfl := List.mem_singleton.mp member
    have apart : DoesNotBegin "required" (.scalar "i64") ∧
        DoesNotBegin "optional" (.scalar "i64") := by
      constructor <;>
        · rintro _ ⟨⟩
          decide
    exact ⟨⟨rfl, rfl⟩, ⟨rfl, rfl⟩, fun _ => apart, fun _ none => by cases none⟩
  have spaced : ∀ char ∈ [' '], Source.isSpace char := List.forall_mem_singleton.mpr rfl
  have inLine {body : List Char} (plain : body.any Source.isLineBreak = false) :
      ∀ char ∈ body, ¬Source.isLineBreak char := by simpa using plain
  have behind (body : List Char) (plain : body.any Source.isLineBreak = false) :
      Behind [String.ofList (Text.trimEnd (['/', '/'] ++ body))] (' ' :: (['/', '/'] ++ body)) :=
    .space rfl (.line (.inl rfl) (inLine plain))
  have rows : InRows
      [⟨[String.ofList (Text.trimEnd (['#'] ++ " user".toList))],
          ["struct".toList, "User".toList, ['\x7b']],
          [String.ofList (Text.trimEnd (['/', '/'] ++ " data".toList))]⟩,
        ⟨[], [['1'], [':'], "i64".toList, "id".toList],
          [String.ofList (Text.trimEnd (['/', '/'] ++ " key".toList))]⟩,
        ⟨[], [['\x7d']], [String.ofList (Text.trimEnd (['/', '/'] ++ " end".toList))]⟩]
      ((['#'] ++ " user".toList ++ '\n' :: []) ++
        (("struct".toList ++ ([' '] ++ ("User".toList ++ ([' '] ++
            (['\x7b'] ++ ' ' :: (['/', '/'] ++ " data".toList)))))) ++
          (['\n', ' ', ' '] ++ ((['1'] ++ ([] ++ ([':'] ++ ([' '] ++ ("i64".toList ++ ([' '] ++
              ("id".toList ++ ' ' :: (['/', '/'] ++ " key".toList)))))))) ++
            (['\n'] ++ ((['\x7d'] ++ ' ' :: (['/', '/'] ++ " end".toList)) ++ ['\n'])))))) :=
    .cons (.line (.inr rfl) (inLine (by decide +kernel)) rfl .nil)
      (.next spaced (by decide +kernel) (.next spaced (by decide +kernel)
        (.last (behind _ (by decide +kernel))))) rfl <|
    .cons (.blank (.inr rfl) (.blank (.inl rfl) (.blank (.inl rfl) .nil)))
      (.next (by simp) (by decide +kernel) (.next spaced (by decide +kernel)
        (.next spaced (by decide +kernel) (.last (behind _ (by decide +kernel)))))) rfl <|
    .cons (.blank (.inr rfl) .nil) (.last (behind _ (by decide +kernel))) rfl <|
    .nil (.blank (.inr rfl) .nil)
  have one : WritesNumber 1 ['1'] := .inl ⟨[], [], .inl (.inr ⟨rfl, by decide⟩), by simp, rfl⟩
  have field : WritesField ⟨some 1, none, .scalar "i64", "id", none, ⟨none, some "// key"⟩⟩
      [['1'], [':'], "i64".toList, "id".toList] :=
    ⟨[['1'], [':']], [], ["i64".toList], [], [], ⟨['1'], one, rfl⟩, rfl, rfl, rfl, .inl rfl, rfl⟩
  have inRows : IsInRows (.ofList [.record .struct ⟨"User",
        [⟨some 1, none, .scalar "i64", "id", none, ⟨none, some "// key"⟩⟩],
        ⟨some "// user", some "// data\r\n// end"⟩⟩])
      "# user\nstruct User \x7b // data\n  1: i64 id // key\n\x7d // end\n".toList := by
    refine ⟨[], _, _, [_], .inl rfl, ?_, fun _ => rfl, .cons ?_ .nil,
      by rw [List.flatten_singleton]; exact rows⟩
    · decide +kernel
    · exact ⟨_, .cons ⟨field, by decide +kernel⟩ .nil, _, _, [], rfl, rfl, .inl rfl,
        by decide +kernel, rfl⟩
  exact parse_rows wellFormed inRows {}

end Parser
end ThriftIdl
