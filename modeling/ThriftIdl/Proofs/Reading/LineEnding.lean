import ThriftIdl.Proofs.Document
import ThriftIdl.Proofs.Reading.Progress
import ThriftIdl.Proofs.Rule.Parallel

/-!
# Independence of line endings

The rules of the grammar read a text and the same text with other line endings alike: no token has a
line break in it, and the gaps between tokens end and are cut into lines at the same places. Only
the comments that go over several lines differ, and they do no more once their line endings are read
as line feeds. Main statement: `parse_lineEnding`.
-/

namespace ThriftIdl

open Source (Cursor Input LineEnding)

/-! ## Comments with line feeds -/

/-- Comments with their line endings read as line feeds. -/
def Comments.lineFeeds (comments : Comments) : Comments where
  head := comments.head.map Comment.lineFeeds
  tail := comments.tail.map Comment.lineFeeds

/-- A field with the line endings of its comments read as line feeds. -/
def Field.lineFeeds (field : Field) : Field :=
  { field with comments := field.comments.lineFeeds }

/-- A written enumeration item with the line endings of its comments read as line feeds. -/
def WrittenItem.lineFeeds (item : WrittenItem) : WrittenItem :=
  { item with comments := item.comments.lineFeeds }

/-- An enumeration item with the line endings of its comments read as line feeds. -/
def EnumItem.lineFeeds (item : EnumItem) : EnumItem :=
  { item with comments := item.comments.lineFeeds }

/-- A function with the line endings of the comments in it read as line feeds. -/
def Function.lineFeeds (function : Function) : Function :=
  { function with
    arguments := function.arguments.map Field.lineFeeds
    throws := function.throws.map Field.lineFeeds
    comments := function.comments.lineFeeds }

/-- A declaration with the line endings of the comments in it read as line feeds. -/
def Declaration.lineFeeds : Declaration → Declaration
  | scope declared => .scope { declared with comments := declared.comments.lineFeeds }
  | inclusion declared => .inclusion { declared with comments := declared.comments.lineFeeds }
  | typedef declared => .typedef { declared with comments := declared.comments.lineFeeds }
  | constant declared => .constant { declared with comments := declared.comments.lineFeeds }
  | enumeration declared =>
    .enumeration { declared with
      items := declared.items.map EnumItem.lineFeeds
      comments := declared.comments.lineFeeds }
  | record kind declared =>
    .record kind { declared with
      fields := declared.fields.map Field.lineFeeds
      comments := declared.comments.lineFeeds }
  | service declared =>
    .service { declared with
      functions := .ofList (declared.functions.items.map Function.lineFeeds)
      comments := declared.comments.lineFeeds }

/-- A document with the line endings of the comments in it read as line feeds. -/
def Document.lineFeeds (document : Document) : Document where
  declarations := .ofList (document.declarations.items.map Declaration.lineFeeds)

/-- Two readings of the same declarations on the same lines, with the same error if there is one. -/
structure Reading.Alike (reading other : Reading) : Prop where
  declared : other.declared.map (Prod.map id Declaration.lineFeeds) =
    reading.declared.map (Prod.map id Declaration.lineFeeds)
  failure : Option.Rel (fun error error' => error'.message = error.message ∧
    error'.line = error.line) reading.failure other.failure

/-- The line breaks in comments have no part in the key of a declaration. -/
@[simp] theorem Declaration.key_lineFeeds (declared : Declaration) :
    declared.lineFeeds.key = declared.key := by
  cases declared <;> rfl

/-- What belongs to two pieces says the same if the pieces do. -/
theorem Comment.lineFeeds_append? {first first' second second' : Option String}
    (same : first'.map lineFeeds = first.map lineFeeds)
    (same' : second'.map lineFeeds = second.map lineFeeds) :
    (append? first' second').map lineFeeds = (append? first second).map lineFeeds := by
  cases first with
  | none =>
      cases first' with
      | none => exact same'
      | some _ => cases same
  | some first =>
      cases first' with
      | none => cases same
      | some first' =>
          cases second with
          | none =>
              cases second' with
              | none => exact same
              | some _ => cases same'
          | some second =>
              cases second' with
              | none => cases same'
              | some second' =>
                  have first_eq := lineFeeds_eq_iff.mp (Option.some.inj same)
                  have second_eq := lineFeeds_eq_iff.mp (Option.some.inj same')
                  refine congrArg some (lineFeeds_eq_iff.mpr ?_)
                  simp only [lineFeeds_join, List.map_cons, List.map_nil, first_eq, second_eq]

/-- The numbers that are repeated do not depend on the comments of the fields. -/
theorem repeatedIdAfter?_lineFeeds (seen : List Int64) (fields : List Field) :
    repeatedIdAfter? seen (fields.map Field.lineFeeds) = repeatedIdAfter? seen fields := by
  induction fields generalizing seen with
  | nil => rfl
  | cons field rest ih =>
      have id : field.lineFeeds.id = field.id := rfl
      rw [List.map_cons, repeatedIdAfter?, repeatedIdAfter?, id]
      cases field.id with
      | none => exact ih seen
      | some id => simp only [ih, Field.lineFeeds]

/-- Items are numbered in the same way whatever their comments are. -/
theorem numberItems_lineFeeds (next : Option Int64) (written : List WrittenItem) :
    numberItems next (written.map WrittenItem.lineFeeds) =
      (numberItems next written).map (List.map EnumItem.lineFeeds) := by
  induction written generalizing next with
  | nil => rfl
  | cons item rest ih =>
      have value : item.lineFeeds.value = item.value := rfl
      rw [List.map_cons, numberItems, numberItems, value]
      cases item.value <|> next with
      | none => rfl
      | some value =>
          simp only [ih]
          cases numberItems (nextValue? value) rest <;> rfl

namespace Parser

variable {ending : LineEnding} {source : List Char} {Value : Type}

/-! ## Tokens -/

/-- A text starts with the same words with any line ending. -/
theorem startsWithWord_write {word : List Char} (inLine : '\n' ∉ word ∧ '\r' ∉ word)
    (text : List Char) : startsWithWord word (ending.write text) = startsWithWord word text := by
  rw [startsWithWord, startsWithWord, LineEnding.isPrefixOf_write inLine.1 inLine.2]
  cases begins : word.isPrefixOf text with
  | false => rfl
  | true =>
      obtain ⟨more, rfl⟩ := List.isPrefixOf_iff_prefix.mp begins
      rw [LineEnding.write_append, LineEnding.write_of_notMem ending inLine.1, List.drop_left,
        List.drop_left, LineEnding.head?_any_write ⟨rfl, rfl⟩]

/-- The segments of a path are the same with any line ending after it. -/
theorem pathSegments_write (ending : LineEnding) {text : List Char}
    (begins : text.head?.any isIdentStart) :
    pathSegments (ending.write text) = pathSegments text ∧
      ∃ more, text = ['.'].intercalate (pathSegments text) ++ more ∧
        '\n' ∉ ['.'].intercalate (pathSegments text) := by
  obtain ⟨nonempty, identifiers, more, split, ended⟩ := Grammar.pathSegments_spec begins
  have inLine : '\n' ∉ ['.'].intercalate (pathSegments text) := fun member =>
    absurd (Grammar.isNameChar_of_mem_intercalate identifiers _ member) (by decide)
  have endedToo : Grammar.pathRunsOn (ending.write more) = false := by
    cases more with
    | nil => rfl
    | cons char rest =>
        by_cases feed : char = '\n'
        · subst feed
          cases ending <;> rfl
        · rw [LineEnding.write_cons ending feed]
          by_cases dot : char = '.'
          · subst dot
            cases rest with
            | nil => exact ended
            | cons start others =>
                by_cases feed : start = '\n'
                · subst feed
                  cases ending <;> rfl
                · rw [LineEnding.write_cons ending feed]
                  exact ended
          · rw [Grammar.pathRunsOn.eq_2 _ _ fun _ _ same => absurd same dot] at ended ⊢
            exact ended
  refine ⟨?_, more, split, inLine⟩
  conv_lhs => rw [split, LineEnding.write_append, LineEnding.write_of_notMem ending inLine]
  exact Grammar.pathSegments_intercalate nonempty identifiers endedToo

namespace InParallel

private theorem expected (what : Expectation) {read : Value → Value} :
    InParallel ending source read (expected what) (expected what) :=
  missFor _

private theorem rejected (why : Rejection) {read : Value → Value} :
    InParallel ending source read (rejected why) (rejected why) :=
  missFor _

private theorem takeWhile {test : Char → Bool} (inLine : LineEnding.Within test) :
    ReadAlike ending source (takeWhile test) := by
  intro state state' parallel
  have split := (List.takeWhile_append_dropWhile (p := test) (l := state.input.rest)).symm
  have moved := parallel.advance split fun member =>
    absurd (List.mem_takeWhile_imp member) (by simp [inLine.1])
  have run : state'.input.rest.takeWhile test = state.input.rest.takeWhile test := by
    rw [parallel.rest, LineEnding.takeWhile_write inLine]
  have result (state : State) : Parser.takeWhile test state =
      .ok (state.input.rest.takeWhile test)
        { state with input := state.input.advance (state.input.rest.takeWhile test).length } := rfl
  rw [result, result, run]
  exact .ok rfl moved

private theorem keyword {word : String} (inLine : '\n' ∉ word.toList ∧ '\r' ∉ word.toList) :
    ReadAlike ending source (keyword word) := by
  intro state state' parallel
  have result (state : State) : Parser.keyword word state =
      (if startsWithWord word.toList state.input.rest then do
        advance word.toList.length
        Parser.skip
      else Parser.expected (.keyword word)) state := rfl
  rw [result, result, parallel.rest, startsWithWord_write inLine]
  by_cases begins : startsWithWord word.toList state.input.rest
  · rw [if_pos begins]
    simp only [startsWithWord, Bool.and_eq_true, List.isPrefixOf_iff_prefix] at begins
    obtain ⟨⟨more, split⟩, -⟩ := begins
    exact skip (parallel.advance split.symm inLine.1)
  · rw [if_neg begins]
    exact expected _ parallel

/-- A step over a character that passes a test, or else something else. -/
theorem oneOf {test : Char → Bool} (inLine : LineEnding.Within test) {next other : Rule Value}
    {read : Value → Value} (later : InParallel ending source read next next)
    (otherwise : InParallel ending source read other other) :
    InParallel ending source read
      (do if (← peek).any test then do advance 1; next else other)
      (do if (← peek).any test then do advance 1; next else other) := by
  intro state state' parallel
  have result (state : State) :
      (do if (← peek).any test then do advance 1; next else other : Rule Value) state =
      (if state.input.rest.head?.any test then do advance 1; next else other : Rule Value) state :=
    rfl
  rw [result, result, parallel.any_head? inLine]
  by_cases passes : state.input.rest.head?.any test
  · rw [if_pos passes]
    exact later (parallel.advance_one inLine passes)
  · rw [if_neg passes]
    exact otherwise parallel

/-- A step over one of two words of the same length, or else something else. -/
theorem eitherWord {first second : List Char} (inLine : '\n' ∉ first ∧ '\r' ∉ first)
    (inLine' : '\n' ∉ second ∧ '\r' ∉ second) (length : second.length = first.length)
    {next other : Rule Value} {read : Value → Value}
    (later : InParallel ending source read next next)
    (otherwise : InParallel ending source read other other) :
    InParallel ending source read
      (do
        if (← startsWith first) || (← startsWith second) then
          advance first.length
          next
        else other)
      (do
        if (← startsWith first) || (← startsWith second) then
          advance first.length
          next
        else other) := by
  intro state state' parallel
  have result (state : State) :
      (do
        if (← startsWith first) || (← startsWith second) then
          advance first.length
          next
        else other : Rule Value) state =
      (if first.isPrefixOf state.input.rest || second.isPrefixOf state.input.rest then do
        advance first.length
        next
      else other : Rule Value) state := rfl
  rw [result, result, parallel.rest, LineEnding.isPrefixOf_write inLine.1 inLine.2,
    LineEnding.isPrefixOf_write inLine'.1 inLine'.2]
  by_cases begins : first.isPrefixOf state.input.rest || second.isPrefixOf state.input.rest
  · rw [if_pos begins]
    rw [Bool.or_eq_true, List.isPrefixOf_iff_prefix, List.isPrefixOf_iff_prefix] at begins
    rcases begins with ⟨more, split⟩ | ⟨more, split⟩
    · exact later (parallel.advance split.symm inLine.1)
    · have moved := parallel.advance split.symm inLine'.1
      rw [length] at moved
      exact later moved
  · rw [if_neg begins]
    exact otherwise parallel

private theorem mark {char : Char} (inLine : char ≠ '\n' ∧ char ≠ '\r') :
    ReadAlike ending source (mark char) := by
  have test (next : Option Char) : next = some char ↔ next.any (· == char) := by
    cases next <;> simp
  have result : Parser.mark char = (do
      if (← peek).any (· == char) then do
        advance 1
        Parser.skip
      else Parser.expected (.mark char)) := by
    simp only [Parser.mark, test]
  rw [result]
  exact oneOf ⟨by simpa using inLine.1.symm, by simpa using inLine.2.symm⟩ skip (expected _)

private theorem close {char : Char} (inLine : char ≠ '\n' ∧ char ≠ '\r') :
    ReadAlike ending source (close char) :=
  discardHead.bindSame fun _ => mark inLine

private theorem separator : ReadAlike ending source separator := by
  have none : ReadAlike ending source (Pure.pure () : Rule Unit) := .pure rfl
  exact oneOf ⟨rfl, rfl⟩ skip none

private theorem optionalChar {test : Char → Bool} (inLine : LineEnding.Within test) :
    ReadAlike ending source (optionalChar test) := by
  intro state state' parallel
  have result (state : State) : Parser.optionalChar test state =
      (if state.input.rest.head?.any test then do
        advance 1
        return state.input.rest.head?.toList
      else return [] : Rule (List Char)) state := by
    have peeked : Parser.peek state = .ok state.input.rest.head? state := rfl
    rw [Parser.optionalChar, run_bind, peeked]
    cases state.input.rest.head? <;> rfl
  rw [result, result, parallel.any_head? inLine]
  by_cases passes : state.input.rest.head?.any test
  · have head : state'.input.rest.head? = state.input.rest.head? := by
      obtain ⟨first, head, passes⟩ := (Option.any_eq_true _ _).mp passes
      have noFeed : first ≠ '\n' := by
        rintro rfl
        rw [inLine.1] at passes
        cases passes
      rw [parallel.rest, LineEnding.head?_write, head, Option.map_some, if_neg noFeed]
    rw [if_pos passes, if_pos passes, head]
    exact .ok rfl (parallel.advance_one inLine passes)
  · rw [if_neg passes, if_neg passes]
    exact .ok rfl parallel

private theorem name : ReadAlike ending source name := by
  intro state state' parallel
  have result (state : State) : Parser.name state =
      (if state.input.rest.head?.any isIdentStart then do
        let chars ← Parser.takeWhile isNameChar
        Parser.skip
        return String.ofList chars
      else Parser.expected .identifier) state := rfl
  rw [result, result, parallel.any_head? ⟨rfl, rfl⟩]
  exact ite .rfl (fun _ => (takeWhile ⟨rfl, rfl⟩).bindSame fun chars => skip.bindSame fun _ =>
    .pure rfl) (fun _ => expected _) parallel

private theorem path : ReadAlike ending source path := by
  intro state state' parallel
  have result (state : State) : Parser.path state =
      (if state.input.rest.head?.any isIdentStart then do
        let segments := pathSegments state.input.rest
        advance (['.'].intercalate segments).length
        Parser.skip
        return segments.map String.ofList
      else Parser.expected .identifier) state := by
    change (if state.input.rest.head?.any isIdentStart then _ else _ : Rule (List String)) state = _
    split <;> rfl
  rw [result, result, parallel.any_head? ⟨rfl, rfl⟩]
  by_cases begins : state.input.rest.head?.any isIdentStart
  · obtain ⟨same, more, split, inLine⟩ := pathSegments_write ending begins
    rw [if_pos begins, if_pos begins, parallel.rest, same]
    exact skip.bindSame (fun _ => .pure rfl) (parallel.advance split inLine)
  · rw [if_neg begins, if_neg begins]
    exact expected _ parallel

/-! ## Numbers and strings -/

private theorem endOfNumber : ReadAlike ending source endOfNumber := by
  intro state state' parallel
  have result (state : State) : Parser.endOfNumber state =
      (if state.input.rest.head?.any isIdentChar then Parser.expected .endOfNumber
      else Parser.skip) state := rfl
  rw [result, result, parallel.any_head? ⟨rfl, rfl⟩]
  exact ite .rfl (fun _ => expected _) (fun _ => skip) parallel

private theorem hexNumber : ReadAlike ending source hexNumber := by
  refine (optionalChar ⟨rfl, rfl⟩).bindSame fun sign => ?_
  have lower : '\n' ∉ ['0', 'x'] ∧ '\r' ∉ ['0', 'x'] := by decide
  have upper : '\n' ∉ ['0', 'X'] ∧ '\r' ∉ ['0', 'X'] := by decide
  refine eitherWord lower upper rfl ?_ (expected _)
  refine (takeWhile ⟨rfl, rfl⟩).bindSame fun digits => ?_
  cases Number.ofDigits? 16 digits with
  | none => exact expected _
  | some magnitude =>
      exact ite .rfl (fun _ => endOfNumber.bindSame fun _ => .pure rfl) fun _ => rejected _

private theorem exponentNumber : ReadAlike ending source exponentNumber := by
  refine (optionalChar ⟨rfl, rfl⟩).bindSame fun sign => (takeWhile ⟨rfl, rfl⟩).bindSame
    fun mantissa => ite .rfl (fun _ => expected _) fun _ => (optionalChar ⟨rfl, rfl⟩).bindSame
    fun letter => ite .rfl (fun _ => expected _) fun _ => (optionalChar ⟨rfl, rfl⟩).bindSame
    fun second => (takeWhile ⟨rfl, rfl⟩).bindSame fun digits => ite .rfl (fun _ => expected _)
    fun _ => ?_
  cases Number.Binary64.ofNumeral? (sign ++ mantissa ++ letter ++ second ++ digits) with
  | none => exact expected _
  | some number => exact endOfNumber.bindSame fun _ => .pure rfl

private theorem decimalNumber : ReadAlike ending source decimalNumber := by
  refine (optionalChar ⟨rfl, rfl⟩).bindSame fun sign => (takeWhile ⟨rfl, rfl⟩).bindSame
    fun body => ite .rfl (fun _ => expected _) fun _ => ?_
  cases decimalLiteral? (sign ++ body) with
  | none => exact expected _
  | some literal => exact endOfNumber.bindSame fun _ => .pure rfl

private theorem decimalInteger : ReadAlike ending source decimalInteger := by
  refine decimalNumber.bindSame fun literal => ?_
  cases literal with
  | int value => exact .pure rfl
  | _ => exact expected _

private theorem integer : ReadAlike ending source integer := by
  refine choice _ ?_ ?_
  all_goals
    simp only [List.forall_mem_cons, List.not_mem_nil, false_implies, implies_true, and_true]
  · exact ⟨.hexNumber, .decimalInteger⟩
  · exact ⟨hexNumber, decimalInteger⟩

/-- A text without quotes has no strings in it. -/
theorem quoted (escapes : Bool) : ReadAlike ending source (quoted escapes) := by
  intro state state' parallel
  have missed (state : State) (plain : state.input.rest.head?.any isQuote = false) :
      Parser.quoted escapes state = Parser.expected .string state := by
    have result : Parser.quoted escapes state = quotedFrom escapes state.input.rest state := rfl
    rw [result]
    cases rest : state.input.rest with
    | nil => rfl
    | cons first others =>
        have noQuote : isQuote first = false := by simpa [rest] using plain
        rw [quotedFrom, if_neg (ne_true_of_eq_false noQuote)]
  have plain : state.input.rest.head?.any isQuote = false := by
    cases rest : state.input.rest with
    | nil => rfl
    | cons first others => exact (parallel.plain_rest first (by simp [rest])).2
  rw [missed _ plain, missed _ ((parallel.any_head? ⟨rfl, rfl⟩).trans plain)]
  exact expected _ parallel

private theorem stringLiteral : ReadAlike ending source stringLiteral := by
  refine (quoted true).bindSame fun raw => ?_
  cases Text.unescape raw with
  | none => exact rejected _
  | some chars => exact skip.bindSame fun _ => .pure rfl

/-- One of two keywords, each of which stands for a value. -/
theorem words {first second : String} (inLine : '\n' ∉ first.toList ∧ '\r' ∉ first.toList)
    (inLine' : '\n' ∉ second.toList ∧ '\r' ∉ second.toList) {value value' : Value} :
    ReadAlike ending source (do
      match ← Parser.probe (Parser.keyword first) with
      | some _ => return value
      | none =>
        Parser.keyword second
        return value') := by
  refine (keyword inLine).probe.bind fun {found found'} same => ?_
  cases found with
  | none =>
      cases found' with
      | none => exact (keyword inLine').bindSame fun _ => .pure rfl
      | some _ => cases same
  | some _ =>
      cases found' with
      | none => cases same
      | some _ => exact .pure rfl

/-! ## Types and literals -/

private theorem typeForms {inner : Rule TypeRef} (same : ReadAlike ending source inner) :
    ∀ rule ∈ typeForms inner, ReadAlike ending source rule := by
  refine forall_typeForms ?map ?sequence (name.map _)
  case map =>
    exact (keyword (by decide)).bindSame fun _ => (mark (by decide)).bindSame fun _ =>
      same.bindSame fun _ => separator.bindSame fun _ => same.bindSame fun _ =>
      (mark (by decide)).bindSame fun _ => .pure rfl
  case sequence =>
    exact (words (by decide) (by decide)).bindSame fun _ => (mark (by decide)).bindSame fun _ =>
      same.bindSame fun _ => (mark (by decide)).bindSame fun _ => .pure rfl

/-- A rule whose bound on the nesting is the length of the text. -/
theorem nested {what : Expectation} {forms : Rule Value → List (Rule Value)}
    {within : Nat → Rule Value} (nested : Nested what forms within) {rule : Rule Value}
    (bounded : ∀ state, rule state = within (state.input.rest.length + 1) state)
    (zero : ReadAlike ending source (within 0))
    (step : ∀ {inner : Rule Value}, Formed inner → Progresses inner →
      ReadAlike ending source inner → ∀ rule ∈ forms inner, ReadAlike ending source rule) :
    ReadAlike ending source rule := by
  have each (bound : Nat) : ReadAlike ending source (within bound) := by
    induction bound with
    | zero => exact zero
    | succ bound ih =>
        rw [nested.step]
        exact choice _ (nested.formedForms (nested.formed bound))
          (step (nested.formed bound) (nested.progresses bound) ih)
  intro state state' parallel
  have longer := ending.length_le_write state.input.rest
  rw [← parallel.rest] at longer
  rw [bounded, bounded, nested.within_eq (Nat.lt_succ_self _) (Nat.lt_succ_of_le longer)]
  exact each _ parallel

private theorem typeRef : ReadAlike ending source typeRef :=
  nested nested_type (fun _ => rfl) (expected _) fun _ _ same => typeForms same

private theorem literalForms {inner : Rule Literal} (formed : Formed inner)
    (progresses : Progresses inner)
    (same : ReadAlike ending source inner) :
    ∀ rule ∈ literalForms inner, ReadAlike ending source rule := by
  refine forall_literalForms (hexNumber.map _) (exponentNumber.map _) decimalNumber
    (words (by decide) (by decide)) stringLiteral ?list ?map (path.map _)
  case list =>
    have item : ReadAlike ending source (listItem inner) :=
      same.bindSame fun _ => separator.bindSame fun _ => .pure rfl
    exact (mark (by decide)).bindSame fun _ =>
      (item.manySame formed.listItem (progresses_listItem progresses)).bindSame fun _ =>
      (close (by decide)).bindSame fun _ => .pure rfl
  case map =>
    have entry : ReadAlike ending source (mapEntry inner) :=
      same.bindSame fun _ => (mark (by decide)).bindSame fun _ => same.bindSame fun _ =>
        separator.bindSame fun _ => .pure rfl
    exact (mark (by decide)).bindSame fun _ =>
      (entry.manySame formed.mapEntry (progresses_mapEntry formed progresses)).bindSame fun _ =>
      (close (by decide)).bindSame fun _ => .pure rfl

private theorem literal : ReadAlike ending source literal :=
  nested nested_literal (fun _ => rfl) (expected _) literalForms

private theorem assignment : ReadAlike ending source assignment :=
  ((mark (by decide)).bindSame fun _ => literal).attemptSame
    ((Formed.mark _).bind fun _ => .literal)

/-! ## Items -/

private theorem enumValue (item : String) (written : Option Literal) :
    ReadAlike ending source (enumValue item written) := by
  unfold Parser.enumValue
  split
  · exact .pure rfl
  · split
    · exact .pure rfl
    · exact rejected _

private theorem enumItem : InParallel ending source WrittenItem.lineFeeds enumItem enumItem := by
  refine drainHead.bind fun head => name.bindSame fun _ => assignment.bindSame fun _ =>
    (enumValue _ _).bindSame fun _ => separator.bindSame fun _ => drainTail.bind fun tail =>
    .pure ?_
  simp only [WrittenItem.lineFeeds, Comments.lineFeeds, head, tail]

private theorem field : InParallel ending source Field.lineFeeds field field := by
  refine drainHead.bind fun head => ?_
  refine (attemptSame .fieldId ?id).bindSame fun _ =>
    (attemptSame .qualifier (words (by decide) (by decide))).bindSame fun _ =>
    typeRef.bindSame fun _ => name.bindSame fun _ => assignment.bindSame fun _ =>
    separator.bindSame fun _ => drainTail.bind fun tail => .pure ?_
  case id => exact integer.bindSame fun _ => (mark (by decide)).bindSame fun _ => .pure rfl
  simp only [Field.lineFeeds, Comments.lineFeeds, head, tail]

/-- Fields are checked alike whatever their comments are. -/
theorem checkIds (duplicates : DuplicateIds) (owner : FieldOwner) {fields fields' : List Field}
    (same : fields'.map Field.lineFeeds = fields.map Field.lineFeeds) :
    InParallel ending source id (checkIds duplicates owner fields)
      (checkIds duplicates owner fields') := by
  have repeated : repeatedId? fields' = repeatedId? fields := by
    rw [repeatedId?, repeatedId?, ← repeatedIdAfter?_lineFeeds, same, repeatedIdAfter?_lineFeeds]
  unfold Parser.checkIds
  rw [repeated]
  cases duplicates with
  | keep => exact .pure rfl
  | reject =>
      cases repeatedId? fields with
      | none => exact .pure rfl
      | some repeated => exact rejected _

private theorem fieldList (duplicates : DuplicateIds) :
    InParallel ending source (List.map Field.lineFeeds)
      (fieldList duplicates) (fieldList duplicates) :=
  (mark (by decide)).bindSame fun _ => (many .field progresses_field field).bind fun fields =>
    (close (by decide)).bindSame fun _ => (checkIds _ _ fields).bind fun _ => .pure fields

private theorem throwsClause (duplicates : DuplicateIds) :
    InParallel ending source (List.map Field.lineFeeds) (throwsClause duplicates)
      (throwsClause duplicates) :=
  (keyword (by decide)).bindSame fun _ => fieldList duplicates

private theorem function (duplicates : DuplicateIds) :
    InParallel ending source Function.lineFeeds (function duplicates) (function duplicates) := by
  refine drainHead.bind fun head => (attemptSame (.keyword _) (keyword (by decide))).bindSame
    fun _ => typeRef.bindSame fun _ => name.bindSame fun _ => (fieldList _).bind fun arguments =>
    (attempt (.throwsClause _) (throwsClause _)).bind fun {throws throws'} same =>
    separator.bindSame fun _ => drainTail.bind fun tail => .pure ?_
  have listed : (throws'.getD []).map Field.lineFeeds = (throws.getD []).map Field.lineFeeds := by
    have mapped (throws : Option (List Field)) : (throws.getD []).map Field.lineFeeds =
        (throws.map (List.map Field.lineFeeds)).getD [] := (Option.getD_map _ _ _).symm
    rw [mapped, mapped, same]
  simp only [Function.lineFeeds, Comments.lineFeeds, head, tail, arguments, listed]

/-! ## Declarations -/

private theorem namespaceForm :
    InParallel ending source Declaration.lineFeeds namespaceForm namespaceForm := by
  refine drainHead.bind fun head => (keyword (by decide)).bindSame fun _ => ?_
  have scope : ReadAlike ending source namespaceScope :=
    (takeWhile ⟨rfl, rfl⟩).bindSame fun _ => ite .rfl (fun _ => expected _) fun _ =>
      skip.bindSame fun _ => .pure rfl
  refine scope.bindSame fun _ => path.bindSame fun _ => separator.bindSame fun _ =>
    drainTail.bind fun tail => .pure ?_
  simp only [Declaration.lineFeeds, Comments.lineFeeds, head, tail]

private theorem includeForm :
    InParallel ending source Declaration.lineFeeds includeForm includeForm := by
  refine drainHead.bind fun head => (keyword (by decide)).bindSame fun _ =>
    (quoted _).bindSame fun _ => skip.bindSame fun _ => separator.bindSame fun _ =>
    drainTail.bind fun tail => .pure ?_
  simp only [Declaration.lineFeeds, Comments.lineFeeds, head, tail]

private theorem typedefForm :
    InParallel ending source Declaration.lineFeeds typedefForm typedefForm := by
  refine drainHead.bind fun head => (keyword (by decide)).bindSame fun _ =>
    typeRef.bindSame fun _ => name.bindSame fun _ => separator.bindSame fun _ =>
    drainTail.bind fun tail => .pure ?_
  simp only [Declaration.lineFeeds, Comments.lineFeeds, head, tail]

private theorem constantForm :
    InParallel ending source Declaration.lineFeeds constantForm constantForm := by
  refine drainHead.bind fun head => (keyword (by decide)).bindSame fun _ =>
    typeRef.bindSame fun _ => name.bindSame fun _ => (mark (by decide)).bindSame fun _ =>
    literal.bindSame fun _ => separator.bindSame fun _ => drainTail.bind fun tail => .pure ?_
  simp only [Declaration.lineFeeds, Comments.lineFeeds, head, tail]

/-- The names of two blocks are the same, and the comments after their braces say the same. -/
theorem blockHeader {word : String} (inLine : '\n' ∉ word.toList ∧ '\r' ∉ word.toList) :
    InParallel ending source (Prod.map id (Option.map Comment.lineFeeds)) (blockHeader word)
      (blockHeader word) :=
  (keyword inLine).bindSame fun _ => name.bindSame fun _ => (mark (by decide)).bindSame fun _ =>
    drainTail.bind fun tail => .pure (congrArg (Prod.mk _) tail)

private theorem enumValues (enumeration : String) {written written' : List WrittenItem}
    (same : written'.map WrittenItem.lineFeeds = written.map WrittenItem.lineFeeds) :
    InParallel ending source (List.map EnumItem.lineFeeds) (enumValues enumeration written)
      (enumValues enumeration written') := by
  have numbered := numberItems_lineFeeds (some 0) written
  rw [← same, numberItems_lineFeeds] at numbered
  unfold Parser.enumValues
  cases here : numberItems (some 0) written <;> cases there : numberItems (some 0) written' <;>
    rw [here, there] at numbered
  case ok.ok => exact .pure (Except.ok.inj numbered)
  case error.error =>
    cases numbered
    exact missFor _
  case ok.error => cases numbered
  case error.ok => cases numbered

private theorem enumerationForm :
    InParallel ending source Declaration.lineFeeds enumerationForm enumerationForm := by
  refine drainHead.bind fun head => (blockHeader (by decide)).bind
    fun {header header'} same => (many .enumItem progresses_enumItem enumItem).bind
    fun written => (close (by decide)).bindSame fun _ => separator.bindSame fun _ => ?_
  obtain ⟨name, headerTail⟩ := header
  obtain ⟨name', headerTail'⟩ := header'
  obtain ⟨rfl, sameTail⟩ := Prod.mk.inj same
  refine (enumValues _ written).bind fun items => drainTail.bind fun tail => .pure ?_
  simp only [Declaration.lineFeeds, Comments.lineFeeds, head, items, id_eq,
    Comment.lineFeeds_append? sameTail tail]

private theorem recordForm (duplicates : DuplicateIds) (kind : RecordKind) :
    InParallel ending source Declaration.lineFeeds (recordForm duplicates kind)
      (recordForm duplicates kind) := by
  have inLine : '\n' ∉ kind.keyword.toList ∧ '\r' ∉ kind.keyword.toList := by
    cases kind <;> decide
  refine drainHead.bind fun head => (blockHeader inLine).bind fun {header header'} same =>
    (many .field progresses_field field).bind fun fields => (close (by decide)).bindSame fun _ => ?_
  obtain ⟨name, headerTail⟩ := header
  obtain ⟨name', headerTail'⟩ := header'
  obtain ⟨rfl, sameTail⟩ := Prod.mk.inj same
  refine (checkIds _ _ fields).bind fun _ => separator.bindSame fun _ =>
    drainTail.bind fun tail => .pure ?_
  simp only [Declaration.lineFeeds, Comments.lineFeeds, head, fields, id_eq,
    Comment.lineFeeds_append? sameTail tail]

private theorem serviceForm (duplicates : DuplicateIds) :
    InParallel ending source Declaration.lineFeeds (serviceForm duplicates)
      (serviceForm duplicates) := by
  have parent : ReadAlike ending source parentClause :=
    (keyword (by decide)).bindSame fun _ => path
  refine drainHead.bind fun head => (keyword (by decide)).bindSame fun _ =>
    name.bindSame fun _ => (attemptSame ((Formed.keyword _).bind fun _ => .path) parent).bindSame
    fun _ => (mark (by decide)).bindSame fun _ => drainTail.bind fun headerTail =>
    (many (.function _) (progresses_function _) (function _)).bind fun functions =>
    (close (by decide)).bindSame fun _ => separator.bindSame fun _ =>
    drainTail.bind fun tail => .pure ?_
  have keeps (function : Function) : function.lineFeeds.name = function.name := rfl
  simp only [Declaration.lineFeeds, Comments.lineFeeds, head, ← Keyed.items_ofList_map keeps,
    functions, Comment.lineFeeds_append? headerTail tail]

private theorem declaration (duplicates : DuplicateIds) :
    InParallel ending source Declaration.lineFeeds (declaration duplicates)
      (declaration duplicates) := by
  exact choice _ (Formed.declarationForms _) (forall_declarationForms namespaceForm includeForm
    typedefForm constantForm enumerationForm (recordForm _) (serviceForm _))

end InParallel

/-! ## Readings -/

namespace State.Parallel

variable {state other : State}

/-- Parallel states stand on the same line. -/
theorem line (parallel : state.Parallel ending source other) :
    other.input.cursor.line = state.input.cursor.line := by
  obtain ⟨before, split, cursor, place⟩ := parallel.place
  have noReturn : '\r' ∉ before := fun member =>
    (parallel.plain _ (by rw [split]; exact List.mem_append_left _ member)).1 rfl
  have lines := ending.count_write noReturn
  rw [place, cursor, Cursor.start_pass, Cursor.start_pass, Cursor.line, Cursor.line]
  simp only [lines, List.count_eq_zero.mpr noReturn]
  cases ending <;> simp

private theorem atEnd (parallel : state.Parallel ending source other) :
    other.input.atEnd = state.input.atEnd := by
  rw [Input.atEnd, Input.atEnd, parallel.rest, Bool.eq_iff_iff, List.isEmpty_iff, List.isEmpty_iff,
    LineEnding.write_eq_nil]

/-- Errors in parallel states have the same message and the same line. -/
theorem syntaxError (parallel : state.Parallel ending source other) {last last' : Miss}
    (same : last.Parallel ending source last') (width : Nat) :
    (other.syntaxError width last').message = (state.syntaxError width last).message ∧
      (other.syntaxError width last').line = (state.syntaxError width last).line := by
  exact ⟨(Miss.Parallel.reported parallel.misses same).message_eq, parallel.line⟩

end State.Parallel

private theorem openingState_parallel (ending : LineEnding) {source : String}
    (plain : ∀ char ∈ source.toList, char ≠ '\r' ∧ isQuote char = false) :
    (openingState source).Parallel ending source.toList (openingState (ending.rewrite source)) := by
  have start : (State.ofString source).Parallel ending source.toList
      (State.ofString (ending.rewrite source)) := by
    refine ⟨plain, ⟨[], rfl, rfl, ?_⟩, .refl _, .refl _, .nil⟩
    simp [State.ofString, Input.ofString, LineEnding.rewrite]
  refine State.Parallel.skipLeading ?_
  have mark (next : Option Char) : next = some '\ufeff' ↔ next.any (· == '\ufeff') := by
    cases next <;> simp
  have inLine : LineEnding.Within (· == '\ufeff') := ⟨rfl, rfl⟩
  unfold skipByteOrderMark
  simp only [mark, Input.peek, start.any_head? inLine]
  split
  · next marked => exact start.advance_one inLine marked
  · exact start

/-- **Declarations are read alike** from parallel states on. -/
theorem declarations_parallel (options : Options) {state other : State}
    (parallel : state.Parallel ending source other) :
    (declarations options state).Alike (declarations options other) := by
  have bounded (length : Nat) {state other : State} (short : state.input.rest.length < length)
      (parallel : state.Parallel ending source other) :
      (declarations options state).Alike (declarations options other) := by
    induction length generalizing state other with
    | zero => omega
    | succ length ih =>
        rw [declarations_fixed, declarationsRound, declarationsRound, parallel.atEnd]
        split
        · exact ⟨rfl, .none⟩
        · obtain ⟨_, next, _, next', result, result', same, after⟩ |
              ⟨_, _, _, _, result, result', miss, after⟩ :=
            (InParallel.declaration options.duplicates).results (parallel.keeping .nil)
          · have shorter : next.input.rest.length < state.input.rest.length :=
              (progresses_declaration _ result).shorter
            have later := ih (by omega) after
            simp only [result, result']
            refine ⟨?_, later.failure⟩
            simp only [List.map_cons, later.declared, Prod.map, same, parallel.line]
          · simp only [result, result']
            exact ⟨rfl, .some (after.syntaxError miss _)⟩
  exact bounded _ (Nat.lt_succ_self _) parallel

end Parser

/-- The documents of readings of the same declarations are the same. -/
theorem Document.lineFeeds_ofList {declared declared' : List Declaration}
    (same : declared'.map Declaration.lineFeeds = declared.map Declaration.lineFeeds) :
    (ofList declared').lineFeeds = (ofList declared).lineFeeds := by
  have items (declared : List Declaration) :
      (ofList declared).declarations.items.map Declaration.lineFeeds =
        (Keyed.ofList (declared.map Declaration.lineFeeds) : Keyed Declaration.key).items := by
    rw [Keyed.items_ofList_map Declaration.key_lineFeeds, ofList, items_insertAll, Keyed.ofList,
      Keyed.items_insertAll]
    rfl
  rw [lineFeeds, lineFeeds, items, items, same]

namespace Parser

/-- **What is read does not depend on line endings.** Let a source text have no carriage returns and
no quotes. With another line ending it can be read just if it can be read as it is; then the
documents are the same, in the same order, and their comments say the same once their line endings
are read as line feeds; otherwise the errors have the same message and the same line. -/
theorem parse_lineEnding (options : Options) (ending : LineEnding) {source : String}
    (noReturn : '\r' ∉ source.toList)
    (noQuote : '"' ∉ source.toList ∧ '\'' ∉ source.toList) :
    match Document.parse source options, Document.parse (ending.rewrite source) options with
    | .ok document, .ok document' => document'.lineFeeds = document.lineFeeds
    | .error error, .error error' => error'.message = error.message ∧ error'.line = error.line
    | _, _ => False := by
  have plain (char : Char) (member : char ∈ source.toList) :
      char ≠ '\r' ∧ isQuote char = false := by
    have noDouble : char ≠ '"' := fun same => noQuote.1 (same ▸ member)
    have noSingle : char ≠ '\'' := fun same => noQuote.2 (same ▸ member)
    refine ⟨fun same => noReturn (same ▸ member), ?_⟩
    simp [isQuote, noDouble, noSingle]
  have alike := declarations_parallel options (openingState_parallel ending plain)
  rw [Document.parse, Document.parse, ofSource_eq, ofSource_eq]
  generalize declarations options (openingState source) = first,
    declarations options (openingState (ending.rewrite source)) = second at alike
  obtain ⟨declared, failure⟩ := first
  obtain ⟨declared', failure'⟩ := second
  obtain ⟨same, failures⟩ := alike
  cases failures with
  | none =>
      refine Document.lineFeeds_ofList ?_
      have values := congrArg (List.map Prod.snd) same
      rw [List.map_map, List.map_map] at values ⊢
      exact values
  | @some error error' reported => exact reported

/-- A comment over two lines. -/
theorem parse_lineEnding_comment :
    '\r' ∉ "/* a\nb */ const i8 c = 1".toList ∧
    ('"' ∉ "/* a\nb */ const i8 c = 1".toList ∧ '\'' ∉ "/* a\nb */ const i8 c = 1".toList) ∧
    LineEnding.both.rewrite "/* a\nb */ const i8 c = 1" = "/* a\r\nb */ const i8 c = 1" ∧
    ∃ document document',
      Document.parse "/* a\nb */ const i8 c = 1" = .ok document ∧
      Document.parse "/* a\r\nb */ const i8 c = 1" = .ok document' ∧
      document.toList.map (fun declared => declared.comments.head) = [some "/* a\nb */"] ∧
      document'.toList.map (fun declared => declared.comments.head) = [some "/* a\r\nb */"] ∧
      document'.lineFeeds = document.lineFeeds := by
  have noReturn : '\r' ∉ "/* a\nb */ const i8 c = 1".toList := by decide +kernel
  have noQuote : '"' ∉ "/* a\nb */ const i8 c = 1".toList ∧
      '\'' ∉ "/* a\nb */ const i8 c = 1".toList := by decide +kernel
  have rewritten : LineEnding.both.rewrite "/* a\nb */ const i8 c = 1" =
      "/* a\r\nb */ const i8 c = 1" := by decide +kernel
  have read : ((Document.parse "/* a\nb */ const i8 c = 1").toOption.map fun document =>
      document.toList.map fun declared => declared.comments.head) = some [some "/* a\nb */"] := by
    decide +kernel
  have read' : ((Document.parse "/* a\r\nb */ const i8 c = 1").toOption.map fun document =>
      document.toList.map fun declared => declared.comments.head) = some [some "/* a\r\nb */"] := by
    decide +kernel
  have same := parse_lineEnding {} .both noReturn noQuote
  rw [rewritten] at same
  refine ⟨noReturn, noQuote, rewritten, ?_⟩
  cases result : Document.parse "/* a\nb */ const i8 c = 1" with
  | error error => simp [result, Except.toOption] at read
  | ok document =>
      cases result' : Document.parse "/* a\r\nb */ const i8 c = 1" with
      | error error => simp [result', Except.toOption] at read'
      | ok document' =>
          rw [result] at read same
          rw [result'] at read' same
          exact ⟨document, document', rfl, rfl, Option.some.inj read, Option.some.inj read', same⟩

end Parser
end ThriftIdl
