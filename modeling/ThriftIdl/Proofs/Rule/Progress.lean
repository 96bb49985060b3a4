import ThriftIdl.Proofs.Grammar.Lexeme

/-!
# Going on from place to place

A rule progresses if each of its matches ends at a later place of the text. A sequence progresses if
one of its parts does and a choice if all its alternatives do, so it is enough to look at tokens.
Main statements: `progresses_typeRef`, `progresses_literal` and `progresses_declaration`.
-/

namespace ThriftIdl

namespace Source.Input

/-- One place is another of the same text or lies before it. -/
def Reaches (first later : Input) : Prop :=
  ∃ count, later = first.advance count

/-- One place lies before another of the same text. -/
def Precedes (first later : Input) : Prop :=
  first.Reaches later ∧ first.cursor.offset < later.cursor.offset

/-- The bytes that are passed are those of the characters. -/
theorem offset_advance (input : Input) (count : Nat) :
    (input.advance count).cursor.offset =
      input.cursor.offset + (String.ofList (input.rest.take count)).utf8ByteSize := by
  rw [advance, Cursor.pass_eq]

/-- What goes on to a later place has less text left. -/
theorem precedes_iff {first later : Input} : first.Precedes later ↔
    first.Reaches later ∧ later.rest.length < first.rest.length := by
  refine and_congr_right ?_
  rintro ⟨count, rfl⟩
  rw [offset_advance]
  cases taken : first.rest.take count with
  | nil =>
      have none : count = 0 ∨ first.rest = [] := by simpa using taken
      rcases none with rfl | empty
      · simp
      · simp [advance, empty]
  | cons char others =>
      have some : 0 < (first.rest.take count).length := by simp [taken]
      have positive := char.utf8Size_pos
      rw [String.ofList_cons, String.utf8ByteSize_append, String.utf8ByteSize_singleton]
      simp only [advance, List.length_drop, List.length_take] at some ⊢
      omega

/-- A place reaches itself. -/
theorem Reaches.refl (input : Input) : input.Reaches input :=
  ⟨0, rfl⟩

private theorem Reaches.then_advance {first later : Input} (reaches : first.Reaches later)
    (count : Nat) :
    first.Reaches (later.advance count) := by
  obtain ⟨before, rfl⟩ := reaches
  exact ⟨before + count, by rw [advance_advance]⟩

namespace Precedes

variable {first between later : Input}

/-- Later in a text there is less of it left. -/
theorem shorter (precedes : first.Precedes later) : later.rest.length < first.rest.length :=
  (precedes_iff.mp precedes).2

/-- Going on from a later place leads to a later place. -/
theorem then_advance (precedes : first.Precedes between) (count : Nat) :
    first.Precedes (between.advance count) := by
  have shorter := (length_advance_le between count).trans_lt precedes.shorter
  exact precedes_iff.mpr ⟨precedes.1.then_advance count, shorter⟩

/-- A place that reaches another precedes what that one precedes. -/
theorem of_reaches (reaches : first.Reaches between) (precedes : between.Precedes later) :
    first.Precedes later := by
  have shorter := precedes.shorter
  obtain ⟨count, rfl⟩ := reaches
  obtain ⟨⟨more, rfl⟩, -⟩ := precedes
  refine precedes_iff.mpr ⟨(Reaches.then_advance ⟨count, rfl⟩ more), ?_⟩
  exact shorter.trans_le (length_advance_le _ _)

private theorem advance {input : Input} {count : Nat} (inhabited : input.rest ≠ [])
    (positive : 0 < count) : input.Precedes (input.advance count) := by
  have some := List.length_pos_iff.mpr inhabited
  refine precedes_iff.mpr ⟨⟨count, rfl⟩, ?_⟩
  simp only [Input.advance, List.length_drop]
  omega

end Precedes

end Source.Input

namespace Parser

open Source (Input)

variable {Value First Second : Type}

/-! ## Rules that progress -/

/-- Each match of a rule ends at a later place. -/
def Progresses (rule : Rule Value) : Prop :=
  ∀ ⦃before value after⦄, rule before = .ok value after → before.input.Precedes after.input

/-- Each match of a rule where a given text is left ends at a later place. -/
def ProgressesOn (text : List Char) (rule : Rule Value) : Prop :=
  ∀ ⦃before value after⦄, before.input.rest = text → rule before = .ok value after →
    before.input.Precedes after.input

/-- No rule goes back. -/
theorem Growing.reaches {rule : Rule Value} (growing : Growing rule) (before : State) :
    before.input.Reaches (ending (rule before)).input :=
  (growing before).input

/-- A rule that matches ends where it began or later. -/
theorem Growing.reaches_of_ok {rule : Rule Value} (growing : Growing rule) {before after : State}
    {value : Value} (matched : rule before = .ok value after) :
    before.input.Reaches after.input := by
  have reaches := growing.reaches before
  rwa [matched] at reaches

/-- What a sequence reads is read by its parts in turn. -/
theorem ok_of_bind {rule : Rule First} {next : First → Rule Second} {before after : State}
    {value : Second} (matched : (rule >>= next) before = .ok value after) :
    ∃ found between, rule before = .ok found between ∧ next found between = .ok value after := by
  rw [run_bind] at matched
  cases result : rule before with
  | ok found between => exact ⟨found, between, rfl, by rwa [result] at matched⟩
  | error miss missed => simp [result] at matched

namespace ProgressesOn

variable {text : List Char}

private theorem never {rule : Rule Value}
    (misses : ∀ before value after, rule before ≠ .ok value after) :
    ProgressesOn text rule :=
  fun _ _ _ _ matched => absurd matched (misses _ _ _)

private theorem missFor (reason : Reason) : ProgressesOn text (missFor reason : Rule Value) :=
  never fun _ _ _ matched => by cases matched

private theorem bind {rule : Rule First} {next : First → Rule Second}
    (first : ProgressesOn text rule)
    (later : ∀ value, Growing (next value)) : ProgressesOn text (rule >>= next) := by
  intro before value after same matched
  obtain ⟨found, between, here, there⟩ := ok_of_bind matched
  obtain ⟨count, passed⟩ := (later found).reaches_of_ok there
  exact passed ▸ (first same here).then_advance count

private theorem advance {count : Nat} (inhabited : text ≠ []) (positive : 0 < count) :
    ProgressesOn text (advance count) := by
  intro before value after same matched
  cases matched
  exact .advance (same ▸ inhabited) positive

private theorem takeWhile {test : Char → Bool} (begins : text.head?.any test) :
    ProgressesOn text (takeWhile test) := by
  intro before value after same matched
  cases matched
  subst same
  have ⟨first, rest, starts⟩ : ∃ first rest, before.input.rest = first :: rest := by
    refine List.exists_cons_of_ne_nil fun empty => ?_
    simp [empty] at begins
  have passes : test first := by simpa [starts] using begins
  exact .advance (by simp [starts]) (by simp [starts, passes])

private theorem ite {condition : Prop} [Decidable condition] {rule other : Rule Value}
    (here : condition → ProgressesOn text rule) (there : ¬condition → ProgressesOn text other) :
    ProgressesOn text (if condition then rule else other) := by
  split
  · next meets => exact here meets
  · next fails => exact there fails

end ProgressesOn

namespace Progresses

private theorem on {rule : Rule Value} (progresses : Progresses rule) (text : List Char) :
    ProgressesOn text rule :=
  fun _ _ _ _ matched => progresses matched

/-- Rules that look at the text progress if they do on each text. -/
theorem look (rule : List Char → Rule Value) (each : ∀ text, ProgressesOn text (rule text)) :
    Progresses fun state => rule state.input.rest state :=
  fun _ _ _ matched => each _ rfl matched

private theorem missFor (reason : Reason) : Progresses (missFor reason : Rule Value) :=
  fun _ _ _ matched => ProgressesOn.missFor reason rfl matched

private theorem bind {rule : Rule First} {next : First → Rule Second} (first : Progresses rule)
    (later : ∀ value, Formed (next value)) : Progresses (rule >>= next) :=
  fun _ _ _ matched => (first.on _).bind (fun value => (later value).growing) rfl matched

/-- A sequence progresses if what comes after its first part does. -/
theorem after {rule : Rule First} {next : First → Rule Second} (formed : Formed rule)
    (later : ∀ value, Progresses (next value)) : Progresses (rule >>= next) := by
  intro before value after matched
  obtain ⟨found, between, here, there⟩ := ok_of_bind matched
  exact .of_reaches (formed.growing.reaches_of_ok here) (later found there)

private theorem map {rule : Rule Value} {Result : Type} (change : Value → Result)
    (progresses : Progresses rule) : Progresses (change <$> rule) :=
  progresses.bind fun value => .pure (change value)

private theorem choice (what : Expectation) {rules : List (Rule Value)}
    (formed : ∀ rule ∈ rules, Formed rule) (each : ∀ rule ∈ rules, Progresses rule) :
    Progresses (choice what rules) := by
  intro before value after matched
  obtain ⟨rule, member, misses, read, found, rfl⟩ :=
    choice_ok (fun rule member => (formed rule member).growing) matched
  have precedes := each rule member found
  exact precedes

/-- A run of characters is a step forward if the rule needs one of them. -/
theorem takeWhile {test : Char → Bool} {next : List Char → Rule Value}
    (formed : ∀ run, Formed (next run)) (none : Progresses (next [])) :
    Progresses (takeWhile test >>= next) := by
  refine look (fun text => do
    let run := text.takeWhile test
    Parser.advance run.length
    next run) fun text => ?_
  cases run : text.takeWhile test with
  | nil => exact (after (.advance 0) fun _ => none).on text
  | cons char others =>
      refine (ProgressesOn.advance ?_ (by simp)).bind fun _ => (formed _).growing
      rintro rfl
      cases run

end Progresses

/-! ## Tokens -/

/-- A keyword is passed, so it ends at a later place. -/
theorem progresses_keyword {word : String} (isWord : word.toList ≠ []) :
    Progresses (keyword word) := by
  refine .look (fun text =>
    if startsWithWord word.toList text then do
      advance word.toList.length
      skip
    else expected (.keyword word)) fun text => .ite (fun starts => ?_) fun _ => .missFor _
  refine (ProgressesOn.advance ?_ (List.length_pos_iff.mpr isWord)).bind fun _ =>
    Formed.skip.growing
  rintro rfl
  simp only [startsWithWord, Bool.and_eq_true, List.isPrefixOf_iff_prefix] at starts
  exact isWord (List.prefix_nil.mp starts.1)

/-- A mark is passed, so it ends at a later place. -/
theorem progresses_mark (char : Char) : Progresses (mark char) := by
  refine .look (fun text =>
    if text.head? = some char then do
      advance 1
      skip
    else expected (.mark char)) fun text => .ite (fun comes => ?_) fun _ => .missFor _
  refine (ProgressesOn.advance ?_ Nat.one_pos).bind fun _ => Formed.skip.growing
  rintro rfl
  cases comes

private theorem isNameChar_of_isIdentStart {char : Char} (start : isIdentStart char) :
    isNameChar char :=
  Grammar.isNameChar_of_isIdentChar (Grammar.isIdentChar_of_isIdentStart start)

private theorem progresses_name : Progresses name := by
  refine .look (fun text =>
    if text.head?.any isIdentStart then do
      let chars ← takeWhile isNameChar
      skip
      return String.ofList chars
    else expected .identifier) fun text => .ite (fun begins => ?_) fun _ => .missFor _
  refine (ProgressesOn.takeWhile ?_).bind fun chars =>
    (Formed.skip.bind fun _ => .pure _).growing
  obtain ⟨first, head, start⟩ := (Option.any_eq_true _ _).mp begins
  exact (Option.any_eq_true _ _).mpr ⟨first, head, isNameChar_of_isIdentStart start⟩

private theorem progresses_path : Progresses path := by
  refine .look (fun text =>
    if text.head?.any isIdentStart then do
      let segments := pathSegments (← get).input.rest
      advance (['.'].intercalate segments).length
      skip
      return segments.map String.ofList
    else expected .identifier) fun text => .ite (fun begins => ?_) fun _ => .missFor _
  rintro before value after rfl matched
  refine (ProgressesOn.advance ?_ ?_).bind
    (fun _ => (Formed.skip.bind fun _ => .pure _).growing) rfl matched
  · intro empty
    simp [empty] at begins
  · obtain ⟨nonempty, identifiers, -⟩ := Grammar.pathSegments_spec begins
    obtain ⟨segment, others, split⟩ := List.exists_cons_of_ne_nil nonempty
    obtain ⟨first, rest, rfl, -⟩ := (identifiers segment (by simp [split])).exists_cons
    rw [split, List.intercalate_cons_cons_left]
    exact Nat.succ_pos _

private theorem progresses_quoted (escapes : Bool) : Progresses (quoted escapes) := by
  refine .look (quotedFrom escapes) fun text => ?_
  cases text with
  | nil => exact .missFor _
  | cons quote rest =>
      refine .ite (fun _ => ?_) fun _ => .missFor _
      cases Text.throughQuote? quote escapes rest with
      | none => exact .missFor _
      | some raw =>
          exact (ProgressesOn.advance (by simp) (Nat.succ_pos _)).bind fun _ =>
            (Formed.pure raw).growing

/-! ## Numbers -/

/-- A step over one of two words, or else something else that progresses. -/
theorem progresses_eitherWord {first second : List Char} (nonempty : first ≠ [])
    (nonempty' : second ≠ []) {next other : Rule Value} (formed : Formed next)
    (otherwise : Progresses other) :
    Progresses (do
      if (← startsWith first) || (← startsWith second) then
        advance first.length
        next
      else other) := by
  refine .look (fun text =>
    if first.isPrefixOf text || second.isPrefixOf text then do
      advance first.length
      next
    else other) fun text => .ite (fun starts => ?_) fun _ => otherwise.on text
  refine (ProgressesOn.advance ?_ (List.length_pos_iff.mpr nonempty)).bind fun _ => formed.growing
  rintro rfl
  simp only [Bool.or_eq_true, List.isPrefixOf_iff_prefix, List.prefix_nil] at starts
  exact starts.elim nonempty nonempty'

private theorem progresses_hexNumber : Progresses hexNumber := by
  have lower : ['0', 'x'] ≠ [] := List.cons_ne_nil _ _
  have upper : ['0', 'X'] ≠ [] := List.cons_ne_nil _ _
  refine .after (.optionalChar _) fun sign =>
    progresses_eitherWord lower upper ((Formed.takeWhile _).bind fun digits => ?_) (.missFor _)
  cases Number.ofDigits? 16 digits with
  | none => exact .expected _
  | some magnitude => exact .ite (Formed.endOfNumber.bind fun _ => .pure _) (.rejected _)

private theorem progresses_exponentNumber : Progresses exponentNumber := by
  refine .after (.optionalChar _) fun sign => .takeWhile (fun mantissa => ?_) (.missFor _)
  refine (Formed.expected _).ite <| (Formed.optionalChar _).bind fun letter =>
    (Formed.expected _).ite <| (Formed.optionalChar _).bind fun second =>
    (Formed.takeWhile _).bind fun digits => (Formed.expected _).ite ?_
  cases Number.Binary64.ofNumeral? (sign ++ mantissa ++ letter ++ second ++ digits) with
  | none => exact .expected _
  | some number => exact Formed.endOfNumber.bind fun _ => .pure _

private theorem progresses_decimalNumber : Progresses decimalNumber := by
  refine .after (.optionalChar _) fun sign => .takeWhile (fun body => ?_) (.missFor _)
  refine (Formed.expected _).ite ?_
  cases decimalLiteral? (sign ++ body) with
  | none => exact .expected _
  | some literal => exact Formed.endOfNumber.bind fun _ => .pure _

/-! ## Types and literals -/

/-- One of two words, each of which stands for a value. -/
theorem progresses_words {first second : String} {value value' : Value}
    (isFirst : first.toList ≠ []) (isSecond : second.toList ≠ []) :
    Progresses (do
      match ← probe (keyword first) with
      | some _ => return value
      | none =>
        keyword second
        return value') := by
  intro before found after matched
  obtain ⟨read, between, here, there⟩ := ok_of_bind matched
  unfold probe at here
  cases result : keyword first before with
  | ok opened next =>
      simp only [result, EStateM.Result.ok.injEq] at here
      obtain ⟨rfl, rfl⟩ := here
      cases there
      exact progresses_keyword isFirst result
  | error miss missed =>
      have reaches := (Formed.keyword first).growing.reaches before
      rw [result] at reaches here
      cases here
      exact .of_reaches reaches ((progresses_keyword isSecond).bind (fun _ => .pure value') there)

private theorem progresses_typeForms {inner : Rule TypeRef} (formed : Formed inner) :
    ∀ rule ∈ typeForms inner, Progresses rule := by
  refine forall_typeForms ?map ?sequence (progresses_name.map _)
  case map =>
    exact (progresses_keyword (by decide)).bind fun _ => (Formed.mark _).bind fun _ =>
      formed.bind fun _ => Formed.separator.bind fun _ => formed.bind fun _ =>
      (Formed.mark _).bind fun _ => .pure _
  case sequence =>
    exact (progresses_words (by decide) (by decide)).bind fun _ => (Formed.mark _).bind fun _ =>
      formed.bind fun _ => (Formed.mark _).bind fun _ => .pure _

/-- Types of bounded nesting end at a later place. -/
theorem progresses_typeWithin (depth : Nat) : Progresses (typeWithin depth) := by
  cases depth with
  | zero => exact .missFor _
  | succ depth =>
      exact .choice _ (.typeForms (.typeWithin depth)) (progresses_typeForms (.typeWithin depth))

private theorem progresses_typeRef : Progresses typeRef :=
  .look (fun text => typeWithin (text.length + 1)) fun _ => (progresses_typeWithin _).on _

/-- An item of a list ends at a later place if literals do. -/
theorem progresses_listItem {inner : Rule Literal} (progresses : Progresses inner) :
    Progresses (listItem inner) :=
  progresses.bind fun _ => Formed.separator.bind fun _ => .pure _

/-- An entry of a map ends at a later place if literals do. -/
theorem progresses_mapEntry {inner : Rule Literal} (formed : Formed inner)
    (progresses : Progresses inner) : Progresses (mapEntry inner) :=
  progresses.bind fun _ => (Formed.mark _).bind fun _ => formed.bind fun _ =>
    Formed.separator.bind fun _ => .pure _

private theorem progresses_stringLiteral : Progresses stringLiteral := by
  refine (progresses_quoted true).bind fun raw => ?_
  cases Text.unescape raw with
  | none => exact .rejected _
  | some chars => exact Formed.skip.bind fun _ => .pure _

private theorem progresses_literalForms {inner : Rule Literal} (formed : Formed inner) :
    ∀ rule ∈ literalForms inner, Progresses rule := by
  refine forall_literalForms (progresses_hexNumber.map _) (progresses_exponentNumber.map _)
    progresses_decimalNumber (progresses_words (by decide) (by decide)) progresses_stringLiteral
    ?list ?map (progresses_path.map _)
  case list =>
    exact (progresses_mark _).bind fun _ => formed.listItem.many.bind fun _ =>
      (Formed.close _).bind fun _ => .pure _
  case map =>
    exact (progresses_mark _).bind fun _ => formed.mapEntry.many.bind fun _ =>
      (Formed.close _).bind fun _ => .pure _

/-- Literals of bounded nesting end at a later place. -/
theorem progresses_literalWithin (depth : Nat) : Progresses (literalWithin depth) := by
  cases depth with
  | zero => exact .missFor _
  | succ depth =>
      exact .choice _ (.literalForms (.literalWithin depth))
        (progresses_literalForms (.literalWithin depth))

/-- Literals end at a later place. -/
theorem progresses_literal : Progresses literal :=
  .look (fun text => literalWithin (text.length + 1)) fun _ => (progresses_literalWithin _).on _

/-! ## Items and declarations -/

/-- An item of an enumeration ends at a later place, since its name does. -/
theorem progresses_enumItem : Progresses enumItem :=
  .after .drainHead fun _ => progresses_name.bind fun _ => Formed.assignment.bind fun _ =>
    (Formed.enumValue _ _).bind fun _ => Formed.ending _

/-- A field ends at a later place, since its type does. -/
theorem progresses_field : Progresses field :=
  .after .drainHead fun _ => .after Formed.fieldId.attempt fun _ =>
    .after Formed.qualifier.attempt fun _ => progresses_typeRef.bind fun _ =>
    Formed.name.bind fun _ => Formed.assignment.bind fun _ => Formed.ending _

/-- A function ends at a later place, since its type does. -/
theorem progresses_function (duplicates : DuplicateIds) : Progresses (function duplicates) :=
  .after .drainHead fun _ => .after (Formed.keyword _).attempt fun _ =>
    progresses_typeRef.bind fun _ => Formed.name.bind fun _ => (Formed.fieldList _).bind fun _ =>
    (Formed.throwsClause _).attempt.bind fun _ => Formed.ending _

/-- Every form of a declaration takes its keyword. -/
theorem progresses_declarationForms (duplicates : DuplicateIds) :
    ∀ rule ∈ declarationForms duplicates, Progresses rule := by
  -- Two shapes of forms: the keyword comes first, alone or with the header of a block.
  have headed {word : String} {next : Option String → Unit → Rule Declaration}
      (isWord : word.toList ≠ []) (formed : ∀ head opened, Formed (next head opened)) :
      Progresses (drainHead >>= fun head => keyword word >>= next head) :=
    .after .drainHead fun head => (progresses_keyword isWord).bind (formed head)
  have block {word : String} {next : Option String → String × Option String → Rule Declaration}
      (isWord : word.toList ≠ []) (formed : ∀ head header, Formed (next head header)) :
      Progresses (drainHead >>= fun head => blockHeader word >>= next head) :=
    .after .drainHead fun head => ((progresses_keyword isWord).bind fun _ => Formed.name.bind
      fun _ => (Formed.mark _).bind fun _ => Formed.drainTail.bind fun _ => .pure _).bind
      (formed head)
  have record (kind : RecordKind) : Progresses (recordForm duplicates kind) :=
    block (by cases kind <;> decide) fun _ _ => Formed.field.many.bind fun _ =>
      (Formed.close _).bind fun _ => (Formed.checkIds _ _ _).bind fun _ => Formed.ending _
  refine forall_declarationForms ?scope ?inclusion ?typedef ?constant ?enumeration record ?service
  case scope =>
    exact headed (by decide) fun _ _ => Formed.namespaceScope.bind fun _ => Formed.path.bind
      fun _ => Formed.ending _
  case inclusion =>
    exact headed (by decide) fun _ _ => (Formed.quoted _).bind fun _ => Formed.skip.bind fun _ =>
      Formed.ending _
  case typedef =>
    exact headed (by decide) fun _ _ => Formed.typeRef.bind fun _ => Formed.name.bind fun _ =>
      Formed.ending _
  case constant =>
    exact headed (by decide) fun _ _ => Formed.typeRef.bind fun _ => Formed.name.bind fun _ =>
      (Formed.mark _).bind fun _ => Formed.literal.bind fun _ => Formed.ending _
  case enumeration =>
    exact block (by decide) fun _ _ => Formed.enumItem.many.bind fun _ =>
      (Formed.close _).bind fun _ => Formed.separator.bind fun _ =>
      (Formed.enumValues _ _).bind fun _ => Formed.drainTail.bind fun _ => .pure _
  case service =>
    exact headed (by decide) fun _ _ => Formed.name.bind fun _ =>
      Formed.parentClause.attempt.bind fun _ => (Formed.mark _).bind fun _ =>
      Formed.drainTail.bind fun _ => (Formed.function _).many.bind fun _ =>
      (Formed.close _).bind fun _ => Formed.ending _

/-- A declaration ends at a later place, since its keyword does. -/
theorem progresses_declaration (duplicates : DuplicateIds) :
    Progresses (declaration duplicates) :=
  .choice _ (Formed.declarationForms duplicates) (progresses_declarationForms duplicates)

end Parser
end ThriftIdl
