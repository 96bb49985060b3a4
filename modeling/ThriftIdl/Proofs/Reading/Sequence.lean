import ThriftIdl.Proofs.Grammar.Declaration

/-!
# Reading as a sequence of declarations

A source text is read as a sequence of declaration phrases from its opening view on, the view after
the byte order mark and the gap at its start. It has a document exactly if such a sequence takes it
to its end (`parse_eq_ok_iff`). Otherwise the reading stops in a state from which no declaration can
be read, and the error is made in that state (`declares_of_parse_error`).
-/

namespace ThriftIdl

open ThriftIdl.Source (gap gapChars gapComments firstLine laterLines)

namespace Parser

/-! ## The opening view -/

namespace View

/-- The view in which all waiting comments wait for the next item. -/
def allAhead (view : View) : View :=
  ⟨view.rest, view.tail ++ view.head, []⟩

/-- The view in which the reading of a text begins, behind the gap at its start. -/
def opening (text : List Char) : View :=
  (View.ofText text).skip.allAhead

/-- A text opens past its first gap, with all comments of that gap waiting for the first item. -/
theorem opening_eq (text : List Char) : opening text =
    ⟨text.drop (gapChars (gap text)).length, gapComments (gap text), []⟩ := by
  have split := List.takeWhile_append_dropWhile (p := fun piece : Source.Piece => !piece.isBreak)
    (l := gap text)
  simp only [opening, allAhead, ofText, skip, firstLine, laterLines, gapComments, List.nil_append,
    ← List.filterMap_append, split]

/-- No gap stands at the place where reading begins. -/
theorem gap_opening (text : List Char) : gap (opening text).rest = [] := by
  rw [opening_eq]
  exact Source.gap_drop_gapChars text

/-- A text that begins with no gap is opened as it is. -/
theorem opening_of_gap_eq_nil {text : List Char} (none : gap text = []) :
    opening text = ofText text := by
  simp [opening_eq, none, gapChars, gapComments, ofText]

end View

/-- A text without the byte order mark that it may begin with. -/
def withoutMark (text : List Char) : List Char :=
  if text.head? = some '\ufeff' then text.drop 1 else text

/-- The state in which the reading of a source text begins. -/
def openingState (source : String) : State :=
  (skipByteOrderMark (State.ofString source)).skipLeading

/-- A reading begins past the byte order mark and the first gap. -/
theorem view_openingState (source : String) :
    (openingState source).view = View.opening (withoutMark source.toList) := by
  rw [View.opening_eq]
  unfold openingState skipByteOrderMark withoutMark
  have first : (State.ofString source).input.peek = source.toList.head? := rfl
  by_cases mark : source.toList.head? = some '\ufeff'
  · rw [if_pos mark, if_pos (first.trans mark)]
    rfl
  · rw [if_neg mark, if_neg fun same => mark (first.symm.trans same)]
    rfl

/-- It begins with the comment queues in order. -/
theorem sound_openingState (source : String) : (openingState source).Sound := by
  unfold openingState skipByteOrderMark
  split <;> exact ⟨Nat.zero_le _, Nat.zero_le _⟩

/-- The reading begins after a number of characters of the source text. -/
theorem input_openingState (source : String) :
    ∃ count, (openingState source).input = (Source.Input.ofString source).advance count := by
  unfold openingState skipByteOrderMark
  split
  · exact ⟨_, Source.Input.advance_advance _ _ _⟩
  · exact ⟨_, rfl⟩

/-! ## Sequences of declarations -/

variable {options : Options}

/-- A state is at the end of the text if its view has nothing left. -/
theorem atEnd_iff (state : State) : state.input.atEnd = true ↔ state.view.rest = [] :=
  List.isEmpty_iff

/-- From one state to another, declarations are read, each with the line on which it begins. -/
inductive Declares (options : Options) : State → List (Nat × Declaration) → State → Prop
  | done (state : State) : Declares options state [] state
  | next {before between after : State} {declared : Declaration}
      {later : List (Nat × Declaration)} : before.input.atEnd = false →
      declaration options.duplicates (before.keeping []) = .ok declared between →
      Declares options between later after →
      Declares options before ((before.input.cursor.line, declared) :: later) after

/-- A declaration that is read is a declaration phrase, and it makes the text shorter. -/
theorem declaration_of_ok {duplicates : DuplicateIds} {before after : State}
    {declared : Declaration} (sound : before.Sound)
    (matched : declaration duplicates (before.keeping []) = .ok declared after) :
    Grammar.declaration duplicates before.view declared after.view ∧ after.Sound ∧
      after.input.rest.length < before.input.rest.length := by
  have agrees := Grammar.agrees_declaration duplicates
  obtain ⟨read, soundAfter⟩ := agrees.formed.reads_of_ok (sound.keeping []) matched
  have here := agrees.always.mp read
  exact ⟨here, soundAfter, Grammar.advances_declaration duplicates here⟩

namespace Declares

variable {before after : State} {declared : List (Nat × Declaration)}

/-- Declarations leave the comment queues in order. -/
theorem sound (declares : Declares options before declared after) (sound : before.Sound) :
    after.Sound := by
  induction declares with
  | done => exact sound
  | next _ matched _ ih => exact ih (declaration_of_ok sound matched).2.1

/-- The declarations are phrases in sequence. -/
theorem repeated (declares : Declares options before declared after) (sound : before.Sound) :
    Grammar.Phrase.Repeated (Grammar.declaration options.duplicates) before.view
      (declared.map Prod.snd) after.view := by
  induction declares with
  | done => exact .done _
  | next _ matched _ ih =>
      obtain ⟨here, soundBetween, -⟩ := declaration_of_ok sound matched
      exact .next here (ih soundBetween)

/-- After declarations the next one may begin. -/
theorem topLevel {source : String} (declares : Declares options before declared after)
    (reached : TopLevel options source before) : TopLevel options source after := by
  induction declares with
  | done => exact reached
  | next unread matched _ ih => exact ih (.next reached unread matched)

/-- The text is read from one state to the other and nothing of it is passed over. -/
theorem input (declares : Declares options before declared after) :
    ∃ count, after.input = before.input.advance count := by
  induction declares with
  | done => exact ⟨0, rfl⟩
  | @next before between _ _ _ _ matched _ ih =>
      have grown := (Formed.declaration options.duplicates).growing (before.keeping [])
      rw [matched] at grown
      obtain ⟨first, here⟩ : ∃ count, between.input = before.input.advance count := grown.input
      obtain ⟨second, there⟩ := ih
      refine ⟨first + second, there.trans ?_⟩
      rw [here, Source.Input.advance_advance]

end Declares

/-- **What a reading finds.** The declarations are read one after the other up to a state at the end
of the text, or else up to a state where no declaration can be read; the error is made there. -/
theorem declarations_spec (options : Options) {state : State} (sound : state.Sound) :
    ∃ last, Declares options state (declarations options state).declared last ∧
      ((last.input.atEnd = true ∧ (declarations options state).failure = none) ∨
        ∃ miss failed, last.input.atEnd = false ∧
          declaration options.duplicates (last.keeping []) = .error miss failed ∧
          (declarations options state).failure =
            some (failed.syntaxError options.contextWidth miss)) := by
  induction count : state.input.rest.length using Nat.strongRecOn generalizing state with
  | _ count ih =>
      rw [declarations.eq_def]
      by_cases ended : state.input.atEnd
      · rw [if_pos ended]
        exact ⟨state, .done state, .inl ⟨ended, rfl⟩⟩
      · rw [if_neg ended]
        have unread : state.input.atEnd = false := by simpa using ended
        cases result : declaration options.duplicates { state with misses := [] } with
        | error miss failed =>
            exact ⟨state, .done state, .inr ⟨miss, failed, unread, result, rfl⟩⟩
        | ok declared next =>
            obtain ⟨-, soundNext, shorter⟩ := declaration_of_ok sound result
            simp only [if_pos shorter]
            obtain ⟨last, declares, outcome⟩ := ih _ (count ▸ shorter) soundNext rfl
            exact ⟨last, .next unread result declares, outcome⟩

/-- A sequence of declaration phrases that takes a text to its end is what a reading finds. -/
theorem declarations_of_repeated {state : State} (sound : state.Sound)
    {declared : List Declaration} {last : View}
    (repeated : Grammar.Phrase.Repeated (Grammar.declaration options.duplicates) state.view declared
      last) (ended : last.rest = []) :
    (declarations options state).failure = none ∧
      (declarations options state).declared.map Prod.snd = declared := by
  generalize start : state.view = view at repeated
  induction repeated generalizing state with
  | done =>
      have atEnd := (atEnd_iff state).mpr ((congrArg View.rest start).trans ended)
      rw [declarations.eq_def, if_pos atEnd]
      exact ⟨rfl, rfl⟩
  | next here _ ih =>
      have shorter := Grammar.advances_declaration _ here
      subst start
      have unread : ¬state.input.atEnd := by
        intro atEnd
        simp [(atEnd_iff state).mp atEnd] at shorter
      have agrees := Grammar.agrees_declaration options.duplicates
      obtain ⟨next, matched, same, soundNext⟩ :=
        agrees.formed.ok_of_reads (sound.keeping []) (agrees.always.mpr here)
      have matched : declaration options.duplicates { state with misses := [] } = .ok _ next :=
        matched
      obtain ⟨finished, found⟩ := ih soundNext ended same
      rw [declarations.eq_def, if_neg unread]
      rw [← same] at shorter
      have shorter : next.input.rest.length < state.input.rest.length := shorter
      simp only [matched, if_pos shorter, finished, List.map_cons, found, and_self]

/-- A source text is read from the state in which it opens. -/
theorem ofSource_eq (options : Options) (source : String) :
    Reading.ofSource options source = declarations options (openingState source) :=
  rfl

/-- A text has no document exactly if its reading fails. -/
theorem parse_eq_error_iff {source : String} {error : SyntaxError} :
    Document.parse source options = .error error ↔
      (Reading.ofSource options source).failure = some error := by
  unfold Document.parse Reading.document
  cases (Reading.ofSource options source).failure with
  | none => simp
  | some failure => simp

/-- A text with a document is read to its end, and the document is made of what is read. -/
theorem declares_of_parse {source : String} {document : Document}
    (parsed : Document.parse source options = .ok document) :
    ∃ last, Declares options (openingState source) (Reading.ofSource options source).declared last ∧
      last.input.atEnd = true ∧
      document = Document.ofList ((Reading.ofSource options source).declared.map Prod.snd) := by
  unfold Document.parse Reading.document at parsed
  rw [ofSource_eq] at parsed ⊢
  obtain ⟨last, declares, ⟨ended, finished⟩ | ⟨miss, failed, -, -, failure⟩⟩ :=
    declarations_spec options (sound_openingState source)
  · rw [finished] at parsed
    cases parsed
    exact ⟨last, declares, ended, rfl⟩
  · rw [failure] at parsed
    cases parsed

/-- A text that cannot be read has declarations that can, up to one that cannot; the error is made
there. -/
theorem declares_of_parse_error {source : String} {error : SyntaxError}
    (failed : Document.parse source options = .error error) :
    ∃ last miss missed,
      Declares options (openingState source) (Reading.ofSource options source).declared last ∧
      last.input.atEnd = false ∧
      declaration options.duplicates (last.keeping []) = .error miss missed ∧
      error = missed.syntaxError options.contextWidth miss := by
  rw [parse_eq_error_iff] at failed
  rw [ofSource_eq] at failed ⊢
  obtain ⟨last, declares, ⟨-, finished⟩ | ⟨miss, missed, unread, result, failure⟩⟩ :=
    declarations_spec options (sound_openingState source)
  · rw [finished] at failed
    cases failed
  · rw [failure] at failed
    exact ⟨last, miss, missed, declares, unread, result, (Option.some.inj failed).symm⟩

/-- A text of whose document something can be computed has a document. -/
theorem exists_of_map_parse (options : Options) (source : String) {Value : Type}
    (view : Document → Value) (value : Value)
    (computed : (Document.parse source options).toOption.map view = some value) :
    ∃ document, Document.parse source options = .ok document ∧ view document = value := by
  cases parsed : Document.parse source options with
  | error error => simp [parsed, Except.toOption] at computed
  | ok document =>
      rw [parsed] at computed
      exact ⟨document, rfl, Option.some.inj computed⟩

/-- **Texts with a document** are those that a sequence of declarations takes to their end. -/
theorem parse_eq_ok_iff {source : String} {document : Document} :
    Document.parse source options = .ok document ↔
      ∃ declared last, Grammar.Phrase.Repeated (Grammar.declaration options.duplicates)
        (View.opening (withoutMark source.toList)) declared last ∧ last.rest = [] ∧
        document = Document.ofList declared := by
  have sound := sound_openingState source
  rw [← view_openingState]
  constructor
  · intro parsed
    obtain ⟨last, declares, ended, same⟩ := declares_of_parse parsed
    exact ⟨_, last.view, declares.repeated sound, (atEnd_iff last).mp ended, same⟩
  · rintro ⟨declared, last, repeated, ended, rfl⟩
    obtain ⟨finished, found⟩ := declarations_of_repeated sound repeated ended
    unfold Document.parse Reading.document
    rw [ofSource_eq, finished, ← found]

end Parser
end ThriftIdl
