import ThriftIdl.Proofs.Layout.RoundTrip
import ThriftIdl.Proofs.Layout.Rows

/-!
# Reading row by row

A reading of a text in rows faces a row when it stands at the first token of the row and the
comments above it wait for the next item. Past the tokens of the row it faces the next row, and the
comments behind them wait for the last item. So rows give a phrase if every reading that faces them
finds it and then faces what comes after them. Main statements: `OnLine.past`, `InRows.laid`,
`Attributes.gives` and `Gives.chain`.
-/

namespace ThriftIdl

open ThriftIdl.Source (Stops EndsLine opensGap isSpace isLineBreak Piece gapChars gapComments)
open ThriftIdl.Parser (View isSeparator)
open ThriftIdl.Grammar (Phrase)

namespace Layout

variable {Value First Second : Type} {tails : List String} {line rest : List Char}

/-! ## The gaps between rows -/

/-- Behind an item its comments are read, and then the lines after it. -/
theorem Behind.gap_eq (behind : Behind tails line) (ends : EndsLine rest) :
    ∃ pieces, Source.gap (line ++ rest) = pieces ++ Source.gap rest ∧ gapChars pieces = line ∧
      gapComments pieces = tails ∧ ∀ piece ∈ pieces, piece.isBreak = false := by
  induction behind with
  | nil => exact ⟨[], rfl, rfl, rfl, by simp⟩
  | @space char _ _ space _ ih =>
      obtain ⟨pieces, found, rfl, rfl, inLine⟩ := ih
      refine ⟨.space char :: pieces, ?_, rfl, rfl, List.forall_mem_cons.mpr ⟨rfl, inLine⟩⟩
      rw [List.cons_append, Source.gap_space space, found, List.cons_append]
  | @block body _ _ inside _ ih =>
      obtain ⟨pieces, found, rfl, rfl, inLine⟩ := ih
      refine ⟨.block ('/' :: '*' :: (body ++ ['*', '/'])) :: pieces, ?_, rfl, rfl,
        List.forall_mem_cons.mpr ⟨rfl, inLine⟩⟩
      rw [List.append_assoc, gap_block inside, found, List.cons_append]
  | @line mark body isMark inside =>
      refine ⟨[.line (mark ++ body)], gap_line isMark inside ends, List.append_nil _, rfl, ?_⟩
      exact List.forall_mem_singleton.mpr rfl

/-- On the lines above an item its comments are read. -/
theorem Above.gap_eq {heads : List String} {lines : List Char} (above : Above heads lines)
    (rest : List Char) :
    ∃ pieces, Source.gap (lines ++ rest) = pieces ++ Source.gap rest ∧ gapChars pieces = lines ∧
      gapComments pieces = heads := by
  induction above with
  | nil => exact ⟨[], rfl, rfl, rfl⟩
  | blank blank _ ih =>
      obtain ⟨pieces, found, rfl, rfl⟩ := ih
      obtain ⟨piece, here, chars, none⟩ := gap_blank blank (gapChars pieces ++ rest)
      refine ⟨piece :: pieces, ?_, ?_, List.filterMap_cons_none none⟩
      · rw [List.cons_append, here, found, List.cons_append]
      · rw [gapChars, List.flatMap_cons, chars]
        rfl
  | @block body _ _ inside _ ih =>
      obtain ⟨pieces, found, rfl, rfl⟩ := ih
      refine ⟨.block ('/' :: '*' :: (body ++ ['*', '/'])) :: pieces, ?_, rfl, rfl⟩
      rw [List.append_assoc, gap_block inside, found, List.cons_append]
  | @line mark body more char heads isMark inside breaks _ ih =>
      obtain ⟨pieces, found, rfl, rfl⟩ := ih
      refine ⟨.line (mark ++ body) :: .lineBreak char :: pieces, ?_, rfl, rfl⟩
      have ends : EndsLine (char :: (gapChars pieces ++ rest)) := by simpa [EndsLine] using breaks
      rw [List.append_assoc, List.cons_append, gap_line isMark inside ends,
        Source.gap_lineBreak breaks, found, List.cons_append, List.cons_append]

/-- Behind the tokens of a row, the comments behind them wait for the last item and those above the
next row for the next one. -/
theorem skip_behind (behind : Behind tails line) (ends : EndsLine rest) (head tail : List String) :
    View.skip ⟨line ++ rest, head, tail⟩ =
      ⟨(View.opening rest).rest, head ++ (View.opening rest).head, tail ++ tails⟩ := by
  obtain ⟨pieces, found, chars, comments, inLine⟩ := behind.gap_eq ends
  have inLine : ∀ piece ∈ pieces, (!piece.isBreak) = true := by simpa using inLine
  have first : Source.firstLine (pieces ++ Source.gap rest) = pieces :=
    (Source.firstLine_append pieces ends).trans (List.takeWhile_eq_self_iff.mpr inLine)
  have later : Source.laterLines (pieces ++ Source.gap rest) = Source.gap rest := by
    rw [Source.laterLines_append pieces ends, Source.laterLines,
      List.dropWhile_eq_nil_iff.mpr inLine, List.nil_append]
  simp only [View.skip, View.opening_eq, found, first, later, comments, Source.gapChars_append,
    chars, List.length_append, List.drop_length_add_append]

/-- Behind the lines above a row stands its first token. -/
theorem opening_above {heads : List String} {lines : List Char} (above : Above heads lines)
    (stops : Stops opensGap rest) : View.opening (lines ++ rest) = ⟨rest, heads, []⟩ := by
  obtain ⟨pieces, found, chars, comments⟩ := above.gap_eq rest
  rw [Source.gap_eq_nil stops, List.append_nil] at found
  rw [View.opening_eq, found, chars, comments, List.drop_left]

/-- A gap without comments changes nothing but the text. -/
theorem skip_silent {text : List Char} (silent : gapComments (Source.gap text) = [])
    (head tail : List String) : View.skip ⟨text, head, tail⟩ =
      ⟨text.drop (gapChars (Source.gap text)).length, head, tail⟩ := by
  have split := List.takeWhile_append_dropWhile (p := fun piece : Piece => !piece.isBreak)
    (l := Source.gap text)
  rw [← split, gapComments, List.filterMap_append, List.append_eq_nil_iff] at silent
  obtain ⟨first, later⟩ := silent
  simp only [View.skip, gapComments, Source.firstLine, Source.laterLines, first, later,
    List.append_nil]

/-! ## The tokens of a row -/

private theorem above_spaces {spaces : List Char} (areSpaces : ∀ char ∈ spaces, isSpace char) :
    Above [] spaces := by
  induction spaces with
  | nil => exact .nil
  | cons char others ih =>
      exact .blank (.inl (areSpaces char (by simp)))
        (ih fun other member => areSpaces other (by simp [member]))

/-- Behind a token the blanks on its line are passed. -/
theorem pastToken_spaces (token : Token) {spaces : List Char}
    (areSpaces : ∀ char ∈ spaces, isSpace char) (stops : Stops opensGap rest)
    (head tail : List String) :
    pastToken ⟨token ++ (spaces ++ rest), head, tail⟩ token = ⟨rest, head, tail⟩ := by
  obtain ⟨pieces, found, chars, silent⟩ := (above_spaces areSpaces).gap_eq rest
  rw [Source.gap_eq_nil stops, List.append_nil] at found
  rw [← found] at chars silent
  simp only [pastToken, List.drop_left, skip_silent silent, chars]

namespace OnLine

variable {tokens : List Token}

/-- A line of tokens begins with a character that opens no gap. -/
theorem exists_cons (onLine : OnLine tails tokens line) (areTokens : AreTokens tokens) :
    ∃ first others, line = first :: others ∧ opensGap first = false := by
  cases onLine with
  | last =>
      obtain ⟨first, others, rfl, plain⟩ := areTokens _ (.head _)
      exact ⟨first, _, rfl, plain⟩
  | next =>
      obtain ⟨first, others, rfl, plain⟩ := areTokens _ (.head _)
      exact ⟨first, _, rfl, plain⟩

private theorem stops (onLine : OnLine tails tokens line) (areTokens : AreTokens tokens)
    (rest : List Char) : Stops opensGap (line ++ rest) := by
  obtain ⟨first, others, rfl, plain⟩ := onLine.exists_cons areTokens
  exact Source.stops_cons.mpr plain

/-- **The tokens of a row** are calm, and past them the comments behind wait for the last item. -/
theorem past (onLine : OnLine tails tokens line) (areTokens : AreTokens tokens)
    (ends : EndsLine rest) : Calm ⟨line ++ rest, [], []⟩ tokens ∧
      Layout.past ⟨line ++ rest, [], []⟩ tokens =
        ⟨(View.opening rest).rest, (View.opening rest).head, tails⟩ := by
  induction onLine with
  | @last token line behind =>
      refine ⟨⟨⟨rfl, rfl⟩, trivial⟩, ?_⟩
      rw [past_cons, past_nil, List.append_assoc, pastToken, List.drop_left]
      exact skip_behind behind ends [] []
  | @next token second tokens spaces more areSpaces _ onLine ih =>
      have others : AreTokens (second :: tokens) := areTokens.tail
      have passed : pastToken ⟨token ++ (spaces ++ more) ++ rest, [], []⟩ token =
          ⟨more ++ rest, [], []⟩ := by
        rw [List.append_assoc, List.append_assoc]
        exact pastToken_spaces token areSpaces (onLine.stops others rest) [] []
      obtain ⟨calm, last⟩ := ih others
      refine ⟨⟨⟨rfl, rfl⟩, ?_⟩, ?_⟩
      · rw [passed]
        exact calm
      · rw [past_cons, passed]
        exact last

end OnLine

/-! ## Rows are layouts of their tokens -/

/-- The tokens of several rows. -/
def tokensOf (rows : List Row) : List Token :=
  rows.flatMap Row.tokens

/-- Rows are put together token by token. -/
theorem tokensOf_append (front back : List Row) :
    tokensOf (front ++ back) = tokensOf front ++ tokensOf back :=
  List.flatMap_append

private theorem Above.isGap {heads : List String} {lines : List Char} (above : Above heads lines)
    (last : Prop) : IsGap last lines := by
  induction above with
  | nil => exact .nil
  | blank blank _ ih => exact .blank blank ih
  | block inside _ ih => exact .block inside ih
  | line isMark inside breaks _ ih =>
      exact .line isMark inside (by simpa [EndsLine] using breaks) (by simp)
        (.blank (.inr breaks) ih)

private theorem Behind.isGap {last : Prop} {gap : List Char} (behind : Behind tails line)
    (ends : EndsLine gap) (final : gap = [] → last) (isGap : IsGap last gap) :
    IsGap last (line ++ gap) := by
  induction behind with
  | nil => exact isGap
  | space space _ ih => exact .blank (.inl space) ih
  | block inside _ ih =>
      rw [List.append_assoc]
      exact .block inside ih
  | line isMark inside => exact .line isMark inside ends final isGap

/-- What stands behind the last token of a line does not grow together with it. -/
theorem Behind.stops (behind : Behind tails line) (ends : EndsLine rest) :
    Stops isWordChar (line ++ rest) := by
  have plain (char : Char) (blank : isSpace char ∨ isLineBreak char) : isWordChar char = false := by
    simp only [isSpace, isLineBreak, Bool.or_eq_true, beq_iff_eq] at blank
    rcases blank with (rfl | rfl) | rfl | rfl <;> rfl
  cases behind with
  | nil => exact ends.stops fun char breaks => plain char (.inr breaks)
  | space space _ => exact Source.stops_cons.mpr (plain _ (.inl space))
  | block => rfl
  | line isMark _ => rcases isMark with rfl | rfl <;> rfl

private theorem EndsLine.of_append {front back : List Char} (ends : EndsLine (front ++ back)) :
    EndsLine front := by
  cases front with
  | nil => rfl
  | cons char others => exact ends

/-- A line and what comes after it is a layout of their tokens. -/
theorem OnLine.laid {tokens others : List Token} {gap text : List Char}
    (onLine : OnLine tails tokens line) (ends : EndsLine (gap ++ text))
    (isGap : IsGap (others = []) gap) (laid : Laid others text)
    (areTokens : AreTokens (tokens ++ others)) :
    Laid (tokens ++ others) (line ++ (gap ++ text)) := by
  induction onLine with
  | @last token line behind =>
      have areOthers : AreTokens others := areTokens.tail
      have final : gap = [] → others = [] := by
        rintro rfl
        have nothing := Source.eq_nil_of_endsLine (Source.gap_eq_nil (laid.stops areOthers)) ends
        exact Laid.eq_nil (nothing ▸ laid) areOthers
      have apart : ¬GrowsInto token (line ++ gap ++ text) := by
        have stops := behind.stops ends
        rw [← List.append_assoc] at stops
        exact fun grows => Bool.false_ne_true (stops.symm.trans grows.2)
      rw [List.append_assoc, ← List.append_assoc line]
      exact .cons (behind.isGap (EndsLine.of_append ends) final isGap) apart laid
  | @next token second tokens spaces more areSpaces grows onLine ih =>
      have later : AreTokens (second :: tokens ++ others) := areTokens.tail
      obtain ⟨first, more, rfl, -⟩ := onLine.exists_cons later.front
      have apart : ¬GrowsInto token (spaces ++ (first :: more ++ (gap ++ text))) := by
        rw [← List.append_assoc]
        unfold GrowsInto at grows ⊢
        rwa [List.head?_append_of_ne_nil _ (by simp)]
      rw [List.append_assoc, List.append_assoc]
      exact .cons ((above_spaces areSpaces).isGap _) apart (ih later)

/-- **Texts in rows** are layouts of the tokens in the rows. -/
theorem InRows.laid {rows : List Row} {text : List Char} (inRows : InRows rows text)
    (areTokens : AreTokens (tokensOf rows)) : ∃ gap more, text = gap ++ more ∧
      IsGap (tokensOf rows = []) gap ∧ Laid (tokensOf rows) more := by
  induction inRows with
  | @nil strays lines above => exact ⟨lines, [], (List.append_nil _).symm, above.isGap _, .nil⟩
  | @cons row rows lines line rest above onLine ends _ ih =>
      obtain ⟨gap, more, rfl, isGap, laid⟩ := ih areTokens.back
      exact ⟨lines, _, rfl, above.isGap _, onLine.laid ends isGap laid areTokens⟩

/-! ## Views that face rows -/

/-- A view that stands at the first token of a row, with the comments above it waiting, or at the
end of a text. -/
inductive Facing : List Row → View → Prop
  | done {heads : List String} : Facing [] ⟨[], heads, []⟩
  | row {row : Row} {rows : List Row} {line rest : List Char} :
      OnLine row.tails row.tokens line → EndsLine rest → InRows rows rest →
      Facing (row :: rows) ⟨line ++ rest, row.heads, []⟩

/-- Behind the lines above it, a text in rows is faced. -/
theorem InRows.facing {rows : List Row} {text : List Char} (inRows : InRows rows text)
    (areTokens : AreTokens (tokensOf rows)) : Facing rows (View.opening text) := by
  cases inRows with
  | nil above =>
      have opened := opening_above above Source.stops_nil
      rw [List.append_nil] at opened
      rw [opened]
      exact .done
  | cons above onLine ends inRows =>
      rw [opening_above above (onLine.stops areTokens.front _)]
      exact .row onLine ends inRows

/-- A view that faces rows stands before their tokens, laid out. -/
theorem Facing.laid {rows : List Row} {view : View} (facing : Facing rows view)
    (areTokens : AreTokens (tokensOf rows)) : Laid (tokensOf rows) view.rest := by
  cases facing with
  | done => exact .nil
  | row onLine ends inRows =>
      obtain ⟨gap, more, rfl, isGap, laid⟩ := inRows.laid areTokens.back
      exact onLine.laid ends isGap laid areTokens

/-- **Past a row**, with the comments above it taken, its tokens have been calm, the comments behind
them wait, and the next row is faced when these are taken too. -/
theorem Facing.past {row : Row} {rows : List Row} {view : View} (facing : Facing (row :: rows) view)
    (areTokens : AreTokens (tokensOf (row :: rows))) : view.head = row.heads ∧
      Calm { view with head := [] } row.tokens ∧
      ∃ rest head, Layout.past { view with head := [] } row.tokens = ⟨rest, head, row.tails⟩ ∧
        Facing rows ⟨rest, head, []⟩ := by
  cases facing with
  | row onLine ends inRows =>
      have tokens : AreTokens row.tokens := areTokens.front
      have others : AreTokens (tokensOf rows) := areTokens.back
      obtain ⟨calm, passed⟩ := onLine.past tokens ends
      exact ⟨rfl, calm, _, _, passed, inRows.facing others⟩

/-! ## Rows that give a phrase -/

/-- Rows that give a phrase with a value: every view that faces them is at the phrase, and behind
the phrase stands a view that faces the rows after them. -/
structure Gives (phrase : Phrase Value) (value : Value) (rows : List Row) : Prop where
  areTokens : AreTokens (tokensOf rows)
  plain : ∀ {more : List Token}, AreTokens more → Plain more → Plain (tokensOf rows ++ more)
  found : ∀ {more : List Row} {before : View}, AreTokens (tokensOf more) → Plain (tokensOf more) →
    Facing (rows ++ more) before → ∃ after, phrase before value after ∧ Facing more after

/-- **An item on a row** has the comments of the row. -/
theorem Attributes.gives {phrase : Phrase Value} {good : Value → Prop} {make : Comments → Value}
    {row : Row} (attributes : Attributes phrase good make row.tokens)
    (starts : phrase.Starts (Stops isSeparator)) : Gives phrase (make row.comments) [row] := by
  have single : tokensOf [row] = row.tokens := List.append_nil _
  refine ⟨single ▸ attributes.areTokens, fun areTokens plain => ?_,
    fun {more before} areTokens plain facing => ?_⟩
  · rw [single]
    exact attributes.yields.plain starts areTokens plain
  · have tokens : AreTokens (tokensOf (row :: more)) := attributes.areTokens.append areTokens
    have laid : Laid (row.tokens ++ tokensOf more) before.rest := facing.laid tokens
    obtain ⟨heads, calm, rest, head, passed, later⟩ := facing.past tokens
    obtain ⟨value, after, here, -, -, ends⟩ := attributes.found areTokens plain laid
    rw [passed, heads] at ends
    obtain ⟨_, _, ⟨rfl, rfl⟩, rfl, rfl⟩ := ends calm
    exact ⟨_, here, later⟩

namespace Gives

/-- Rows that give one of several phrases give their choice. -/
theorem oneOf {phrase : Phrase Value} {phrases : List (Phrase Value)} {value : Value}
    {rows : List Row} (gives : Gives phrase value rows) (member : phrase ∈ phrases) :
    Gives (Phrase.oneOf phrases) value rows := by
  refine ⟨gives.areTokens, gives.plain, fun areTokens plain facing => ?_⟩
  obtain ⟨after, here, later⟩ := gives.found areTokens plain facing
  exact ⟨after, ⟨phrase, member, here⟩, later⟩

/-- No rows give no repetition. -/
theorem repeatedNil (phrase : Phrase Value) : Gives (Phrase.Repeated phrase) [] [] :=
  ⟨by simp [AreTokens, tokensOf], fun _ plain => plain, fun _ _ facing => ⟨_, .done _, facing⟩⟩

/-- Rows of one phrase and then rows of another give what the two make up. -/
theorem chain {phrase : Phrase First} {second : Phrase Second} {whole : Phrase Value}
    {known : First} {later : Second} {value : Value} {front back : List Row}
    (first : Gives phrase known front) (rest : Gives second later back)
    (joins : ∀ {before middle after},
      phrase before known middle → second middle later after → whole before value after) :
    Gives whole value (front ++ back) := by
  refine ⟨?_, fun areTokens plain => ?_, fun {more before} areTokens plain facing => ?_⟩
  · rw [tokensOf_append]
    exact first.areTokens.append rest.areTokens
  · rw [tokensOf_append, List.append_assoc]
    exact first.plain (rest.areTokens.append areTokens) (rest.plain areTokens plain)
  · rw [List.append_assoc] at facing
    have tokens : AreTokens (tokensOf (back ++ more)) := by
      rw [tokensOf_append]
      exact rest.areTokens.append areTokens
    have plainRest : Plain (tokensOf (back ++ more)) := by
      rw [tokensOf_append]
      exact rest.plain areTokens plain
    obtain ⟨middle, here, between⟩ := first.found tokens plainRest facing
    obtain ⟨after, there, last⟩ := rest.found areTokens plain between
    exact ⟨after, joins here there, last⟩

/-- Rows of one phrase and then rows of the next give them in sequence. -/
theorem bind {phrase : Phrase First} {next : First → Phrase Value} {known : First} {value : Value}
    {front back : List Row} (first : Gives phrase known front)
    (rest : Gives (next known) value back) : Gives (phrase >>= next) value (front ++ back) :=
  first.chain rest fun here there => ⟨known, _, here, there⟩

/-- A further item in its rows makes a repetition longer by one. -/
theorem repeatedCons {phrase : Phrase Value} {value : Value} {values : List Value}
    {front back : List Row} (item : Gives phrase value front)
    (rest : Gives (Phrase.Repeated phrase) values back) :
    Gives (Phrase.Repeated phrase) (value :: values) (front ++ back) :=
  item.chain rest fun here there => .next here there

/-- **Rows one after the other** give a repetition. -/
theorem each {phrase : Phrase Value} {areRows : Value → List Row → Prop} {items : List Value}
    {parts : List (List Row)} (matched : List.Forall₂ areRows items parts)
    (gives : ∀ item ∈ items, ∀ rows, areRows item rows → Gives phrase item rows) :
    Gives (Phrase.Repeated phrase) items parts.flatten := by
  induction matched with
  | nil => exact repeatedNil phrase
  | cons here _ ih =>
      exact (gives _ (by simp) _ here).repeatedCons
        (ih fun other member => gives other (by simp [member]))

/-- Items with a row each give a repetition. -/
theorem eachRow {phrase : Phrase Value} {isRow : Value → Row → Prop} {items : List Value}
    {rows : List Row} (matched : List.Forall₂ isRow items rows)
    (gives : ∀ item ∈ items, ∀ row, isRow item row → Gives phrase item [row]) :
    Gives (Phrase.Repeated phrase) items rows := by
  have parts : List.Forall₂ (fun item part => ∃ row, part = [row] ∧ isRow item row) items
      (rows.map ([·])) := by
    rw [List.forall₂_map_right_iff]
    exact matched.imp fun _ row here => ⟨row, rfl, here⟩
  have given := each parts fun item member _ ⟨row, single, here⟩ =>
    single ▸ gives item member row here
  rwa [← List.flatMap_def, List.flatMap_singleton'] at given

end Gives

end Layout
end ThriftIdl
