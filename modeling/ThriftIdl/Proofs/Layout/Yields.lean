import ThriftIdl.Proofs.Grammar.Declaration
import ThriftIdl.Proofs.Layout.Calm
import ThriftIdl.Proofs.Layout.Written

/-!
# Tokens that yield a phrase

A list of tokens yields a phrase if the phrase is found wherever these tokens are laid out, whatever
tokens follow. What a phrase depends on beyond its own tokens is whether a separator follows, and
which comments stand around them; so in general the value is known up to a property. Where the
tokens are calm, it is known exactly what is left of the phrase behind them. Main statements:
`Yields.token`, `Yields.bindWith`, `Yields.repeatedWith` and `Attributes.of`.
-/

namespace ThriftIdl

open ThriftIdl.Source (Stops opensGap)
open ThriftIdl.Parser (View isSeparator)
open ThriftIdl.Grammar (Phrase Lexeme)

namespace Layout

variable {Value First Second : Type}

/-- Tokens of which the first is no separator. -/
def Plain (tokens : List Token) : Prop :=
  ∀ text, Laid tokens text → Stops isSeparator text

/-- No tokens begin with no separator. -/
theorem plain_nil : Plain [] := by
  intro text laid
  cases laid
  rfl

/-- Tokens are plain if their first character is no separator. -/
theorem plain_cons {char : Char} (plain : isSeparator char = false) (chars : List Char)
    (tokens : List Token) : Plain ((char :: chars) :: tokens) := by
  intro text laid
  cases laid
  exact Source.stops_cons.mpr plain

/-! ## What is left of a phrase -/

/-- Any value and any place. -/
def unknown : Phrase Value :=
  fun _ _ _ => True

/-- A value and nothing more of the text, if no comments wait. -/
def quietly (value : Value) : Phrase Value :=
  fun before found after => IsQuiet before → found = value ∧ after = before

/-- The comments that wait for the last item, and nothing more of the text. -/
def tailed (make : Option String → Value) : Phrase Value := do
  let tail ← Phrase.drainTail
  return make tail

/-- Tokens that yield a phrase with a good value wherever they are laid out before tokens that may
follow. Where they are calm, what is left of the phrase behind them is known. -/
structure Yields (phrase : Phrase Value) (good : Value → Prop) (left : Phrase Value)
    (follow : List Token → Prop) (tokens : List Token) : Prop where
  areTokens : AreTokens tokens
  found : ∀ {more : List Token} {before : View}, AreTokens more → follow more →
    Laid (tokens ++ more) before.rest →
    ∃ value after, phrase before value after ∧ good value ∧ Laid more after.rest ∧
      (Calm before tokens → left (past before tokens) value after)

/-- Tokens that yield a phrase with a known value. Where they are calm, the phrase ends behind
them. -/
abbrev Takes (phrase : Phrase Value) (value : Value) (follow : List Token → Prop)
    (tokens : List Token) : Prop :=
  Yields phrase (· = value) (pure value) follow tokens

/-- Any tokens may follow. -/
def anywhere : List Token → Prop :=
  fun _ => True

namespace Yields

variable {phrase left : Phrase Value} {good : Value → Prop} {follow : List Token → Prop}
  {tokens : List Token}

/-- What is known of the value, of what is left and of what may follow may be said more weakly. -/
theorem mono {better : Value → Prop} {closer : Phrase Value} {stronger : List Token → Prop}
    (yields : Yields phrase better closer follow tokens)
    (values : ∀ value, better value → good value)
    (lefts : ∀ {before value after}, closer before value after → left before value after)
    (implies : ∀ more, stronger more → follow more) :
    Yields phrase good left stronger tokens := by
  refine ⟨yields.areTokens, fun areTokens met laid => ?_⟩
  obtain ⟨value, after, here, isGood, later, exact⟩ := yields.found areTokens (implies _ met) laid
  exact ⟨value, after, here, values value isGood, later, fun calm => lefts (exact calm)⟩

/-- What is left of a phrase may be forgotten. -/
theorem forget (yields : Yields phrase good left follow tokens) :
    Yields phrase good unknown follow tokens :=
  yields.mono (fun _ isGood => isGood) (fun _ => trivial) fun _ met => met

/-- What is exact is so in particular where no comments wait. -/
theorem quiet {value : Value} (yields : Yields phrase good (pure value) follow tokens) :
    Yields phrase good (quietly value) follow tokens :=
  yields.mono (fun _ isGood => isGood) (fun ends _ => ends) fun _ met => met

/-- A phrase that takes no text. -/
theorem silent (here : ∀ before : View, ∃ value after, phrase before value after ∧ good value ∧
    after.rest = before.rest ∧ left before value after) : Yields phrase good left follow [] := by
  refine ⟨by simp [AreTokens], fun {more before} _ _ laid => ?_⟩
  obtain ⟨value, after, found, isGood, same, exact⟩ := here before
  exact ⟨value, after, found, isGood, same ▸ laid, fun _ => exact⟩

/-- A value alone is there without a token. -/
theorem pure {value : Value} (isGood : good value) :
    Yields (Pure.pure value : Phrase Value) good (Pure.pure value) follow [] :=
  silent fun before => ⟨value, before, ⟨rfl, rfl⟩, isGood, rfl, rfl, rfl⟩

/-- A condition that holds is met without a token. -/
theorem provided {condition : Prop} (holds : condition) :
    Takes (Grammar.provided condition) () follow [] :=
  silent fun before => ⟨(), before, ⟨holds, rfl⟩, rfl, rfl, rfl, rfl⟩

/-- A value that is known is given without a token. -/
theorem given {value? : Option Value} {value : Value} (known : value? = some value) :
    Takes (Grammar.given value?) value follow [] :=
  silent fun before => ⟨value, before, ⟨known, rfl⟩, rfl, rfl, rfl, rfl⟩

/-- Comments before an item are taken without a token. -/
theorem drainHead : Yields Phrase.drainHead (fun _ => True) unknown follow [] :=
  silent fun _ => ⟨_, _, ⟨rfl, rfl⟩, trivial, rfl, trivial⟩

/-- Comments behind an item are taken without a token. -/
theorem drainTail : Yields Phrase.drainTail (fun _ => True) unknown follow [] :=
  silent fun _ => ⟨_, _, ⟨rfl, rfl⟩, trivial, rfl, trivial⟩

/-- The comments that wait for the last item. -/
theorem tail {make : Option String → Value} (isGood : ∀ tail, good (make tail)) :
    Yields (tailed make) good (tailed make) follow [] := by
  refine silent fun before => ?_
  have here : tailed make before (make (Comment.Queue.together before.tail))
      { before with tail := [] } := ⟨_, _, ⟨rfl, rfl⟩, rfl, rfl⟩
  exact ⟨_, _, here, isGood _, rfl, here⟩

/-- **Sequences** are yielded by the tokens of their parts, one after the other. -/
theorem bindWith {phrase leftFirst : Phrase First} {next leftSecond : First → Phrase Second}
    {left : Phrase Second} {good : First → Prop} {good' : Second → Prop}
    {between follow : List Token → Prop} {front back : List Token}
    (first : Yields phrase good leftFirst between front) (known : First) (isGood : good known)
    (second : ∀ value, good value → Yields (next value) good' (leftSecond value) follow back)
    (meets : ∀ more, AreTokens more → follow more → between (back ++ more))
    (joins : ∀ {view value middle found after}, Calm view back → leftFirst view value middle →
      (Calm middle back → leftSecond value (past middle back) found after) →
      left (past view back) found after) :
    Yields (phrase >>= next) good' left follow (front ++ back) := by
  have tokens := (second known isGood).areTokens
  refine ⟨first.areTokens.append tokens, fun {more before} areTokens met laid => ?_⟩
  rw [List.append_assoc] at laid
  obtain ⟨value, middle, here, isGood, later, exact⟩ :=
    first.found (tokens.append areTokens) (meets more areTokens met) laid
  obtain ⟨final, after, there, isGood', last, exact'⟩ :=
    (second value isGood).found areTokens met later
  refine ⟨final, after, ⟨value, middle, here, there⟩, isGood', last, fun calm => ?_⟩
  obtain ⟨calmFront, calmBack⟩ := calm_append.mp calm
  rw [past_append]
  exact joins calmBack (exact calmFront) exact'

/-- Sequences whose first part is exact in calm layouts. -/
theorem bindGood {phrase : Phrase First} {next : First → Phrase Second} {good : First → Prop}
    {good' : Second → Prop} {between follow : List Token → Prop} {front back : List Token}
    {known : First} (first : Yields phrase good (Pure.pure known) between front)
    (isGood : good known) (left : First → Phrase Second)
    (second : ∀ value, good value → Yields (next value) good' (left value) follow back)
    (meets : ∀ more, AreTokens more → follow more → between (back ++ more)) :
    Yields (phrase >>= next) good' (left known) follow (front ++ back) := by
  refine first.bindWith known isGood second meets ?_
  rintro view _ _ found after calm ⟨rfl, rfl⟩ ends
  exact ends calm

/-- Sequences whose first part is exact where no comments wait behind it, as none do before the
first token of a calm second part. -/
theorem bindQuiet {phrase : Phrase First} {next : First → Phrase Second} {good : First → Prop}
    {good' : Second → Prop} {between follow : List Token → Prop} {front back : List Token}
    {known : First} (first : Yields phrase good (quietly known) between front)
    (isGood : good known) (left : First → Phrase Second)
    (second : ∀ value, good value → Yields (next value) good' (left value) follow back)
    (meets : ∀ more, AreTokens more → follow more → between (back ++ more))
    (nonempty : back ≠ []) :
    Yields (phrase >>= next) good' (left known) follow (front ++ back) := by
  refine first.bindWith known isGood second meets ?_
  intro view value middle found after calm here ends
  obtain ⟨rfl, rfl⟩ := here (calm.isQuiet nonempty)
  exact ends calm

/-- Sequences whose first part has a known value and is exact where no comments wait behind it. -/
theorem bindKnown {phrase : Phrase First} {next : First → Phrase Second} {value : First}
    {left : Phrase Second} {good' : Second → Prop} {between follow : List Token → Prop}
    {front back : List Token} (first : Yields phrase (· = value) (quietly value) between front)
    (second : Yields (next value) good' left follow back)
    (meets : ∀ more, AreTokens more → follow more → between (back ++ more))
    (nonempty : back ≠ []) : Yields (phrase >>= next) good' left follow (front ++ back) :=
  first.bindQuiet rfl (fun _ => left) (fun _ same => same ▸ second) meets nonempty

/-- Sequences of which only the value matters. -/
theorem bindLoose {phrase leftFirst : Phrase First} {next : First → Phrase Second}
    {good : First → Prop} {good' : Second → Prop} {between follow : List Token → Prop}
    {front back : List Token} (first : Yields phrase good leftFirst between front) (known : First)
    (isGood : good known)
    (second : ∀ value, good value → Yields (next value) good' unknown follow back)
    (meets : ∀ more, AreTokens more → follow more → between (back ++ more)) :
    Yields (phrase >>= next) good' unknown follow (front ++ back) :=
  first.bindWith known isGood second meets fun _ _ _ => trivial

/-- Sequences whose first part has a known value and may be followed by any tokens. -/
theorem bind {phrase : Phrase First} {next : First → Phrase Second} {value : First}
    {left : Phrase Second} {good' : Second → Prop} {front back : List Token}
    (first : Takes phrase value anywhere front)
    (second : Yields (next value) good' left follow back) :
    Yields (phrase >>= next) good' left follow (front ++ back) :=
  first.bindGood rfl (fun _ => left) (fun _ same => same ▸ second) fun _ _ _ => trivial

/-- Sequences whose first part takes no text. -/
theorem bindSilent [Inhabited First] {phrase leftFirst : Phrase First}
    {next : First → Phrase Second} {good' : Second → Prop}
    (first : Yields phrase (fun _ => True) leftFirst anywhere [])
    (second : ∀ value, Yields (next value) good' unknown follow tokens) :
    Yields (phrase >>= next) good' unknown follow tokens :=
  first.bindLoose default trivial (fun value _ => second value) fun _ _ _ => trivial

/-- Changing the value changes no token. -/
theorem map {phrase : Phrase First} {change : First → Second} {value : First}
    (first : Takes phrase value anywhere tokens) :
    Takes (change <$> phrase) (change value) follow tokens := by
  have mapped : Takes (phrase >>= fun value => Pure.pure (change value)) (change value) follow
      (tokens ++ []) := first.bind (.pure rfl)
  rwa [List.append_nil] at mapped

/-- A part that is left out. -/
theorem absent : Takes phrase.optional none follow [] :=
  silent fun before => ⟨none, before, rfl, rfl, rfl, rfl, rfl⟩

/-- An optional part that is there. -/
theorem presentGood {value : Value} (inner : Yields phrase good (Pure.pure value) follow tokens) :
    Yields phrase.optional (fun found => ∃ value, found = some value ∧ good value)
      (Pure.pure (some value)) follow tokens := by
  refine ⟨inner.areTokens, fun {more before} areTokens met laid => ?_⟩
  obtain ⟨found, after, here, isGood, later, exact⟩ := inner.found areTokens met laid
  exact ⟨some found, after, here, ⟨found, rfl, isGood⟩, later,
    fun calm => ⟨congrArg some (exact calm).1, (exact calm).2⟩⟩

/-- An optional part that is there, with a known value. -/
theorem present {value : Value} (inner : Takes phrase value follow tokens) :
    Takes phrase.optional (some value) follow tokens :=
  inner.presentGood.mono (fun _ ⟨_, isSome, same⟩ => same ▸ isSome) (fun ends => ends)
    fun _ met => met

/-- A condition that all good values meet changes no token. -/
theorem only {test : Value → Prop} (inner : Yields phrase good left follow tokens)
    (passes : ∀ value, good value → test value) :
    Yields (phrase.only test) good left follow tokens := by
  refine ⟨inner.areTokens, fun {more before} areTokens met laid => ?_⟩
  obtain ⟨value, after, here, isGood, later⟩ := inner.found areTokens met laid
  exact ⟨value, after, ⟨here, passes value isGood⟩, isGood, later⟩

/-- What yields a phrase yields every phrase that it is a form of. -/
theorem imp {other : Phrase Value} (inner : Yields phrase good left follow tokens)
    (implies : ∀ {before value after}, phrase before value after → other before value after) :
    Yields other good left follow tokens := by
  refine ⟨inner.areTokens, fun {more before} areTokens met laid => ?_⟩
  obtain ⟨value, after, here, isGood, later⟩ := inner.found areTokens met laid
  exact ⟨value, after, implies here, isGood, later⟩

/-- The tokens of one phrase yield a choice with that phrase in it. -/
theorem oneOf {phrases : List (Phrase Value)} (member : phrase ∈ phrases)
    (inner : Yields phrase good left follow tokens) :
    Yields (Phrase.oneOf phrases) good left follow tokens :=
  inner.imp fun here => ⟨phrase, member, here⟩

/-- **A token** of a lexeme, if only what would grow together with it makes it longer. -/
theorem token {lexeme : Lexeme Value} {chars : Token} {value : Value}
    (spells : lexeme.spells chars value)
    (apart : ∀ following, ¬GrowsInto chars following → lexeme.runsOn following = false) :
    Takes lexeme.phrase value anywhere [chars] := by
  refine ⟨by simpa [AreTokens] using lexeme.opens spells, fun {more before} areTokens _ laid => ?_⟩
  have later : Laid more (pastToken before chars).rest := laid.behindToken areTokens
  obtain ⟨text, head, tail⟩ := before
  cases laid with
  | @cons _ _ gap rest isGap grows _ =>
      have dropped : List.drop chars.length (chars ++ (gap ++ rest)) = gap ++ rest := List.drop_left
      have here : lexeme.phrase ⟨chars ++ (gap ++ rest), head, tail⟩ value
          (pastToken ⟨chars ++ (gap ++ rest), head, tail⟩ chars) :=
        ⟨chars, gap ++ rest, rfl, spells, apart _ grows, by rw [pastToken, dropped]⟩
      exact ⟨value, _, here, rfl, later, fun _ => ⟨rfl, rfl⟩⟩

end Yields

/-! ## Separators -/

namespace Yields

/-- A separator, or none before tokens of which the first is none. -/
theorem separator {tokens : List Token} (isSeparator : IsSeparator tokens) :
    Takes Grammar.separator () Plain tokens := by
  have written {char : Char} (separates : Parser.isSeparator char) :
      Takes Grammar.separator () Plain [[char]] := by
    have inner : Takes Lexeme.separator.phrase () anywhere [[char]] :=
      token ⟨char, separates, rfl⟩ fun _ _ => rfl
    exact (inner.imp .inl).mono (fun _ same => same) (fun ends => ends) fun _ _ => trivial
  rcases isSeparator with rfl | rfl | rfl
  · refine ⟨by simp [AreTokens], fun {more before} areTokens plain laid => ?_⟩
    exact ⟨(), before, .inr ⟨plain _ laid, rfl⟩, rfl, laid, fun _ => ⟨rfl, rfl⟩⟩
  · exact written rfl
  · exact written rfl

/-- What may be followed by a separator, and what comes after that. -/
theorem bindSeparator {next : Unit → Phrase Value} {left : Phrase Value} {good : Value → Prop}
    {follow : List Token → Prop} {front back : List Token} (isSeparator : IsSeparator front)
    (second : Yields (next ()) good left follow back)
    (plain : ∀ more, AreTokens more → follow more → Plain (back ++ more)) :
    Yields (Grammar.separator >>= next) good left follow (front ++ back) :=
  (separator isSeparator).bindGood rfl (fun _ => left) (fun _ _ => second) plain

/-- A separator that comes last. -/
theorem separatorLast {next : Unit → Phrase Value} {left : Phrase Value} {good : Value → Prop}
    {tokens : List Token} (isSeparator : IsSeparator tokens)
    (rest : Yields (next ()) good left Plain []) :
    Yields (Grammar.separator >>= next) good left Plain tokens := by
  have yields := bindSeparator isSeparator rest fun _ _ plain => plain
  rwa [List.append_nil] at yields

/-- The separator and the comments with which an item or a declaration ends. -/
theorem ending {make : Option String → Value} {good : Value → Prop} {tokens : List Token}
    (isSeparator : IsSeparator tokens) (isGood : ∀ tail, good (make tail)) :
    Yields (do
      Grammar.separator
      let tail ← Phrase.drainTail
      return make tail) good (tailed make) Plain tokens :=
  separatorLast isSeparator (tail isGood)

end Yields

/-- Tokens of a phrase that begins with no separator. -/
theorem Yields.plain {phrase left : Phrase Value} {good : Value → Prop}
    {follow : List Token → Prop} {tokens more : List Token}
    (yields : Yields phrase good left follow tokens)
    (starts : phrase.Starts (Stops isSeparator)) (areTokens : AreTokens more) (met : follow more) :
    Plain (tokens ++ more) := by
  intro text laid
  have laid : Laid (tokens ++ more) (View.ofText text).rest := laid
  obtain ⟨value, after, here, -⟩ := yields.found areTokens met laid
  exact starts here

/-! ## Repetitions -/

namespace Yields

variable {phrase : Phrase Value}

/-- Without a token nothing is repeated. -/
theorem repeatedNil {good : List Value → Prop} (isGood : good []) :
    Yields (Phrase.Repeated phrase) good (Pure.pure []) Plain [] :=
  silent fun before => ⟨[], before, .done before, isGood, rfl, rfl, rfl⟩

/-- What is repeated begins with no separator, and neither does what comes after it. -/
theorem plainRepeated {good : List Value → Prop} {left : Phrase (List Value)}
    {tokens more : List Token} (starts : phrase.Starts (Stops isSeparator))
    (yields : Yields (Phrase.Repeated phrase) good left Plain tokens) (areTokens : AreTokens more)
    (met : Plain more) : Plain (tokens ++ more) := by
  intro text laid
  have laid : Laid (tokens ++ more) (View.ofText text).rest := laid
  obtain ⟨values, after, repeated, -, later, -⟩ := yields.found areTokens met laid
  cases repeated with
  | done => exact met _ later
  | next here _ => exact starts here

/-- **Repetitions** are yielded by the tokens of their items, one after the other. -/
theorem repeatedWith {first : Value → Prop} {others all : List Value → Prop}
    {leftFirst : Phrase Value} {leftOthers left : Phrase (List Value)} {front back : List Token}
    (starts : phrase.Starts (Stops isSeparator)) (item : Yields phrase first leftFirst Plain front)
    (rest : Yields (Phrase.Repeated phrase) others leftOthers Plain back)
    (combine : ∀ value values, first value → others values → all (value :: values))
    (joins : ∀ {view value middle values after}, Calm view back → leftFirst view value middle →
      (Calm middle back → leftOthers (past middle back) values after) →
      left (past view back) (value :: values) after) :
    Yields (Phrase.Repeated phrase) all left Plain (front ++ back) := by
  refine ⟨item.areTokens.append rest.areTokens, fun {more before} areTokens met laid => ?_⟩
  have plain : Plain (back ++ more) := plainRepeated starts rest areTokens met
  rw [List.append_assoc] at laid
  obtain ⟨value, middle, here, isFirst, later, exact⟩ :=
    item.found (rest.areTokens.append areTokens) plain laid
  obtain ⟨values, after, repeated, areOthers, last, exact'⟩ := rest.found areTokens met later
  refine ⟨value :: values, after, .next here repeated, combine value values isFirst areOthers, last,
    fun calm => ?_⟩
  obtain ⟨calmFront, calmBack⟩ := calm_append.mp calm
  rw [past_append]
  exact joins calmBack (exact calmFront) exact'

/-- Repetitions of items that are exact where no comments wait behind them. -/
theorem repeatedCons {first : Value → Prop} {others all : List Value → Prop} {known : Value}
    {knowns : List Value} {front back : List Token} (starts : phrase.Starts (Stops isSeparator))
    (item : Yields phrase first (quietly known) Plain front)
    (rest : Yields (Phrase.Repeated phrase) others (quietly knowns) Plain back)
    (combine : ∀ value values, first value → others values → all (value :: values)) :
    Yields (Phrase.Repeated phrase) all (quietly (known :: knowns)) Plain (front ++ back) := by
  refine repeatedWith starts item rest combine ?_
  intro view value middle values after calm here there ended
  have quiet : IsQuiet view := by
    cases back with
    | nil => exact ended
    | cons => exact calm.1
  obtain ⟨rfl, rfl⟩ := here quiet
  obtain ⟨rfl, rfl⟩ := there calm ended
  exact ⟨rfl, rfl⟩

/-- Repetitions of which only the values matter. -/
theorem repeatedLoose {first : Value → Prop} {others all : List Value → Prop}
    {leftFirst : Phrase Value} {leftOthers : Phrase (List Value)} {front back : List Token}
    (starts : phrase.Starts (Stops isSeparator)) (item : Yields phrase first leftFirst Plain front)
    (rest : Yields (Phrase.Repeated phrase) others leftOthers Plain back)
    (combine : ∀ value values, first value → others values → all (value :: values)) :
    Yields (Phrase.Repeated phrase) all unknown Plain (front ++ back) :=
  repeatedWith starts item rest combine fun _ _ _ => trivial

/-- What is written item by item is read item by item, as far as a view of the items tells. -/
theorem each {Seen : Type} {writes : Value → List Token → Prop} (view : Value → Seen)
    (starts : phrase.Starts (Stops isSeparator)) {items : List Value}
    (yields : ∀ item ∈ items, ∀ tokens, writes item tokens →
      Yields phrase (fun value => view value = view item) unknown Plain tokens)
    {tokens : List Token} (written : WritesEach writes items tokens) :
    Yields (Phrase.Repeated phrase) (fun values => values.map view = items.map view) unknown Plain
      tokens := by
  induction items generalizing tokens with
  | nil =>
      obtain rfl := written
      have none : ([] : List Value).map view = [].map view := rfl
      exact forget (repeatedNil none)
  | cons item others ih =>
      obtain ⟨front, back, here, there, rfl⟩ := written
      have rest := ih (fun other member => yields other (by simp [member])) there
      exact repeatedLoose starts (yields item (by simp) front here) rest
        fun value values first others => by rw [List.map_cons, List.map_cons, first, others]

end Yields

/-! ## Items with comments -/

/-- Tokens that yield an item wherever they are laid out. Where they are calm but for the comments
that wait before the item, these are the comments before it, and those behind its tokens are the
comments after it. -/
structure Attributes (phrase : Phrase Value) (good : Value → Prop) (make : Comments → Value)
    (tokens : List Token) : Prop where
  areTokens : AreTokens tokens
  found : ∀ {more : List Token} {before : View}, AreTokens more → Plain more →
    Laid (tokens ++ more) before.rest →
    ∃ value after, phrase before value after ∧ good value ∧ Laid more after.rest ∧
      (Calm { before with head := [] } tokens →
        tailed (fun tail => make ⟨Comment.Queue.together before.head, tail⟩)
          (past { before with head := [] } tokens) value after)

namespace Attributes

variable {phrase : Phrase Value} {good : Value → Prop} {make : Comments → Value}
  {tokens : List Token}

/-- An item begins with the comments that wait for it. -/
theorem of {next : Option String → Phrase Value}
    (yields : ∀ head, Yields (next head) good (tailed fun tail => make ⟨head, tail⟩) Plain tokens) :
    Attributes (Phrase.drainHead >>= next) good make tokens := by
  refine ⟨(yields none).areTokens, fun {more before} areTokens plain laid => ?_⟩
  have laid : Laid (tokens ++ more) { before with head := [] }.rest := laid
  obtain ⟨value, after, here, isGood, later, exact⟩ := (yields _).found areTokens plain laid
  exact ⟨value, after, ⟨_, _, ⟨rfl, rfl⟩, here⟩, isGood, later, exact⟩

/-- The tokens of one item yield a choice with that item in it. -/
theorem oneOf {phrases : List (Phrase Value)} (member : phrase ∈ phrases)
    (inner : Attributes phrase good make tokens) :
    Attributes (Phrase.oneOf phrases) good make tokens := by
  refine ⟨inner.areTokens, fun {more before} areTokens plain laid => ?_⟩
  obtain ⟨value, after, here, isGood, later⟩ := inner.found areTokens plain laid
  exact ⟨value, after, ⟨phrase, member, here⟩, isGood, later⟩

/-- An item on calm tokens, with none behind it either, has no comments. -/
theorem quiet (attributes : Attributes phrase good make tokens) (nonempty : tokens ≠ []) :
    Yields phrase good (quietly (make {})) Plain tokens := by
  refine ⟨attributes.areTokens, fun {more before} areTokens plain laid => ?_⟩
  obtain ⟨value, after, here, isGood, later, exact⟩ := attributes.found areTokens plain laid
  refine ⟨value, after, here, isGood, later, fun calm ended => ?_⟩
  have waiting : before.head = [] := (calm.isQuiet nonempty).1
  have same : { before with head := [] } = before := by rw [← waiting]
  rw [same, waiting] at exact
  obtain ⟨_, _, ⟨rfl, rfl⟩, rfl, rfl⟩ := exact calm
  have unchanged : { past before tokens with tail := [] } = past before tokens := by rw [← ended.2]
  rw [unchanged, ended.2]
  exact ⟨rfl, rfl⟩

/-- What yields an item with its comments yields the item. -/
theorem yields (attributes : Attributes phrase good make tokens) :
    Yields phrase good unknown Plain tokens := by
  refine ⟨attributes.areTokens, fun {more before} areTokens plain laid => ?_⟩
  obtain ⟨value, after, here, isGood, later, -⟩ := attributes.found areTokens plain laid
  exact ⟨value, after, here, isGood, later, fun _ => trivial⟩

end Attributes

end Layout
end ThriftIdl
