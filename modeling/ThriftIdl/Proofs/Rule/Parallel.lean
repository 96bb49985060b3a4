import ThriftIdl.Proofs.Rule.Recursion
import ThriftIdl.Proofs.Source.LineEnding

/-!
# Two readings of one text with different line endings

A source text with line feeds and the same text with another line ending are read side by side. Two
states are parallel if they stand at the same place of the two texts, with comments that say the
same once line endings are read as line feeds, and with the same misses at the same places. Rules
take parallel states to parallel states, as long as no token goes over the end of a line, and so do
the combinators (`InParallel`).
-/

namespace ThriftIdl

open Source (Cursor LineEnding)

/-! ## Places and misses -/

namespace Source.LineEnding

variable (ending : LineEnding)

/-- The number of bytes of a text. -/
def size (text : List Char) : Nat :=
  (String.ofList text).utf8ByteSize

private theorem size_append (front back : List Char) :
    size (front ++ back) = size front + size back := by
  rw [size, String.ofList_append, String.utf8ByteSize_append]
  rfl

private theorem size_eq_zero {text : List Char} : size text = 0 ↔ text = [] := by
  cases text with
  | nil => simp [size]
  | cons char rest =>
      have positive := char.utf8Size_pos
      have split := size_append [char] rest
      rw [List.singleton_append] at split
      have first : size [char] = char.utf8Size := String.utf8ByteSize_singleton
      simp only [reduceCtorEq, iff_false]
      omega

/-- Two places of a text keep their order when the text has another line ending. -/
theorem size_le_size_write {first second first' second' : List Char}
    (same : first ++ first' = second ++ second') :
    size (ending.write first) ≤ size (ending.write second) ↔ size first ≤ size second := by
  have grows {front between : List Char} : (size (ending.write (front ++ between)) ≤
      size (ending.write front) ↔ size (front ++ between) ≤ size front) := by
    have none : size (ending.write between) = 0 ↔ size between = 0 := by
      rw [size_eq_zero, size_eq_zero, write_eq_nil]
    rw [write_append, size_append, size_append]
    omega
  rcases List.append_eq_append_iff.mp same with ⟨between, rfl, -⟩ | ⟨between, rfl, -⟩
  · rw [write_append, size_append, size_append]
    omega
  · exact grows

end Source.LineEnding

/-- Two misses for the same reason at the same place of a text and of the text with another line
ending. -/
structure Miss.Parallel (ending : LineEnding) (source : List Char) (miss other : Miss) : Prop where
  reason : other.reason = miss.reason
  place : ∃ before rest, source = before ++ rest ∧
    miss.offset = LineEnding.size before ∧ miss.found = rest.head? ∧
    other.offset = LineEnding.size (ending.write before) ∧ other.found = (ending.write rest).head?

namespace Miss.Parallel

variable {ending : LineEnding} {source : List Char} {miss other earlier earlier' : Miss}

/-- Parallel misses are worded alike. -/
theorem message_eq (parallel : miss.Parallel ending source other) :
    other.message = miss.message := by
  obtain ⟨before, rest, -, -, found, -, found'⟩ := parallel.place
  have text : other.foundText = miss.foundText := by
    rw [foundText, foundText, found, found', ending.head?_write]
    cases rest.head? with
    | none => rfl
    | some char =>
        by_cases feed : char = '\n'
        · subst feed
          rfl
        · rw [Option.map_some, if_neg feed]
  rw [message, message, parallel.reason, text]

/-- Parallel misses are ranked alike. -/
theorem outranks_eq (parallel : miss.Parallel ending source other)
    (parallel' : earlier.Parallel ending source earlier') :
    other.outranks earlier' = miss.outranks earlier := by
  obtain ⟨before, rest, split, offset, -, offset', -⟩ := parallel.place
  obtain ⟨before', rest', split', early, -, early', -⟩ := parallel'.place
  have order : earlier'.offset ≤ other.offset ↔ earlier.offset ≤ miss.offset := by
    rw [offset, offset', early, early']
    exact ending.size_le_size_write (split'.symm.trans split)
  rw [outranks, outranks, parallel.reason, parallel'.reason]
  split <;> simp only [order]

/-- The best of parallel misses are parallel. -/
theorem best? {misses others : List Miss}
    (parallel : List.Forall₂ (Miss.Parallel ending source) misses others) :
    Option.Rel (Miss.Parallel ending source) (Miss.best? misses) (Miss.best? others) := by
  induction parallel with
  | nil => exact .none
  | @cons miss other misses others first _ ih =>
      have step (miss : Miss) (misses : List Miss) :
          Miss.best? (miss :: misses) = some (miss.better (Miss.best? misses)) := rfl
      rw [step, step]
      generalize Miss.best? misses = best, Miss.best? others = best' at ih
      cases ih with
      | none => exact .some first
      | @some earlier earlier' parallel =>
          refine .some ?_
          rw [better, better]
          simp only [first.outranks_eq parallel]
          split
          · exact first
          · exact parallel

/-- What is reported of parallel misses is parallel. -/
theorem reported {misses others : List Miss}
    (parallel : List.Forall₂ (Miss.Parallel ending source) misses others) {last last' : Miss}
    (same : last.Parallel ending source last') :
    (Miss.reported misses last).Parallel ending source (Miss.reported others last') := by
  have best := Parallel.best? parallel
  rw [Miss.reported, Miss.reported]
  generalize Miss.best? misses = best, Miss.best? others = best' at best
  cases best with
  | none => exact same
  | some best =>
      simp only [best.outranks_eq same]
      split
      · exact best
      · exact same

end Miss.Parallel

namespace Comment

/-- Two queues of comments that say the same, of which the same number is spent. -/
structure Queue.Parallel (queue other : Queue) : Prop where
  items : other.items.map lineFeeds = queue.items.map lineFeeds
  front : other.front = queue.front

namespace Queue.Parallel

variable {queue other : Queue}

/-- A queue is parallel to itself. -/
theorem refl (queue : Queue) : Parallel queue queue :=
  ⟨rfl, rfl⟩

private theorem length (parallel : Parallel queue other) :
    other.items.length = queue.items.length := by
  simpa using congrArg List.length parallel.items

private theorem pushAll (parallel : Parallel queue other) {comments comments' : List String}
    (same : comments'.map lineFeeds = comments.map lineFeeds) :
    Parallel (queue.pushAll comments) (other.pushAll comments') := by
  refine ⟨?_, parallel.front⟩
  simp only [Queue.pushAll, List.map_append, parallel.items, same]

private theorem discard (parallel : Parallel queue other) : Parallel queue.discard other.discard :=
  ⟨parallel.items, parallel.length⟩

private theorem drain (parallel : Parallel queue other) :
    other.drain.1.map lineFeeds = queue.drain.1.map lineFeeds ∧
      Parallel queue.drain.2 other.drain.2 := by
  have empty : other.isEmpty = queue.isEmpty := by
    rw [isEmpty, isEmpty, parallel.length, parallel.front]
  have pending : other.pending.map lineFeeds = queue.pending.map lineFeeds := by
    rw [Queue.pending, Queue.pending, List.map_drop, List.map_drop, parallel.items, parallel.front]
  have joined : lineFeeds (join (other.pending.map slashed)) =
      lineFeeds (join (queue.pending.map slashed)) := by
    have said (comments : List String) :
        (comments.map slashed).map (fun comment => Source.lineFeeds comment.toList) =
          (comments.map lineFeeds).map fun comment => (slashed comment).toList := by
      simp [← toList_lineFeeds, lineFeeds_slashed]
    rw [lineFeeds_eq_iff, lineFeeds_join, lineFeeds_join, said, said, pending]
  unfold Queue.drain
  rw [empty]
  split
  · exact ⟨rfl, parallel⟩
  · exact ⟨congrArg some joined, parallel.discard⟩

end Queue.Parallel

end Comment

namespace Parser

open Source (Input)

variable {Value First Second Image Between : Type}

/-! ## States and rules -/

/-- Two states at the same place of a text and of the text with another line ending. The text has no
carriage returns and no quotes. -/
structure State.Parallel (ending : LineEnding) (source : List Char) (state other : State) :
    Prop where
  plain : ∀ char ∈ source, char ≠ '\r' ∧ isQuote char = false
  place : ∃ before, source = before ++ state.input.rest ∧
    state.input.cursor = Cursor.start.pass before ∧
    other.input = ⟨ending.write state.input.rest, Cursor.start.pass (ending.write before)⟩
  head : state.comments.head.Parallel other.comments.head
  tail : state.comments.tail.Parallel other.comments.tail
  misses : List.Forall₂ (Miss.Parallel ending source) state.misses other.misses

/-- Two results that are both a match, with values that a reading takes to the same, or both a miss,
in parallel states. -/
inductive ParallelResults (ending : LineEnding) (source : List Char) (read : Value → Image) :
    EStateM.Result Miss State Value → EStateM.Result Miss State Value → Prop
  | ok {state other : State} {value value' : Value} : read value' = read value →
      state.Parallel ending source other →
      ParallelResults ending source read (.ok value state) (.ok value' other)
  | error {state other : State} {miss miss' : Miss} : miss.Parallel ending source miss' →
      state.Parallel ending source other →
      ParallelResults ending source read (.error miss state) (.error miss' other)

/-- Two rules that take parallel states to parallel states. -/
def InParallel (ending : LineEnding) (source : List Char) (read : Value → Image)
    (rule other : Rule Value) : Prop :=
  ∀ ⦃state state'⦄, state.Parallel ending source state' →
    ParallelResults ending source read (rule state) (other state')

/-- A rule that reads the same value with either line ending. -/
abbrev ReadAlike (ending : LineEnding) (source : List Char) (rule : Rule Value) : Prop :=
  InParallel ending source id rule rule

namespace State.Parallel

variable {ending : LineEnding} {source : List Char} {state other read read' : State}

/-- What is left in one of two parallel states is what is left in the other, with the other line
breaks. -/
theorem rest (parallel : state.Parallel ending source other) :
    other.input.rest = ending.write state.input.rest := by
  obtain ⟨before, -, -, same⟩ := parallel.place
  rw [same]

/-- What is left holds neither a carriage return nor a quote. -/
theorem plain_rest (parallel : state.Parallel ending source other) :
    ∀ char ∈ state.input.rest, char ≠ '\r' ∧ isQuote char = false := by
  obtain ⟨before, split, -⟩ := parallel.place
  exact fun char member => parallel.plain char (by rw [split]; exact List.mem_append_right _ member)

private theorem notMem_return (parallel : state.Parallel ending source other) :
    '\r' ∉ state.input.rest :=
  fun member => (parallel.plain_rest _ member).1 rfl

/-- A test that tells no line breaks apart has the same answer in parallel states. -/
theorem any_head? (parallel : state.Parallel ending source other) {test : Char → Bool}
    (inLine : LineEnding.Within test) :
    other.input.rest.head?.any test = state.input.rest.head?.any test := by
  rw [parallel.rest, LineEnding.head?_any_write inLine]

private theorem checkpoint (parallel : state.Parallel ending source other) :
    state.checkpoint.Parallel ending source other.checkpoint :=
  ⟨parallel.plain, parallel.place, parallel.head, parallel.tail, parallel.misses⟩

private theorem commit (parallel : state.Parallel ending source other) :
    state.commit.Parallel ending source other.commit :=
  ⟨parallel.plain, parallel.place, parallel.head, parallel.tail, parallel.misses⟩

/-- Parallel states stay so when they take over parallel misses. -/
theorem keeping (parallel : state.Parallel ending source other) {misses misses' : List Miss}
    (kept : List.Forall₂ (Miss.Parallel ending source) misses misses') :
    (state.keeping misses).Parallel ending source (other.keeping misses') :=
  ⟨parallel.plain, parallel.place, parallel.head, parallel.tail, kept⟩

/-- A move over a known text and the move over the text that stands for it. -/
theorem pass (parallel : state.Parallel ending source other) {front back : List Char}
    (split : state.input.rest = front ++ back) :
    Parallel ending source { state with input := state.input.advance front.length }
      { other with input := other.input.advance (ending.write front).length } := by
  obtain ⟨before, whole, cursor, place⟩ := parallel.place
  refine ⟨parallel.plain, ⟨before ++ front, ?_, ?_, ?_⟩, parallel.head, parallel.tail,
    parallel.misses⟩
  · simp [Input.advance, whole, split]
  · simp [Input.advance, cursor, split, Cursor.pass_append]
  · simp [Input.advance, place, split, Cursor.pass_append]

/-- A move within a line. -/
theorem advance (parallel : state.Parallel ending source other) {front back : List Char}
    (split : state.input.rest = front ++ back) (inLine : '\n' ∉ front) :
    Parallel ending source { state with input := state.input.advance front.length }
      { other with input := other.input.advance front.length } := by
  have moved := parallel.pass split
  rwa [LineEnding.write_of_notMem ending inLine] at moved

/-- The move over one character that is no line feed. -/
theorem advance_one (parallel : state.Parallel ending source other) {test : Char → Bool}
    (inLine : LineEnding.Within test) (passes : state.input.rest.head?.any test) :
    Parallel ending source { state with input := state.input.advance 1 }
      { other with input := other.input.advance 1 } := by
  obtain ⟨first, head, passes⟩ := (Option.any_eq_true _ _).mp passes
  obtain ⟨others, split⟩ := List.head?_eq_some_iff.mp head
  have noFeed : '\n' ∉ [first] := by
    rw [List.mem_singleton]
    rintro rfl
    rw [inLine.1] at passes
    cases passes
  exact parallel.advance split noFeed

/-- The move over a gap. -/
theorem pass_gap (parallel : state.Parallel ending source other) :
    Parallel ending source
      { state with input :=
        state.input.advance (Source.gapChars (Source.gap state.input.rest)).length }
      { other with input :=
        other.input.advance (Source.gapChars (Source.gap other.input.rest)).length } := by
  rw [parallel.rest, (ending.gap_write parallel.notMem_return).2]
  exact parallel.pass (Source.gap_append state.input.rest).symm

/-- The comments in a part of the gap. -/
theorem gapComments (parallel : state.Parallel ending source other) {part : List Source.Piece}
    (inside : part ⊆ Source.gap state.input.rest) :
    (Source.gapComments (part.flatMap ending.pieces)).map Comment.lineFeeds =
      (Source.gapComments part).map Comment.lineFeeds := by
  refine LineEnding.gapComments_pieces fun member => parallel.notMem_return ?_
  obtain ⟨piece, among, here⟩ := List.mem_flatMap.mp member
  rw [← Source.gap_append state.input.rest]
  exact List.mem_append_left _ (List.mem_flatMap.mpr ⟨piece, inside among, here⟩)

private theorem skip (parallel : state.Parallel ending source other) :
    state.skip.Parallel ending source other.skip := by
  obtain ⟨pieces, -⟩ := ending.gap_write parallel.notMem_return
  obtain ⟨first, later⟩ := ending.lines_pieces (Source.gap state.input.rest)
  refine ⟨parallel.plain, parallel.pass_gap.place, parallel.head.pushAll ?_,
    parallel.tail.pushAll ?_, parallel.misses⟩
  · rw [parallel.rest, pieces, later]
    exact parallel.gapComments (List.dropWhile_suffix _).subset
  · rw [parallel.rest, pieces, first]
    exact parallel.gapComments (List.takeWhile_prefix _).subset

/-- Parallel states stay parallel past their first gap. -/
theorem skipLeading (parallel : state.Parallel ending source other) :
    state.skipLeading.Parallel ending source other.skipLeading := by
  obtain ⟨pieces, -⟩ := ending.gap_write parallel.notMem_return
  refine ⟨parallel.plain, parallel.pass_gap.place, parallel.head.pushAll ?_, parallel.tail,
    parallel.misses⟩
  rw [parallel.rest, pieces]
  exact parallel.gapComments (List.Subset.refl _)

private theorem missFor (parallel : state.Parallel ending source other) (reason : Reason) :
    (state.missFor reason).Parallel ending source (other.missFor reason) := by
  obtain ⟨before, split, cursor, place⟩ := parallel.place
  refine ⟨rfl, before, state.input.rest, split, ?_, rfl, ?_, ?_⟩
  · simp [State.missFor, cursor, Cursor.start_pass, LineEnding.size]
  · simp [State.missFor, place, Cursor.start_pass, LineEnding.size]
  · simp [State.missFor, place, Input.peek]

end State.Parallel

namespace InParallel

variable {ending : LineEnding} {source : List Char} {read : Value → Image}

/-- Both rules match, or both miss. -/
theorem results {rule other : Rule Value} (inner : InParallel ending source read rule other)
    {state state' : State} (parallel : state.Parallel ending source state') :
    (∃ value next value' next', rule state = .ok value next ∧ other state' = .ok value' next' ∧
      read value' = read value ∧ next.Parallel ending source next') ∨
    ∃ miss next miss' next', rule state = .error miss next ∧ other state' = .error miss' next' ∧
      miss.Parallel ending source miss' ∧ next.Parallel ending source next' := by
  have here := inner parallel
  generalize rule state = result, other state' = result' at here
  cases here with
  | ok same later => exact .inl ⟨_, _, _, _, rfl, rfl, same, later⟩
  | error miss later => exact .inr ⟨_, _, _, _, rfl, rfl, miss, later⟩

/-- Values that are read alike come of parallel rules. -/
theorem pure {value value' : Value} (same : read value' = read value) :
    InParallel ending source read (pure value) (pure value') :=
  fun _ _ parallel => .ok same parallel

/-- Misses for the same reason are parallel. -/
theorem missFor (reason : Reason) :
    InParallel ending source read (missFor reason) (missFor reason) :=
  fun _ _ parallel => .error (parallel.missFor reason)
    (parallel.keeping (.cons (parallel.missFor reason) parallel.misses))

/-- Sequences of parallel rules are parallel. -/
theorem bind {rule other : Rule First} {next next' : First → Rule Second}
    {between : First → Between} {read : Second → Image}
    (first : InParallel ending source between rule other)
    (later : ∀ {value value'}, between value' = between value →
      InParallel ending source read (next value) (next' value')) :
    InParallel ending source read (rule >>= next) (other >>= next') := by
  intro state state' parallel
  rw [run_bind, run_bind]
  obtain ⟨_, _, _, _, result, result', same, after⟩ | ⟨_, _, _, _, result, result', miss, after⟩ :=
    first.results parallel
  · rw [result, result']
    exact later same after
  · rw [result, result']
    exact .error miss after

/-- A sequence whose first part has no comments in its value. -/
theorem bindSame {rule : Rule First} {next next' : First → Rule Second} {read : Second → Image}
    (first : ReadAlike ending source rule)
    (later : ∀ value, InParallel ending source read (next value) (next' value)) :
    InParallel ending source read (rule >>= next) (rule >>= next') :=
  first.bind fun {value value'} same => by
    obtain rfl : value' = value := same
    exact later value'

/-- A rule is read alike with its value changed. -/
theorem map {rule : Rule First} (change : First → Second)
    (same : ReadAlike ending source rule) : ReadAlike ending source (change <$> rule) :=
  same.bindSame fun _ => .pure rfl

/-- Rules that depend on the same condition are parallel if both cases are. -/
theorem ite {condition condition' : Prop} [Decidable condition] [Decidable condition']
    {rule other rule' other' : Rule Value} (same : condition' ↔ condition)
    (here : condition → InParallel ending source read rule rule')
    (there : ¬condition → InParallel ending source read other other') :
    InParallel ending source read (if condition then rule else other)
      (if condition' then rule' else other') := by
  by_cases meets : condition
  · rw [if_pos meets, if_pos (same.mpr meets)]
    exact here meets
  · rw [if_neg meets, if_neg (same.not.mpr meets)]
    exact there meets

/-- The comments before an item are the same up to their line breaks. -/
theorem drainHead : InParallel ending source (Option.map Comment.lineFeeds) drainHead drainHead :=
  fun _ _ parallel => .ok parallel.head.drain.1
    ⟨parallel.plain, parallel.place, parallel.head.drain.2, parallel.tail, parallel.misses⟩

/-- The comments behind an item are the same up to their line breaks. -/
theorem drainTail : InParallel ending source (Option.map Comment.lineFeeds) drainTail drainTail :=
  fun _ _ parallel => .ok parallel.tail.drain.1
    ⟨parallel.plain, parallel.place, parallel.head, parallel.tail.drain.2, parallel.misses⟩

/-- Giving up comments is done alike. -/
theorem discardHead : ReadAlike ending source discardHead :=
  fun _ _ parallel => .ok rfl
    ⟨parallel.plain, parallel.place, parallel.head.discard, parallel.tail, parallel.misses⟩

/-- Gaps are skipped alike. -/
theorem skip : ReadAlike ending source skip :=
  fun _ _ parallel => .ok rfl parallel.skip

/-- Probes of parallel rules are parallel. -/
theorem probe {rule other : Rule Value} (inner : InParallel ending source read rule other) :
    InParallel ending source (Option.map read) (probe rule) (probe other) := by
  intro state state' parallel
  unfold Parser.probe
  obtain ⟨_, _, _, _, result, result', same, after⟩ | ⟨_, _, _, _, result, result', _, after⟩ :=
    inner.results parallel
  · rw [result, result']
    exact .ok (congrArg some same) after
  · rw [result, result']
    exact .ok rfl after

/-- A rule may be left out in parallel where it misses in parallel. -/
theorem attempt {rule : Rule Value} (formed : Formed rule)
    (inner : InParallel ending source read rule rule) :
    InParallel ending source (Option.map read) (attempt rule) (attempt rule) := by
  intro state state' parallel
  rw [attempt_eq formed.growing, attempt_eq formed.growing]
  obtain ⟨_, _, _, _, result, result', same, after⟩ | ⟨_, _, _, _, result, result', _, after⟩ :=
    inner.results parallel.checkpoint
  · rw [result, result']
    exact .ok (congrArg some same) after.commit
  · rw [result, result']
    exact .ok rfl (parallel.keeping after.misses)

/-- A rule that is read alike may be left out alike. -/
theorem attemptSame {rule : Rule Value} (formed : Formed rule)
    (inner : ReadAlike ending source rule) :
    ReadAlike ending source (Parser.attempt rule) := by
  have same := attempt formed inner
  rwa [Option.map_id] at same

/-- Choices of parallel rules are parallel. -/
theorem choice (what : Expectation) {rules : List (Rule Value)}
    (formed : ∀ rule ∈ rules, Formed rule)
    (each : ∀ rule ∈ rules, InParallel ending source read rule rule) :
    InParallel ending source read (choice what rules) (choice what rules) := by
  intro state state' parallel
  have growing : ∀ rule ∈ rules, Growing rule := fun rule member => (formed rule member).growing
  have tried : ∀ rule ∈ rules, ∀ {misses misses' : List Miss},
      List.Forall₂ (Miss.Parallel ending source) misses misses' →
      (∃ value value' next next', rule (state.checkpoint.keeping misses) = .ok value next ∧
        rule (state'.checkpoint.keeping misses') = .ok value' next' ∧
        read value' = read value ∧ next.commit.Parallel ending source next'.commit) ∨
      ∃ miss miss' missed missed', rule (state.checkpoint.keeping misses) = .error miss missed ∧
        rule (state'.checkpoint.keeping misses') = .error miss' missed' ∧
        List.Forall₂ (Miss.Parallel ending source) missed.misses missed'.misses := by
    intro rule member misses misses' kept
    obtain ⟨_, _, _, _, result, result', same, after⟩ | ⟨_, _, _, _, result, result', _, after⟩ :=
      (each rule member).results (parallel.checkpoint.keeping kept)
    · exact .inl ⟨_, _, _, _, result, result', same, after.commit⟩
    · exact .inr ⟨_, _, _, _, result, result', after.misses⟩
  rw [choice_eq growing, choice_eq growing]
  obtain ⟨_, _, found, found', same, after⟩ | ⟨_, _, found, found', kept⟩ :=
    tryEach_related (fun found found' => read found'.1 = read found.1 ∧
      found.2.Parallel ending source found'.2) tried parallel.misses
  · rw [found, found']
    exact .ok same after
  · rw [found, found']
    exact missFor _ (parallel.keeping kept)

/-- Repetitions of a rule that progresses. -/
theorem many {rule : Rule Value} (formed : Formed rule) (progresses : Progresses rule)
    (inner : InParallel ending source read rule rule) :
    InParallel ending source (List.map read) (many rule) (many rule) := by
  have step (state : State) := (congrFun (((progresses.ends formed).unchecked _).mpr rfl)
    state).trans (round_eq formed (Parser.many rule) state)
  -- The rule progresses, so the length of the text bounds the repetition.
  have bounded (length : Nat) {state state' : State} (short : state.input.rest.length < length)
      (parallel : state.Parallel ending source state') :
      ParallelResults ending source (List.map read) (Parser.many rule state)
        (Parser.many rule state') := by
    induction length generalizing state state' with
    | zero => omega
    | succ length ih =>
        rw [step, step]
        obtain ⟨_, next, _, next', result, result', same, after⟩ |
            ⟨_, _, _, _, result, result', _, after⟩ := inner.results parallel.checkpoint
        · have shorter : next.commit.input.rest.length < state.input.rest.length :=
            (progresses result).shorter
          have later := ih (by omega) after.commit
          simp only [result, result']
          generalize Parser.many rule next.commit = others, Parser.many rule next'.commit = others'
            at later
          cases later with
          | ok sameLater last =>
              refine .ok ?_ last
              simp only [List.map_cons, same, sameLater]
          | error miss last => exact .error miss last
        · simp only [result, result']
          exact .ok rfl (parallel.keeping after.misses)
  exact fun state _ parallel => bounded _ (Nat.lt_succ_self _) parallel

/-- A rule that is read alike is repeated alike. -/
theorem manySame {rule : Rule Value} (formed : Formed rule) (progresses : Progresses rule)
    (inner : ReadAlike ending source rule) : ReadAlike ending source (Parser.many rule) := by
  have same := many formed progresses inner
  rwa [List.map_id_fun] at same

end InParallel

end Parser
end ThriftIdl
