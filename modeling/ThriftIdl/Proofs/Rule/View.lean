import ThriftIdl.Proofs.Rule.Rollback
import ThriftIdl.Proofs.Source.Gap

/-!
# What rules can see

A `View` of a state is its unread text and the comments that wait in its two queues. Whether a rule
matches, what it reads and what it leaves depend on the view alone; offsets, tallies, spent comments
and checkpoints have no influence, and the misses of two states with one view differ by the distance
of their offsets (`Formed.transparent`). So a rule is a partial function on views, `reads`, and the
combinators have plain equations there (`reads_bind`, `reads_choice`, `reads_attempt`,
`reads_many`).
-/

namespace ThriftIdl

namespace Comment.Queue

/-- A queue whose front does not lie past its end. -/
def Sound (queue : Queue) : Prop :=
  queue.front ≤ queue.items.length

/-- New comments leave a queue in order. -/
theorem Sound.pushAll {queue : Queue} (sound : queue.Sound) (comments : List String) :
    (queue.pushAll comments).Sound := by
  unfold Sound at sound ⊢
  simp only [Queue.pushAll, List.length_append]
  omega

/-- In a queue that is in order, new comments wait behind those that wait already. -/
theorem Sound.pending_pushAll {queue : Queue} (sound : queue.Sound) (comments : List String) :
    (queue.pushAll comments).pending = queue.pending ++ comments :=
  List.drop_append_of_le_length sound

/-- A queue is in order once its comments are given up. -/
theorem sound_discard (queue : Queue) : queue.discard.Sound :=
  Nat.le_refl _

/-- Comments that are given up wait no longer. -/
theorem pending_discard (queue : Queue) : queue.discard.pending = [] := by
  simp [discard, pending]

/-- The waiting comments as one text in slash form, or nothing when none wait. -/
def together (pending : List String) : Option String :=
  if pending = [] then none else some (join (pending.map slashed))

/-- Taking comments returns the waiting ones together and leaves none of them waiting. -/
theorem drain_eq (queue : Queue) :
    queue.drain.1 = together queue.pending ∧ queue.drain.2.pending = [] ∧
      (queue.Sound → queue.drain.2.Sound) := by
  refine ⟨?_, pending_drain queue, fun sound => ?_⟩
  · simp only [drain, together, isEmpty_iff]
    split <;> rfl
  · unfold drain
    split
    · exact sound
    · exact sound_discard queue

end Comment.Queue

/-- The same miss at an offset that lies further on. -/
def Miss.moved (shift : Nat) (miss : Miss) : Miss :=
  { miss with offset := miss.offset + shift }

namespace Parser

variable {Value First Second : Type}

/-- The part of a state that rules can see: the unread text and the comments that wait. -/
structure View where
  rest : List Char
  head : List String
  tail : List String
deriving DecidableEq

namespace View

/-- The view after the gap at the start of its text. -/
def skip (view : View) : View :=
  let pieces := Source.gap view.rest
  { rest := view.rest.drop (Source.gapChars pieces).length
    head := view.head ++ Source.gapComments (Source.laterLines pieces)
    tail := view.tail ++ Source.gapComments (Source.firstLine pieces) }

/-- Where no gap opens there is nothing to skip. -/
theorem skip_of_stops {view : View} (stops : Source.Stops Source.opensGap view.rest) :
    view.skip = view := by
  simp [skip, Source.gap_eq_nil stops, Source.gapChars, Source.gapComments, Source.laterLines,
    Source.firstLine]

/-- The view of a text with nothing waiting. -/
def ofText (text : List Char) : View :=
  ⟨text, [], []⟩

end View

namespace State

def view (state : State) : View where
  rest := state.input.rest
  head := state.comments.head.pending
  tail := state.comments.tail.pending

/-- A state with a given view of which nothing is read and nothing is spent. -/
def ofView (view : View) : State where
  input := ⟨view.rest, .start⟩
  comments := { head := ⟨view.head, 0⟩, tail := ⟨view.tail, 0⟩ }

/-- A state whose queues have their fronts within them. -/
structure Sound (state : State) : Prop where
  head : state.comments.head.Sound
  tail : state.comments.tail.Sound

@[simp] theorem view_ofView (view : View) : (ofView view).view = view := rfl

@[simp] theorem view_keeping (state : State) (misses : List Miss) :
    (state.keeping misses).view = state.view := rfl

@[simp] theorem view_checkpoint (state : State) : state.checkpoint.view = state.view := rfl

/-- The state made from a view has its queues in order. -/
theorem sound_ofView (view : View) : (ofView view).Sound :=
  ⟨Nat.zero_le _, Nat.zero_le _⟩

/-- A checkpoint leaves the queues in order. -/
theorem Sound.checkpoint {state : State} (sound : state.Sound) : state.checkpoint.Sound :=
  ⟨sound.head, sound.tail⟩

/-- Taking off a checkpoint leaves the queues in order. -/
theorem Sound.commit {state : State} (sound : state.Sound) : state.commit.Sound :=
  ⟨sound.head, sound.tail⟩

/-- The recorded misses have no part in whether the queues are in order. -/
theorem Sound.keeping {state : State} (sound : state.Sound) (misses : List Miss) :
    (state.keeping misses).Sound :=
  ⟨sound.head, sound.tail⟩

private theorem Sound.view_skip {state : State} (sound : state.Sound) :
    state.skip.view = state.view.skip := by
  simp only [view, skip, View.skip, View.mk.injEq]
  exact ⟨rfl, sound.head.pending_pushAll _, sound.tail.pending_pushAll _⟩

private theorem Sound.skip {state : State} (sound : state.Sound) : state.skip.Sound :=
  ⟨sound.head.pushAll _, sound.tail.pushAll _⟩

end State

/-! ## Rules on two states with one view -/

/-- Two states with one view, the first of them further on by a number of bytes. What they have
kept since some earlier moment are the same misses at that distance. -/
structure Alike (shift : Nat) (older older' : List Miss) (state other : State) : Prop where
  view : state.view = other.view
  sound : state.Sound
  sound' : other.Sound
  offset : state.input.cursor.offset = other.input.cursor.offset + shift
  misses : ∃ kept : List Miss,
    state.misses = kept.map (Miss.moved shift) ++ older ∧ other.misses = kept ++ older'

/-- Two results that are both a match with one value or both a miss, in states that are alike. -/
inductive AlikeResults (shift : Nat) (older older' : List Miss) :
    EStateM.Result Miss State Value → EStateM.Result Miss State Value → Prop
  | ok {state other : State} (value : Value) : Alike shift older older' state other →
      AlikeResults shift older older' (.ok value state) (.ok value other)
  | error {state other : State} (miss : Miss) : Alike shift older older' state other →
      AlikeResults shift older older' (.error (miss.moved shift) state) (.error miss other)

/-- A rule that does the same from any two states with one view. -/
def Transparent (rule : Rule Value) : Prop :=
  ∀ {shift : Nat} {older older' : List Miss} {state other : State},
    Alike shift older older' state other →
      AlikeResults shift older older' (rule state) (rule other)

/-- What a rule misses depends on the unread text, and where on the distance. -/
theorem State.missFor_moved {shift : Nat} {state other : State}
    (rest : state.input.rest = other.input.rest)
    (offset : state.input.cursor.offset = other.input.cursor.offset + shift) (reason : Reason) :
    state.missFor reason = (other.missFor reason).moved shift := by
  simp only [State.missFor, Miss.moved, offset, Source.Input.peek, rest]

namespace Alike

variable {shift : Nat} {older older' : List Miss} {state other read read' : State}

private theorem rest (alike : Alike shift older older' state other) :
    state.input.rest = other.input.rest :=
  congrArg View.rest alike.view

private theorem checkpoint (alike : Alike shift older older' state other) :
    Alike shift older older' state.checkpoint other.checkpoint :=
  ⟨alike.view, ⟨alike.sound.head, alike.sound.tail⟩, ⟨alike.sound'.head, alike.sound'.tail⟩,
    alike.offset, alike.misses⟩

/-- States that are alike stay so when both take off their last checkpoint. -/
theorem commit (alike : Alike shift older older' state other) :
    Alike shift older older' state.commit other.commit :=
  ⟨alike.view, ⟨alike.sound.head, alike.sound.tail⟩, ⟨alike.sound'.head, alike.sound'.tail⟩,
    alike.offset, alike.misses⟩

/-- States that are alike stay so when they take over misses that are. -/
theorem keeping (alike : Alike shift older older' state other)
    (later : Alike shift older older' read read') :
    Alike shift older older' (state.keeping read.misses) (other.keeping read'.misses) :=
  ⟨alike.view, ⟨alike.sound.head, alike.sound.tail⟩, ⟨alike.sound'.head, alike.sound'.tail⟩,
    alike.offset, later.misses⟩

private theorem advance (alike : Alike shift older older' state other) (count : Nat) :
    Alike shift older older' { state with input := state.input.advance count }
      { other with input := other.input.advance count } := by
  refine ⟨?_, ⟨alike.sound.head, alike.sound.tail⟩, ⟨alike.sound'.head, alike.sound'.tail⟩, ?_,
    alike.misses⟩
  · have same := alike.view
    simp only [State.view, View.mk.injEq] at same ⊢
    exact ⟨congrArg (List.drop count) same.1, same.2⟩
  · have offset := alike.offset
    simp only [Source.Input.advance, Source.Cursor.pass_eq, alike.rest]
    omega

private theorem skip (alike : Alike shift older older' state other) :
    Alike shift older older' state.skip other.skip := by
  refine ⟨?_, alike.sound.skip, alike.sound'.skip, ?_, alike.misses⟩
  · rw [alike.sound.view_skip, alike.sound'.view_skip, alike.view]
  · have moved := (alike.advance (Source.gapChars (Source.gap state.input.rest)).length).offset
    rw [alike.rest] at moved
    simpa only [State.skip, alike.rest] using moved

private theorem missFor (alike : Alike shift older older' state other) (reason : Reason) :
    AlikeResults shift older older' (Parser.missFor reason state : EStateM.Result _ _ Value)
      (Parser.missFor reason other) := by
  have same := State.missFor_moved alike.rest alike.offset reason
  obtain ⟨kept, misses, misses'⟩ := alike.misses
  simp only [Parser.missFor, same]
  refine .error (other.missFor reason) ⟨alike.view, ⟨alike.sound.head, alike.sound.tail⟩,
    ⟨alike.sound'.head, alike.sound'.tail⟩, alike.offset, other.missFor reason :: kept, ?_, ?_⟩
  · simp [misses]
  · simp [misses']

private theorem drainHead (alike : Alike shift older older' state other) :
    AlikeResults shift older older' (Parser.drainHead state) (Parser.drainHead other) := by
  obtain ⟨drained, emptied, sound⟩ := state.comments.head.drain_eq
  obtain ⟨drained', emptied', sound'⟩ := other.comments.head.drain_eq
  have same := alike.view
  simp only [State.view, View.mk.injEq] at same
  have values : state.comments.head.drain.1 = other.comments.head.drain.1 := by
    rw [drained, drained', same.2.1]
  have matched : Parser.drainHead state = .ok other.comments.head.drain.1
      { state with comments := { state.comments with head := state.comments.head.drain.2 } } := by
    rw [← values]
    rfl
  rw [matched]
  refine .ok _ ⟨?_, ⟨sound alike.sound.head, alike.sound.tail⟩,
    ⟨sound' alike.sound'.head, alike.sound'.tail⟩, alike.offset, alike.misses⟩
  simp only [State.view, View.mk.injEq]
  exact ⟨same.1, emptied.trans emptied'.symm, same.2.2⟩

private theorem drainTail (alike : Alike shift older older' state other) :
    AlikeResults shift older older' (Parser.drainTail state) (Parser.drainTail other) := by
  obtain ⟨drained, emptied, sound⟩ := state.comments.tail.drain_eq
  obtain ⟨drained', emptied', sound'⟩ := other.comments.tail.drain_eq
  have same := alike.view
  simp only [State.view, View.mk.injEq] at same
  have values : state.comments.tail.drain.1 = other.comments.tail.drain.1 := by
    rw [drained, drained', same.2.2]
  have matched : Parser.drainTail state = .ok other.comments.tail.drain.1
      { state with comments := { state.comments with tail := state.comments.tail.drain.2 } } := by
    rw [← values]
    rfl
  rw [matched]
  refine .ok _ ⟨?_, ⟨alike.sound.head, sound alike.sound.tail⟩,
    ⟨alike.sound'.head, sound' alike.sound'.tail⟩, alike.offset, alike.misses⟩
  simp only [State.view, View.mk.injEq]
  exact ⟨same.1, same.2.1, emptied.trans emptied'.symm⟩

private theorem discardHead (alike : Alike shift older older' state other) :
    AlikeResults shift older older' (Parser.discardHead state) (Parser.discardHead other) := by
  refine .ok () ⟨?_, ⟨Comment.Queue.sound_discard _, alike.sound.tail⟩,
    ⟨Comment.Queue.sound_discard _, alike.sound'.tail⟩, alike.offset, alike.misses⟩
  have same := alike.view
  simp only [State.view, View.mk.injEq, Comment.Queue.pending_discard] at same ⊢
  exact ⟨same.1, trivial, same.2.2⟩

end Alike

/-- Two trials of alternatives are related if those of each alternative are: `kept` relates the
misses so far, and `read` relates what a match gives and leaves. -/
theorem tryEach_related {rules : List (Rule Value)} {state other : State}
    {kept : List Miss → List Miss → Prop} (read : Value × State → Value × State → Prop)
    (each : ∀ rule ∈ rules, ∀ {misses misses' : List Miss}, kept misses misses' →
      (∃ value value' next next', rule (state.checkpoint.keeping misses) = .ok value next ∧
        rule (other.checkpoint.keeping misses') = .ok value' next' ∧
        read (value, next.commit) (value', next'.commit)) ∨
      ∃ miss miss' missed missed', rule (state.checkpoint.keeping misses) = .error miss missed ∧
        rule (other.checkpoint.keeping misses') = .error miss' missed' ∧
        kept missed.misses missed'.misses)
    {misses misses' : List Miss} (start : kept misses misses') :
    (∃ found found', tryEach state misses rules = .inl found ∧
      tryEach other misses' rules = .inl found' ∧ read found found') ∨
    ∃ missed missed', tryEach state misses rules = .inr missed ∧
      tryEach other misses' rules = .inr missed' ∧ kept missed missed' := by
  induction rules generalizing misses misses' with
  | nil => exact .inr ⟨misses, misses', rfl, rfl, start⟩
  | cons rule others ih =>
      simp only [tryEach]
      rcases each rule (by simp) start with
        ⟨_, _, _, _, result, result', related⟩ | ⟨_, _, missed, missed', result, result', later⟩
      · rw [result, result']
        exact .inl ⟨_, _, rfl, rfl, related⟩
      · rw [result, result']
        exact ih (fun rule member => each rule (by simp [member])) later

namespace Transparent

variable {shift : Nat} {older older' : List Miss} {state other : State}

private theorem bind {rule : Rule First} {next : First → Rule Second}
    (transparent : Transparent rule)
    (later : ∀ value, Transparent (next value)) : Transparent (rule >>= next) := by
  intro shift older older' state other alike
  simp only [run_bind]
  have first := transparent alike
  cases result : rule state <;> cases result' : rule other <;> rw [result, result'] at first
  case ok.ok =>
    cases first with
    | ok _ read => exact later _ read
  case error.error =>
    cases first with
    | error _ missed => exact .error _ missed
  case ok.error => cases first
  case error.ok => cases first

private theorem probe {rule : Rule Value} (transparent : Transparent rule) :
    Transparent (probe rule) := by
  intro shift older older' state other alike
  have inner := transparent alike
  unfold Parser.probe
  cases result : rule state <;> cases result' : rule other <;> rw [result, result'] at inner
  case ok.ok =>
    cases inner with
    | ok value read => exact .ok _ read
  case error.error =>
    cases inner with
    | error miss missed => exact .ok _ missed
  case ok.error => cases inner
  case error.ok => cases inner

private theorem attempt {rule : Rule Value} (growing : Growing rule)
    (transparent : Transparent rule) :
    Transparent (attempt rule) := by
  intro shift older older' state other alike
  simp only [attempt_eq growing]
  have inner := transparent alike.checkpoint
  cases result : rule state.checkpoint <;> cases result' : rule other.checkpoint <;>
    rw [result, result'] at inner
  case ok.ok =>
    cases inner with
    | ok value read => exact .ok _ read.commit
  case error.error =>
    cases inner with
    | error miss missed => exact .ok _ (alike.keeping missed)
  case ok.error => cases inner
  case error.ok => cases inner

private theorem choice {rules : List (Rule Value)} (what : Expectation)
    (growing : ∀ rule ∈ rules, Growing rule) (transparent : ∀ rule ∈ rules, Transparent rule) :
    Transparent (choice what rules) := by
  intro shift older older' state other alike
  simp only [choice_eq growing]
  have each : ∀ rule ∈ rules, ∀ {misses misses' : List Miss},
      Alike shift older older' (state.keeping misses) (other.keeping misses') →
      (∃ value value' next next', rule (state.checkpoint.keeping misses) = .ok value next ∧
        rule (other.checkpoint.keeping misses') = .ok value' next' ∧
        (value = value' ∧ Alike shift older older' next.commit next'.commit)) ∨
      ∃ miss miss' missed missed', rule (state.checkpoint.keeping misses) = .error miss missed ∧
        rule (other.checkpoint.keeping misses') = .error miss' missed' ∧
        Alike shift older older' (state.keeping missed.misses) (other.keeping missed'.misses) := by
    intro rule member misses misses' kept
    have inner : AlikeResults shift older older' (rule (state.checkpoint.keeping misses))
        (rule (other.checkpoint.keeping misses')) := transparent rule member kept.checkpoint
    cases result : rule (state.checkpoint.keeping misses) <;>
      cases result' : rule (other.checkpoint.keeping misses') <;>
      rw [result, result'] at inner
    case ok.ok =>
      cases inner with
      | ok value read => exact .inl ⟨_, _, _, _, rfl, rfl, rfl, read.commit⟩
    case error.error =>
      cases inner with
      | error miss missed => exact .inr ⟨_, _, _, _, rfl, rfl, kept.keeping missed⟩
    case ok.error => cases inner
    case error.ok => cases inner
  rcases tryEach_related (fun found found' => found.1 = found'.1 ∧
      Alike shift older older' found.2 found'.2) each alike with
    ⟨⟨value, next⟩, ⟨_, next'⟩, tried, tried', rfl, read⟩ | ⟨missed, missed', tried, tried', kept⟩
  · rw [tried, tried']
    exact .ok value read
  · rw [tried, tried']
    exact kept.missFor _

private theorem many {rule : Rule Value} (growing : Growing rule) (transparent : Transparent rule) :
    Transparent (many rule) := by
  intro shift older older' state other alike
  induction count : other.input.rest.length using Nat.strongRecOn
    generalizing state other with
  | _ count ih =>
      rw [Parser.many.eq_def rule state, Parser.many.eq_def rule other]
      have first := transparent.attempt growing alike
      match result : Parser.attempt rule state, result' : Parser.attempt rule other with
      | .error _ _, _ => exact absurd result (attempt_ne_error growing _ _ _)
      | _, .error _ _ => exact absurd result' (attempt_ne_error growing _ _ _)
      | .ok found next, .ok found' next' =>
          rw [result, result'] at first
          cases first with
          | ok _ read =>
              cases found with
              | none => exact .ok _ read
              | some value =>
                  simp only [read.rest, alike.rest]
                  split
                  · next shorter =>
                      have later := ih _ (count ▸ shorter) read rfl
                      obtain ⟨values, last, rest, _⟩ := many_repeats growing next
                      obtain ⟨values', last', rest', _⟩ := many_repeats growing next'
                      rw [rest, rest'] at later ⊢
                      cases later with
                      | ok _ ended => exact .ok _ ended
                  · exact .ok _ read

end Transparent

/-- **What rules can see.** A rule of the grammar does the same from any two states with one view:
it matches on both with one value or misses on both, and the misses are the same at the distance of
the two states. -/
theorem Formed.transparent {rule : Rule Value} (formed : Formed rule) : Transparent rule := by
  induction formed with
  | pure value => exact fun alike => .ok value alike
  | bind _ _ first later => exact first.bind later
  | look rule _ each =>
      intro shift older older' state other alike
      have same := each state.input.rest alike
      have reread : rule state.input.rest other = rule other.input.rest other := by
        rw [alike.rest]
      rw [reread] at same
      exact same
  | advance count => exact fun alike => .ok () (alike.advance count)
  | skip => exact fun alike => .ok () alike.skip
  | missFor reason => exact fun alike => alike.missFor reason
  | drainHead => exact fun alike => alike.drainHead
  | drainTail => exact fun alike => alike.drainTail
  | discardHead => exact fun alike => alike.discardHead
  | probe _ inner => exact inner.probe
  | choice what formed inner =>
      exact Transparent.choice what (fun rule member => (formed rule member).growing) inner
  | attempt formed inner => exact inner.attempt formed.growing
  | many formed inner => exact inner.many formed.growing

/-! ## Rules as partial functions on views -/

/-- A rule that depends on the unread text. -/
def look (rule : List Char → Rule Value) : Rule Value :=
  fun state => rule state.input.rest state

/-- What a rule reads from a view and the view that it leaves, if it matches. -/
def reads (rule : Rule Value) (view : View) : Option (Value × View) :=
  match rule (State.ofView view) with
  | .ok value next => some (value, next.view)
  | .error _ _ => none

namespace Formed

variable {state next : State}

private theorem alike_ofView (sound : state.Sound) :
    Alike state.input.cursor.offset state.misses [] state (State.ofView state.view) :=
  ⟨rfl, sound, State.sound_ofView _, (Nat.zero_add _).symm, [], rfl, rfl⟩

/-- From a sound state, a rule that matches reads what it reads from the view. -/
theorem reads_of_ok {rule : Rule Value} (formed : Formed rule) {value : Value}
    (sound : state.Sound) (matched : rule state = .ok value next) :
    reads rule state.view = some (value, next.view) ∧ next.Sound := by
  have same := formed.transparent (alike_ofView sound)
  rw [matched] at same
  unfold reads
  cases result : rule (State.ofView state.view) <;> rw [result] at same
  case ok =>
    cases same with
    | ok _ after => exact ⟨by rw [after.view], after.sound⟩
  case error => cases same

/-- From a sound state, a rule that misses reads nothing from the view. -/
theorem reads_of_error {rule : Rule Value} (formed : Formed rule) {miss : Miss}
    (sound : state.Sound) (missed : rule state = .error miss next) :
    reads rule state.view = none ∧ next.Sound := by
  have same := formed.transparent (alike_ofView sound)
  rw [missed] at same
  unfold reads
  cases result : rule (State.ofView state.view) <;> rw [result] at same
  case ok => cases same
  case error =>
    cases same with
    | error _ after => exact ⟨rfl, after.sound⟩

/-- From a sound state, a rule matches if it reads something from the view. -/
theorem ok_of_reads {rule : Rule Value} (formed : Formed rule) {value : Value} {after : View}
    (sound : state.Sound) (read : reads rule state.view = some (value, after)) :
    ∃ next, rule state = .ok value next ∧ next.view = after ∧ next.Sound := by
  cases result : rule state with
  | ok found next =>
      obtain ⟨same, soundAfter⟩ := formed.reads_of_ok sound result
      rw [same] at read
      cases read
      exact ⟨next, rfl, rfl, soundAfter⟩
  | error miss next =>
      rw [(formed.reads_of_error sound result).1] at read
      cases read

end Formed

section Reads

variable (view : View)

@[simp] theorem reads_pure (value : Value) :
    reads (pure value : Rule Value) view = some (value, view) := rfl

/-- A sequence reads in the second rule what the first one has left. -/
theorem reads_bind {rule : Rule First} (next : First → Rule Second) (formed : Formed rule)
    (later : ∀ value, Formed (next value)) :
    reads (rule >>= next) view =
      (reads rule view).bind fun read => reads (next read.1) read.2 := by
  have sound := State.sound_ofView view
  cases result : rule (State.ofView view) with
  | ok value middle =>
      obtain ⟨same, soundMiddle⟩ := formed.reads_of_ok sound result
      rw [State.view_ofView] at same
      rw [same, Option.bind_some]
      simp only [reads, run_bind, result]
      cases last : next value middle with
      | ok found after =>
          exact ((later value).reads_of_ok soundMiddle last).1.symm
      | error miss missed =>
          exact ((later value).reads_of_error soundMiddle last).1.symm
  | error miss missed => simp only [reads, run_bind, result, Option.bind_none]

/-- A sequence goes on from where its first part has ended. -/
theorem reads_bind_of {rule : Rule First} {next : First → Rule Second} {before middle : View}
    {value : First} (formed : Formed rule) (later : ∀ value, Formed (next value))
    (first : reads rule before = some (value, middle)) :
    reads (rule >>= next) before = reads (next value) middle := by
  rw [reads_bind before next formed later, first]
  rfl

/-- What is read in sequence is read part by part. -/
theorem reads_bind_eq_some_iff {rule : Rule First} {next : First → Rule Second} {value : Second}
    {after : View} (formed : Formed rule) (later : ∀ value, Formed (next value)) :
    reads (rule >>= next) view = some (value, after) ↔
      ∃ found middle, reads rule view = some (found, middle) ∧
        reads (next found) middle = some (value, after) := by
  rw [reads_bind view next formed later, Option.bind_eq_some_iff]
  constructor
  · rintro ⟨⟨found, middle⟩, first, second⟩
    exact ⟨found, middle, first, second⟩
  · rintro ⟨found, middle, first, second⟩
    exact ⟨(found, middle), first, second⟩

/-- A rule that looks at the text reads as the rule for that text does. -/
theorem reads_look (rule : List Char → Rule Value) :
    reads (look rule) view = reads (rule view.rest) view := rfl

/-- Passing characters takes them off the text. -/
theorem reads_advance (count : Nat) :
    reads (advance count) view = some ((), { view with rest := view.rest.drop count }) := rfl

/-- A run of characters is read as far as the test holds. -/
theorem reads_takeWhile (test : Char → Bool) :
    reads (takeWhile test) view =
      some (view.rest.takeWhile test, { view with rest := view.rest.dropWhile test }) := by
  rw [← Source.drop_takeWhile]
  rfl

/-- Skipping a gap is skipping it in the view. -/
theorem reads_skip : reads skip view = some ((), view.skip) := by
  have same := (State.sound_ofView view).view_skip
  rw [State.view_ofView] at same
  rw [← same]
  rfl

@[simp] theorem reads_missFor (reason : Reason) :
    reads (missFor reason : Rule Value) view = none := rfl

@[simp] theorem reads_expected (what : Expectation) :
    reads (expected what : Rule Value) view = none := rfl

@[simp] theorem reads_rejected (why : Rejection) :
    reads (rejected why : Rule Value) view = none := rfl

/-- The comments that wait for the next item are read together. -/
theorem reads_drainHead :
    reads drainHead view =
      some (Comment.Queue.together view.head, { view with head := [] }) := by
  obtain ⟨drained, emptied, _⟩ := (⟨view.head, 0⟩ : Comment.Queue).drain_eq
  have pending : (⟨view.head, 0⟩ : Comment.Queue).pending = view.head := rfl
  rw [pending] at drained
  have result : reads drainHead view =
      some ((⟨view.head, 0⟩ : Comment.Queue).drain.1,
        { view with head := (⟨view.head, 0⟩ : Comment.Queue).drain.2.pending }) := rfl
  rw [result, drained, emptied]

/-- The comments that wait for the item just read are read together. -/
theorem reads_drainTail :
    reads drainTail view =
      some (Comment.Queue.together view.tail, { view with tail := [] }) := by
  obtain ⟨drained, emptied, _⟩ := (⟨view.tail, 0⟩ : Comment.Queue).drain_eq
  have pending : (⟨view.tail, 0⟩ : Comment.Queue).pending = view.tail := rfl
  rw [pending] at drained
  have result : reads drainTail view =
      some ((⟨view.tail, 0⟩ : Comment.Queue).drain.1,
        { view with tail := (⟨view.tail, 0⟩ : Comment.Queue).drain.2.pending }) := rfl
  rw [result, drained, emptied]

/-- Comments that are given up are gone from the view. -/
theorem reads_discardHead : reads discardHead view = some ((), { view with head := [] }) := by
  have result : reads discardHead view =
      some ((), { view with head := (⟨view.head, 0⟩ : Comment.Queue).discard.pending }) := rfl
  rw [result, Comment.Queue.pending_discard]

/-- An attempt reads what its rule reads, and otherwise leaves the view as it was. -/
theorem reads_attempt {rule : Rule Value} (formed : Formed rule) :
    reads (attempt rule) view =
      some (match reads rule view with
        | some (value, after) => (some value, after)
        | none => (none, view)) := by
  have sound := (State.sound_ofView view).checkpoint
  unfold reads
  rw [attempt_eq formed.growing]
  cases result : rule (State.ofView view).checkpoint with
  | ok value after =>
      have same := (formed.reads_of_ok sound result).1
      rw [State.view_checkpoint, State.view_ofView] at same
      unfold reads at same
      simp only [same]
      rfl
  | error miss missed =>
      have same := (formed.reads_of_error sound result).1
      rw [State.view_checkpoint, State.view_ofView] at same
      unfold reads at same
      simp only [same]
      rfl

/-- A choice reads what the first of its rules that reads anything reads. -/
theorem reads_choice {rules : List (Rule Value)} (what : Expectation)
    (formed : ∀ rule ∈ rules, Formed rule) :
    reads (choice what rules) view = rules.findSome? fun rule => reads rule view := by
  -- Rules are tried with the misses of those before them, so these are left open in the induction.
  have each : ∀ misses, (∃ value read,
        tryEach (State.ofView view) misses rules = .inl (value, read) ∧
        (rules.findSome? fun rule => reads rule view) = some (value, read.view)) ∨
      (∃ missed, tryEach (State.ofView view) misses rules = .inr missed ∧
        (rules.findSome? fun rule => reads rule view) = none) := by
    induction rules with
    | nil => exact fun misses => .inr ⟨misses, rfl, rfl⟩
    | cons rule others ih =>
        intro misses
        have sound := (State.sound_ofView view).checkpoint.keeping misses
        simp only [tryEach, List.findSome?_cons]
        cases result : rule ((State.ofView view).checkpoint.keeping misses) with
        | ok value after =>
            have same := ((formed rule (by simp)).reads_of_ok sound result).1
            rw [State.view_keeping, State.view_checkpoint, State.view_ofView] at same
            rw [same]
            exact .inl ⟨value, _, rfl, rfl⟩
        | error miss missed =>
            have same := ((formed rule (by simp)).reads_of_error sound result).1
            rw [State.view_keeping, State.view_checkpoint, State.view_ofView] at same
            rw [same]
            exact ih (fun rule member => formed rule (by simp [member])) missed.misses
  have run := choice_eq (fun rule member => (formed rule member).growing) what (State.ofView view)
  rcases each (State.ofView view).misses with
    ⟨value, read, tried, found⟩ | ⟨missed, tried, found⟩
  · rw [tried] at run
    rw [found]
    simp only [reads, run]
  · rw [tried] at run
    rw [found]
    simp only [reads, run]
    rfl

/-- Repetition reads one item and goes on, as long as items match and make the text shorter. -/
theorem reads_many {rule : Rule Value} (formed : Formed rule) :
    reads (many rule) view =
      match reads rule view with
      | none => some ([], view)
      | some (value, after) =>
        if after.rest.length < view.rest.length then
          (reads (many rule) after).map fun read => (value :: read.1, read.2)
        else some ([value], after) := by
  have attempted := reads_attempt view formed
  have sound := State.sound_ofView view
  -- Opened once by its equation: the repetition recurses, and as a simp lemma it would go on.
  have unfolded := many.eq_def rule (State.ofView view)
  match result : attempt rule (State.ofView view) with
  | .error _ _ => exact absurd result (attempt_ne_error formed.growing _ _ _)
  | .ok none next =>
      obtain ⟨same, soundNext⟩ := formed.attempt.reads_of_ok sound result
      rw [State.view_ofView, attempted] at same
      rw [result] at unfolded
      cases inner : reads rule view with
      | some read => simp [inner] at same
      | none =>
          simp only [inner, Option.some.injEq, Prod.mk.injEq, true_and] at same
          rw [reads, unfolded, same]
  | .ok (some value) next =>
      obtain ⟨same, soundNext⟩ := formed.attempt.reads_of_ok sound result
      rw [State.view_ofView, attempted] at same
      rw [result] at unfolded
      cases inner : reads rule view with
      | none => simp [inner] at same
      | some read =>
          simp only [inner, Option.some.injEq, Prod.mk.injEq] at same
          obtain ⟨rfl, afterward⟩ := same
          simp only [afterward]
          have lengths : (State.ofView view).input.rest = view.rest := rfl
          have lengths' : next.view.rest = next.input.rest := rfl
          simp only [lengths] at unfolded
          rw [lengths']
          split
          · next shorter =>
              rw [if_pos shorter] at unfolded
              obtain ⟨values, last, rest, _⟩ := many_repeats formed.growing next
              rw [rest] at unfolded
              rw [(formed.many.reads_of_ok soundNext rest).1]
              simp only [reads, unfolded, Option.map_some]
          · next longer =>
              rw [if_neg longer] at unfolded
              simp only [reads, unfolded]

end Reads

/-- A rule read again and again from a view on. It ends after the last item that is read: when the
rule misses there, or when that item has left the text no shorter. -/
inductive ReadsEach (rule : Rule Value) : View → List Value → View → Prop
  | missed {view : View} : reads rule view = none → ReadsEach rule view [] view
  | idle {before after : View} {value : Value} : reads rule before = some (value, after) →
      before.rest.length ≤ after.rest.length → ReadsEach rule before [value] after
  | item {before middle after : View} {value : Value} {values : List Value} :
      reads rule before = some (value, middle) → middle.rest.length < before.rest.length →
      ReadsEach rule middle values after → ReadsEach rule before (value :: values) after

/-- What is repeated is read item by item. -/
theorem readsEach_of_reads_many {rule : Rule Value} (formed : Formed rule) {before after : View}
    {values : List Value} (read : reads (many rule) before = some (values, after)) :
    ReadsEach rule before values after := by
  induction count : before.rest.length using Nat.strongRecOn generalizing before values with
  | _ length ih =>
      rw [reads_many before formed] at read
      cases result : reads rule before with
      | none =>
          rw [result] at read
          cases read
          exact .missed result
      | some step =>
          obtain ⟨value, middle⟩ := step
          simp only [result] at read
          split at read
          · next shorter =>
              obtain ⟨⟨others, last⟩, later, same⟩ := Option.map_eq_some_iff.mp read
              cases same
              exact .item result shorter (ih _ (count ▸ shorter) later rfl)
          · next longer =>
              cases read
              exact .idle result (Nat.le_of_not_lt longer)

/-! ## What rules end with -/

/-- A rule that ends in views of a kind, with values of a kind. -/
structure EndsWith (rule : Rule Value) (post : Value → View → Prop) : Prop where
  formed : Formed rule
  holds : ∀ {before value after}, reads rule before = some (value, after) → post value after

namespace EndsWith

variable {post : Value → View → Prop}

/-- A sequence ends as its second rule does, whatever the first one returned. -/
theorem after {rule : Rule First} {next : First → Rule Value} (formed : Formed rule)
    (later : ∀ value, EndsWith (next value) post) : EndsWith (rule >>= next) post := by
  refine ⟨formed.bind fun value => (later value).formed, fun read => ?_⟩
  obtain ⟨found, middle, -, read⟩ :=
    (reads_bind_eq_some_iff _ formed fun value => (later value).formed).mp read
  exact (later found).holds read

/-- A test that the value of the first part passes may be used for the second part. -/
theorem bind {test : First → Prop} {rule : Rule First} {next : First → Rule Value}
    (first : EndsWith rule fun value _ => test value) (formed : ∀ value, Formed (next value))
    (later : ∀ value, test value → EndsWith (next value) post) : EndsWith (rule >>= next) post := by
  refine ⟨first.formed.bind formed, fun read => ?_⟩
  obtain ⟨found, middle, here, there⟩ := (reads_bind_eq_some_iff _ first.formed formed).mp read
  exact (later found (first.holds here)).holds there

/-- A value alone ends with what holds of it in any view. -/
theorem pure {value : Value} (holds : ∀ view, post value view) : EndsWith (pure value) post := by
  refine ⟨.pure value, fun {before found after} read => ?_⟩
  rw [reads_pure] at read
  cases read
  exact holds before

/-- A view stays what it is when only a value is made. -/
theorem followed {rule : Rule First} {make : First → Value} {post : View → Prop}
    (ends : EndsWith rule fun _ => post) :
    EndsWith (rule >>= fun value => Pure.pure (make value)) fun _ => post := by
  refine ⟨ends.formed.bind fun _ => .pure _, fun read => ?_⟩
  obtain ⟨found, middle, read, same⟩ :=
    (reads_bind_eq_some_iff _ ends.formed fun _ => .pure _).mp read
  rw [reads_pure] at same
  cases same
  exact ends.holds read

end EndsWith

end Parser
end ThriftIdl
