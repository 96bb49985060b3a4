import ThriftIdl.Comment.Queue
import ThriftIdl.Error.Miss
import ThriftIdl.Source.Gap
import ThriftIdl.Source.Input

/-!
# Rules and how they are combined

A rule reads from the current place and either gives a value or misses. A miss leaves the place
where the rule stopped; it is the combinators that go back, to the state remembered by the topmost
checkpoint. Every miss is kept, also one that another reading makes good, because the best of them
explains why a whole declaration cannot be read.
-/

namespace ThriftIdl.Parser

open Source (Input)

/-- What is remembered in order to go back: the place, and the state of the comment queues. -/
structure Checkpoint where
  input : Input
  comments : Comment.Marks
deriving DecidableEq

/-- The state of a reading. -/
structure State where
  /-- The text that is left. -/
  input : Input
  /-- The comments read so far. -/
  comments : Comment.Queues := {}
  /-- The checkpoints that are in force, the latest first. -/
  checkpoints : List Checkpoint := []
  /-- The misses since the current declaration began, the latest first. -/
  misses : List Miss := []

/-- A rule for values of a type. -/
abbrev Rule (Value : Type) := EStateM Miss State Value

namespace State

/-- The state before anything is read. -/
def ofString (source : String) : State where
  input := .ofString source

/-- A failure at the current place. -/
def missFor (state : State) (reason : Reason) : Miss where
  offset := state.input.cursor.offset
  found := state.input.peek
  reason := reason

/-- Remember the current place and the state of the comment queues. -/
def checkpoint (state : State) : State :=
  { state with checkpoints := ⟨state.input, state.comments.mark⟩ :: state.checkpoints }

/-- Go back to the latest checkpoint, which stays in force. -/
def rollback (state : State) : State :=
  match state.checkpoints with
  | [] => state
  | latest :: _ =>
    { state with input := latest.input, comments := state.comments.reset latest.comments }

/-- Give up the latest checkpoint and stay where reading is. -/
def commit (state : State) : State :=
  { state with checkpoints := state.checkpoints.drop 1 }

/-- Pass the gap at the current place. Comments before its first line break belong to what was just
read, the others to what comes next. -/
def skip (state : State) : State :=
  let pieces := Source.gap state.input.rest
  { state with
    input := state.input.advance (Source.gapChars pieces).length
    comments :=
      { head := state.comments.head.pushAll (Source.gapComments (Source.laterLines pieces))
        tail := state.comments.tail.pushAll (Source.gapComments (Source.firstLine pieces)) } }

/-- Pass the gap at the start of a text, all of whose comments belong to what comes next. -/
def skipLeading (state : State) : State :=
  let pieces := Source.gap state.input.rest
  { state with
    input := state.input.advance (Source.gapChars pieces).length
    comments :=
      { state.comments with
        head := state.comments.head.pushAll (Source.gapComments pieces) } }

end State

variable {Value : Type}

/-! ## Single steps -/

/-- The next character. -/
def peek : Rule (Option Char) := do
  return (← get).input.peek

/-- Whether the text goes on with a given one. -/
def startsWith (text : List Char) : Rule Bool := do
  return (← get).input.startsWith text

/-- Move over a number of characters. -/
def advance (count : Nat) : Rule Unit :=
  modify fun state => { state with input := state.input.advance count }

/-- Read the characters up to the first that fails a test. -/
def takeWhile (test : Char → Bool) : Rule (List Char) := do
  let run := (← get).input.rest.takeWhile test
  advance run.length
  return run

/-- Pass the gap after a token. -/
def skip : Rule Unit :=
  modify State.skip

/-- Miss for a reason, and keep the miss. -/
def missFor (reason : Reason) : Rule Value := fun state =>
  let miss := state.missFor reason
  .error miss { state with misses := miss :: state.misses }

/-- Miss because the text does not go on as needed. -/
def expected (what : Expectation) : Rule Value :=
  missFor (.expected what)

/-- Miss because what was read is not acceptable. -/
def rejected (why : Rejection) : Rule Value :=
  missFor (.rejected why)

/-- The pending comments for the item that is about to be read. -/
def drainHead : Rule (Option String) :=
  modifyGet fun state =>
    let (drained, queue) := state.comments.head.drain
    (drained, { state with comments := { state.comments with head := queue } })

/-- The pending comments for the item that was just read. -/
def drainTail : Rule (Option String) :=
  modifyGet fun state =>
    let (drained, queue) := state.comments.tail.drain
    (drained, { state with comments := { state.comments with tail := queue } })

/-- Drop the pending comments for an item that does not come. -/
def discardHead : Rule Unit :=
  modify fun state =>
    { state with comments := { state.comments with head := state.comments.head.discard } }

/-! ## Combinators -/

/-- The value of a rule, or nothing if it misses. The state is the one in which the rule ends. -/
def probe (rule : Rule Value) : Rule (Option Value) := fun state =>
  match rule state with
  | .ok value next => .ok (some value) next
  | .error _ next => .ok none next

/-- The value of the first rule of a table that matches, each rule starting from the latest
checkpoint. -/
def firstMatch : List (Rule Value) → Rule (Option Value)
  | [] => return none
  | rule :: others => do
    match ← probe rule with
    | some value => return some value
    | none =>
      modify State.rollback
      firstMatch others

/-- Ordered choice: the first rule of a table that matches. If none does, reading is back where it
was, and the choice misses as a whole. -/
def choice (what : Expectation) (rules : List (Rule Value)) : Rule Value := do
  modify State.checkpoint
  let found ← firstMatch rules
  modify State.commit
  match found with
  | some value => return value
  | none => expected what

/-- An optional part: nothing, with reading back where it was, if the rule misses. -/
def attempt (rule : Rule Value) : Rule (Option Value) := do
  modify State.checkpoint
  let found ← probe rule
  if found.isNone then
    modify State.rollback
  modify State.commit
  return found

/-- The values of a rule applied again and again, until it misses or reads nothing. -/
def many (rule : Rule Value) : Rule (List Value) := fun state =>
  match attempt rule state with
  | .error miss next => .error miss next
  | .ok none next => .ok [] next
  | .ok (some value) next =>
    if next.input.rest.length < state.input.rest.length then
      match many rule next with
      | .ok values last => .ok (value :: values) last
      | .error miss last => .error miss last
    else .ok [value] next
termination_by state => state.input.rest.length

end ThriftIdl.Parser
