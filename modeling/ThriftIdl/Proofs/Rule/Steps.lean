import Mathlib.Logic.Relation
import ThriftIdl.Proofs.Rule.Rollback
import ThriftIdl.Proofs.Source.Bytes

/-!
# The single steps of a reading

Whatever rule is applied, the state changes by a sequence of single steps: a move, a comment queue
that is filled or drained, a miss that is recorded, a checkpoint that is set, returned to or given
up (`Formed.reaches`). This holds inside alternatives that miss and are taken back, too. So what
every single step preserves holds of every state that a reading comes to (`Reached`); here it is
that all places lie within the source text and not before the current declaration
(`Reached.placed`).
-/

namespace ThriftIdl.Parser

open Source (Cursor Input)
open Relation (ReflTransGen)

variable {Value : Type}

/-! ## Steps -/

/-- What the parser does to a state at a time. -/
inductive Step : State → State → Prop
  | advance (count : Nat) (state : State) : Step state (ending (advance count state))
  | skip (state : State) : Step state state.skip
  | skipLeading (state : State) : Step state state.skipLeading
  | missFor (reason : Reason) (state : State) :
      Step state (state.keeping (state.missFor reason :: state.misses))
  | drainHead (state : State) : Step state (ending (drainHead state))
  | drainTail (state : State) : Step state (ending (drainTail state))
  | discardHead (state : State) : Step state (ending (discardHead state))
  | checkpoint (state : State) : Step state state.checkpoint
  | rollback (state : State) : Step state state.rollback
  | commit (state : State) : Step state state.commit

/-- A rule that takes a state to its end by single steps. -/
def Stepwise (rule : Rule Value) : Prop :=
  ∀ state, ReflTransGen Step state (ending (rule state))

namespace Stepwise

variable {First Second : Type}

private theorem pure (value : Value) : Stepwise (pure value : Rule Value) :=
  fun _ => .refl

private theorem bind {rule : Rule First} {next : First → Rule Second} (first : Stepwise rule)
    (later : ∀ value, Stepwise (next value)) : Stepwise (rule >>= next) := by
  intro state
  have start := first state
  rw [run_bind]
  cases result : rule state with
  | ok value read =>
      rw [result] at start
      exact start.trans (later value read)
  | error miss missed =>
      rw [result] at start
      exact start

private theorem probe {rule : Rule Value} (stepwise : Stepwise rule) : Stepwise (probe rule) := by
  intro state
  have inside := stepwise state
  unfold Parser.probe
  cases result : rule state <;> rwa [result] at inside

private theorem modify {change : State → State} (step : ∀ state, Step state (change state)) :
    Stepwise (modify change : Rule Unit) :=
  fun state => .single (step state)

private theorem attempt {rule : Rule Value} (stepwise : Stepwise rule) :
    Stepwise (attempt rule) := by
  refine (modify .checkpoint).bind fun _ => stepwise.probe.bind fun found => ?_
  cases found with
  | some value => exact (modify .commit).bind fun _ => pure _
  | none => exact (modify .rollback).bind fun _ => (modify .commit).bind fun _ => pure _

private theorem firstMatch {rules : List (Rule Value)} (stepwise : ∀ rule ∈ rules, Stepwise rule) :
    Stepwise (firstMatch rules) := by
  induction rules with
  | nil => exact pure _
  | cons rule others ih =>
      refine (stepwise rule (by simp)).probe.bind fun found => ?_
      cases found with
      | some value => exact pure _
      | none =>
          exact (modify .rollback).bind fun _ =>
            ih fun other member => stepwise other (by simp [member])

private theorem missFor (reason : Reason) : Stepwise (missFor reason : Rule Value) :=
  fun state => .single (.missFor reason state)

private theorem choice (what : Expectation) {rules : List (Rule Value)}
    (stepwise : ∀ rule ∈ rules, Stepwise rule) : Stepwise (choice what rules) := by
  refine (modify .checkpoint).bind fun _ => (firstMatch stepwise).bind fun found => ?_
  refine (modify .commit).bind fun _ => ?_
  cases found with
  | some value => exact pure _
  | none => exact missFor _

private theorem many {rule : Rule Value} (stepwise : Stepwise rule) : Stepwise (many rule) := by
  intro state
  fun_induction Parser.many rule state with
  | case1 state miss missed result =>
      have first := stepwise.attempt state
      rwa [result] at first
  | case2 state next result =>
      have first := stepwise.attempt state
      rwa [result] at first
  | case3 state value next result shorter values last later ih =>
      have first := stepwise.attempt state
      rw [result] at first
      rw [later] at ih
      exact first.trans ih
  | case4 state value next result shorter miss last later ih =>
      have first := stepwise.attempt state
      rw [result] at first
      rw [later] at ih
      exact first.trans ih
  | case5 state value next result longer =>
      have first := stepwise.attempt state
      rwa [result] at first

end Stepwise

/-- **Every rule goes step by step.** -/
theorem Formed.stepwise {rule : Rule Value} (formed : Formed rule) : Stepwise rule := by
  induction formed with
  | pure value => exact .pure value
  | bind _ _ first later => exact first.bind later
  | look _ _ ih => exact fun state => ih state.input.rest state
  | advance count => exact fun state => .single (.advance count state)
  | skip => exact .modify .skip
  | missFor reason => exact .missFor reason
  | drainHead => exact fun state => .single (.drainHead state)
  | drainTail => exact fun state => .single (.drainTail state)
  | discardHead => exact fun state => .single (.discardHead state)
  | probe _ ih => exact ih.probe
  | choice what _ ih => exact .choice what ih
  | attempt _ ih => exact ih.attempt
  | many _ ih => exact ih.many

/-- The states that the reading of a source text comes to, each with the place at which the current
declaration begins. -/
inductive Reached (options : Options) (source : String) : Cursor → State → Prop
  | start : Reached options source .start (.ofString source)
  | declaration {state : State} : TopLevel options source state →
      Reached options source state.input.cursor (state.keeping [])
  | step {first : Cursor} {state next : State} : Reached options source first state →
      Step state next → Reached options source first next

namespace Reached

variable {options : Options} {source : String} {first : Cursor} {state next : State}

private theorem reaches (reached : Reached options source first state)
    (steps : ReflTransGen Step state next) : Reached options source first next := by
  induction steps with
  | refl => exact reached
  | tail _ step ih => exact ih.step step

/-- Whatever rule is applied, it ends in a state that the reading comes to. -/
theorem ending {rule : Rule Value} (reached : Reached options source first state)
    (formed : Formed rule) : Reached options source first (ending (rule state)) :=
  reached.reaches (formed.stepwise state)

end Reached

/-! ## Places -/

/-- A miss was recorded at a place within a source text and not before an earlier place. -/
def RecordedWithin (source : String) (first : Cursor) (miss : Miss) : Prop :=
  ∃ place : Input, place.Within source ∧ first.offset ≤ place.cursor.offset ∧
    miss.offset = place.cursor.offset ∧ miss.found = place.peek

/-- All places of a state lie within a source text and not before an earlier place. -/
structure Placed (source : String) (first : Cursor) (state : State) : Prop where
  input : state.input.Within source ∧ first.offset ≤ state.input.cursor.offset
  checkpoints : ∀ checkpoint ∈ state.checkpoints,
    checkpoint.input.Within source ∧ first.offset ≤ checkpoint.input.cursor.offset
  misses : ∀ miss ∈ state.misses, RecordedWithin source first miss

namespace Placed

variable {source : String} {first : Cursor} {state next : State}

private theorem advance (placed : Placed source first state) (count : Nat)
    (comments : Comment.Queues) :
    Placed source first
      { state with input := state.input.advance count, comments := comments } where
  input := by
    obtain ⟨within, after⟩ := placed.input
    refine ⟨within.advance count, after.trans ?_⟩
    rw [Input.advance, Cursor.offset_pass]
    exact Nat.le_add_right _ _
  checkpoints := placed.checkpoints
  misses := placed.misses

/-- A change of the comment queues alone changes no place. -/
theorem comments (placed : Placed source first state) (comments : Comment.Queues) :
    Placed source first { state with comments := comments } :=
  ⟨placed.input, placed.checkpoints, placed.misses⟩

private theorem rollback (placed : Placed source first state) :
    Placed source first state.rollback := by
  unfold State.rollback
  split
  · exact placed
  · next latest others stack =>
    exact ⟨placed.checkpoints latest (by simp [stack]), placed.checkpoints, placed.misses⟩

/-- **A single step keeps all places within the source.** -/
theorem step (placed : Placed source first state) (step : Step state next) :
    Placed source first next := by
  cases step with
  | advance count => exact placed.advance count _
  | skip => exact placed.advance _ _
  | skipLeading => exact placed.advance _ _
  | missFor reason =>
      refine ⟨placed.input, placed.checkpoints, List.forall_mem_cons.mpr ⟨?_, placed.misses⟩⟩
      exact ⟨state.input, placed.input.1, placed.input.2, rfl, rfl⟩
  | drainHead => exact placed.comments _
  | drainTail => exact placed.comments _
  | discardHead => exact placed.comments _
  | checkpoint =>
      exact ⟨placed.input, List.forall_mem_cons.mpr ⟨placed.input, placed.checkpoints⟩,
        placed.misses⟩
  | rollback => exact placed.rollback
  | commit =>
      exact ⟨placed.input, fun checkpoint member =>
        placed.checkpoints checkpoint (List.mem_of_mem_drop member), placed.misses⟩

private theorem steps (placed : Placed source first state) (steps : ReflTransGen Step state next) :
    Placed source first next := by
  induction steps with
  | refl => exact placed
  | tail _ step ih => exact ih.step step

private theorem start (source : String) : Placed source .start (.ofString source) where
  input := ⟨Source.Input.within_ofString source, Nat.le_refl _⟩
  checkpoints := by simp [State.ofString]
  misses := by simp [State.ofString]

/-- A declaration begins with no checkpoint and no miss. -/
theorem declaration (within : state.input.Within source) (none : state.checkpoints = []) :
    Placed source state.input.cursor (state.keeping []) where
  input := ⟨within, Nat.le_refl _⟩
  checkpoints := by simp [State.keeping, none]
  misses := by simp [State.keeping]

end Placed

private theorem skipByteOrderMark_steps (state : State) :
    ReflTransGen Step state (skipByteOrderMark state) := by
  unfold skipByteOrderMark
  split
  · exact .single (.advance 1 state)
  · exact .refl

/-- Every state at the top level stands inside the text it began with. -/
theorem TopLevel.within {options : Options} {source : String} {state : State}
    (reached : TopLevel options source state) : state.input.Within source := by
  induction reached with
  | start =>
      have steps := (skipByteOrderMark_steps (.ofString source)).tail (.skipLeading _)
      exact ((Placed.start source).steps steps).input.1
  | @next state after _ before _ matched ih =>
      have steps := (Formed.declaration options.duplicates).stepwise (state.keeping [])
      rw [matched] at steps
      exact ((Placed.declaration ih before.settled.1).steps steps).input.1

/-- **All places of a reading** lie within the source text and not before the current
declaration. -/
theorem Reached.placed {options : Options} {source : String} {first : Cursor} {state : State}
    (reached : Reached options source first state) : Placed source first state := by
  induction reached with
  | start => exact .start source
  | declaration topLevel => exact .declaration topLevel.within topLevel.settled.1
  | step _ step ih => exact ih.step step

end ThriftIdl.Parser
