import Mathlib.Data.List.Forall2
import ThriftIdl.Proofs.Rule.Progress
import ThriftIdl.Proofs.Rule.Strictness

/-!
# Recursion without a bound

A rule that applies itself at later places only does the same whatever stands for it at other places
(`SameWhere`). So it is the only solution of its own equation, and every bound on the nesting that
exceeds the length of the text gives the same results (`Nested.within_eq`, `Nested.recurses`). A
repetition of a rule that progresses comes to an end without a check that it does
(`Progresses.ends`).
-/

namespace ThriftIdl.Parser

open Source (Input)

variable {Value First Second : Type}

/-! ## Rules that do the same from a place on -/

/-- Two rules do the same at all places that meet a condition. -/
def SameWhere (region : Input → Prop) (rule other : Rule Value) : Prop :=
  ∀ state, region state.input → rule state = other state

/-- What holds of a place holds of all later ones. -/
def Onward (region : Input → Prop) : Prop :=
  ∀ ⦃input : Input⦄, region input → ∀ count, region (input.advance count)

/-- What lies behind a place also lies behind it further on. -/
theorem onward_precedes (start : Input) : Onward start.Precedes :=
  fun _ precedes count => precedes.then_advance count

private theorem Onward.of_reaches {region : Input → Prop} (onward : Onward region)
    {first later : Input}
    (here : region first) (reaches : first.Reaches later) : region later := by
  obtain ⟨count, rfl⟩ := reaches
  exact onward here count

namespace SameWhere

variable {region : Input → Prop}

/-- A rule does the same as itself. -/
theorem refl (rule : Rule Value) : SameWhere region rule rule :=
  fun _ _ => rfl

/-- Sequences do the same where their first parts do, and their second parts from there on. -/
theorem bind {rule other : Rule First} {next later : First → Rule Second}
    (first : SameWhere region rule other) (onward : Onward region) (formed : Formed rule)
    (second : ∀ value, SameWhere region (next value) (later value)) :
    SameWhere region (rule >>= next) (other >>= later) := by
  intro state here
  rw [run_bind, run_bind, ← first state here]
  cases result : rule state with
  | ok value read =>
      exact second value read (onward.of_reaches here (formed.growing.reaches_of_ok result))
  | error miss missed => rfl

/-- What comes after a part that progresses is done at later places only. -/
theorem step {start : Input} {rule : Rule First} {next later : First → Rule Second}
    (progresses : Progresses rule)
    (second : ∀ value, SameWhere start.Precedes (next value) (later value)) :
    SameWhere start.Reaches (rule >>= next) (rule >>= later) := by
  intro state reaches
  rw [run_bind, run_bind]
  cases result : rule state with
  | ok value read => exact second value read (.of_reaches reaches (progresses result))
  | error miss missed => rfl

private theorem attempt {rule other : Rule Value} (same : SameWhere region rule other) :
    SameWhere region (attempt rule) (attempt other) := by
  intro state here
  have inner : probe rule state.checkpoint = probe other state.checkpoint := by
    unfold probe
    rw [same state.checkpoint here]
  unfold Parser.attempt
  simp only [run_bind, run_modify, inner]

private theorem firstMatch {rules others : List (Rule Value)}
    (same : List.Forall₂ (SameWhere region) rules others) (formed : ∀ rule ∈ rules, Formed rule)
    {state : State} (here : region state.input) (misses : List Miss) :
    firstMatch rules (state.checkpoint.keeping misses) =
      firstMatch others (state.checkpoint.keeping misses) := by
  induction same generalizing misses with
  | nil => rfl
  | @cons rule other rules others first _ ih =>
      obtain ⟨formedFirst, formed⟩ := List.forall_mem_cons.mp formed
      have alike := first (state.checkpoint.keeping misses) here
      simp only [Parser.firstMatch, run_bind, probe, ← alike]
      cases result : rule (state.checkpoint.keeping misses) with
      | ok value read => rfl
      | error miss missed =>
          simp only [run_bind, run_modify, formedFirst.growing.rollback_eq result]
          exact ih formed missed.misses

/-- Choices do the same if their alternatives do one by one: each starts from the same place. -/
theorem choice (what : Expectation) {rules others : List (Rule Value)}
    (same : List.Forall₂ (SameWhere region) rules others) (formed : ∀ rule ∈ rules, Formed rule) :
    SameWhere region (choice what rules) (choice what others) := by
  intro state here
  have first :
      Parser.firstMatch rules state.checkpoint = Parser.firstMatch others state.checkpoint :=
    firstMatch same formed here state.misses
  unfold Parser.choice
  simp only [run_bind, run_modify, first]

/-- Repetitions do the same from a place on if what they repeat does. -/
theorem many {rule other : Rule Value} (same : SameWhere region rule other)
    (onward : Onward region) (formed : Formed rule) :
    SameWhere region (many rule) (many other) := by
  intro state here
  fun_induction Parser.many rule state with
  | case1 state miss missed result =>
      rw [same.attempt state here] at result
      rw [Parser.many.eq_def, result]
  | case2 state next result =>
      rw [same.attempt state here] at result
      rw [Parser.many.eq_def, result]
  | case3 state value next result shorter values last later ih =>
      have reaches := formed.attempt.growing.reaches_of_ok result
      rw [same.attempt state here] at result
      rw [later] at ih
      rw [Parser.many.eq_def, result]
      simp only [if_pos shorter, ← ih (onward.of_reaches here reaches)]
  | case4 state value next result shorter miss last later ih =>
      have reaches := formed.attempt.growing.reaches_of_ok result
      rw [same.attempt state here] at result
      rw [later] at ih
      rw [Parser.many.eq_def, result]
      simp only [if_pos shorter, ← ih (onward.of_reaches here reaches)]
  | case5 state value next result longer =>
      rw [same.attempt state here] at result
      rw [Parser.many.eq_def, result]
      simp only [if_neg longer]

end SameWhere

/-! ## Rules that call themselves -/

/-- A rule that is a choice of forms in which it occurs itself, at later places only. Whatever
stands for it at other places makes no difference, and no other rule is such a choice. -/
structure Recurses (what : Expectation) (forms : Rule Value → List (Rule Value))
    (rule : Rule Value) : Prop where
  progresses : Progresses rule
  later : ∀ (state : State) (other : Rule Value), SameWhere state.input.Precedes rule other →
    choice what (forms other) state = rule state
  only : ∀ other, other = choice what (forms other) ↔ other = rule

/-- A family of rules with a bound on the nesting, in whose forms the inner rule is applied at later
places only. -/
structure Nested (what : Expectation) (forms : Rule Value → List (Rule Value))
    (within : Nat → Rule Value) : Prop where
  step : ∀ depth, within (depth + 1) = choice what (forms (within depth))
  formed : ∀ depth, Formed (within depth)
  progresses : ∀ depth, Progresses (within depth)
  formedForms : ∀ {inner}, Formed inner → ∀ rule ∈ forms inner, Formed rule
  same : ∀ {start : Input} {inner other : Rule Value}, Formed inner →
    SameWhere start.Precedes inner other →
    List.Forall₂ (SameWhere start.Reaches) (forms inner) (forms other)

namespace Nested

variable {what : Expectation} {forms : Rule Value → List (Rule Value)} {within : Nat → Rule Value}

/-- The forms do the same where the inner rules do at later places. -/
theorem choice_eq (nested : Nested what forms within) {inner other : Rule Value}
    (formed : Formed inner) {state : State} (same : SameWhere state.input.Precedes inner other) :
    choice what (forms inner) state = choice what (forms other) state :=
  SameWhere.choice what (nested.same formed same) (nested.formedForms formed) state (.refl _)

/-- **Every bound above the length of the text is enough**, and no such bound changes the result. -/
theorem within_eq (nested : Nested what forms within) {state : State} {bound other : Nat}
    (enough : state.input.rest.length < bound) (enough' : state.input.rest.length < other) :
    within bound state = within other state := by
  induction bound generalizing state other with
  | zero => omega
  | succ bound ih =>
      cases other with
      | zero => omega
      | succ other =>
          rw [nested.step, nested.step]
          refine nested.choice_eq (nested.formed bound) fun later precedes => ?_
          have shorter := precedes.shorter
          exact ih (by omega) (by omega)

/-- The rule with the length of the text as its bound. -/
theorem recurses (nested : Nested what forms within) {rule : Rule Value}
    (bounded : ∀ state, rule state = within (state.input.rest.length + 1) state)
    (formed : Formed rule) : Recurses what forms rule := by
  have fixed : rule = choice what (forms rule) := by
    funext state
    rw [bounded, nested.step]
    refine nested.choice_eq (nested.formed _) fun later precedes => ?_
    rw [bounded]
    exact nested.within_eq precedes.shorter (Nat.lt_succ_self _)
  have later (state : State) (other : Rule Value)
      (same : SameWhere state.input.Precedes rule other) :
      choice what (forms other) state = rule state := by
    rw [← nested.choice_eq formed same, ← fixed]
  refine ⟨fun before value after matched => ?_, later, fun other => ⟨fun solves => ?_, ?_⟩⟩
  · rw [bounded] at matched
    exact nested.progresses _ matched
  · -- A solution does what the rule does on all shorter texts, and so here.
    have same (length : Nat) (state : State) (short : state.input.rest.length < length) :
        other state = rule state := by
      induction length generalizing state with
      | zero => omega
      | succ length ih =>
          rw [solves]
          refine later state other fun after precedes => (ih after ?_).symm
          have shorter := precedes.shorter
          omega
    exact funext fun state => same _ state (Nat.lt_succ_self _)
  · rintro rfl
    exact fixed

end Nested

/-! ## Repetitions -/

/-- One round of a repetition without a check for progress, given what is done after it. -/
def round (rule : Rule Value) (loop : Rule (List Value)) : Rule (List Value) := do
  match ← attempt rule with
  | none => return []
  | some value =>
    let values ← loop
    return value :: values

/-- One round reads an item and goes on with the loop, or else ends where it began. -/
theorem round_eq {rule : Rule Value} (formed : Formed rule) (loop : Rule (List Value))
    (state : State) : round rule loop state =
      match rule state.checkpoint with
      | .error _ missed => .ok [] (state.keeping missed.misses)
      | .ok value read =>
        match loop read.commit with
        | .ok values last => .ok (value :: values) last
        | .error miss last => .error miss last := by
  rw [round, run_bind, attempt_eq formed.growing]
  cases rule state.checkpoint with
  | error miss missed => rfl
  | ok value read =>
      simp only [run_bind]
      cases loop read.commit <;> rfl

/-- A repetition that ends by itself: each item is a step forward, so there are no more items than
characters, and without a check for progress the repetition is the only solution of its equation. -/
structure Ends (rule : Rule Value) : Prop where
  progresses : Progresses rule
  bounded : ∀ before values after, many rule before = .ok values after →
    values.length + after.input.rest.length ≤ before.input.rest.length
  unchecked : ∀ loop, loop = round rule loop ↔ loop = many rule

/-- A repetition has no more items than characters, if all of them are steps forward. -/
theorem Repetition.length_add_le {rule : Rule Value} (progresses : Progresses rule)
    {before after : State} {values : List Value} (repeated : Repetition rule before values after) :
    values.length + after.input.rest.length ≤ before.input.rest.length := by
  induction repeated with
  | missed _ restored =>
      rw [restored]
      simp [State.keeping]
  | idle matched longer =>
      have shorter := (progresses matched).shorter
      exact absurd shorter (Nat.not_lt.mpr longer)
  | @item before read after value values _ shorter _ ih =>
      have ih : values.length + after.input.rest.length ≤ read.input.rest.length := ih
      rw [List.length_cons]
      omega

/-- **Repetitions of a rule that progresses end by themselves.** -/
theorem Progresses.ends {rule : Rule Value} (progresses : Progresses rule)
    (formed : Formed rule) : Ends rule := by
  have shorter {state read : State} {value : Value}
      (result : rule state.checkpoint = .ok value read) :
      read.input.rest.length < state.input.rest.length :=
    (progresses result).shorter
  have fixed : many rule = round rule (many rule) := by
    funext state
    rw [round_eq formed, many_step formed.growing]
    cases result : rule state.checkpoint with
    | error miss missed => rfl
    | ok value read => exact if_pos (shorter result)
  refine ⟨progresses, fun before values after matched => ?_, fun loop => ⟨fun solves => ?_, ?_⟩⟩
  · obtain ⟨_, _, same, repeated⟩ := many_repeats formed.growing before
    rw [matched] at same
    cases same
    exact repeated.length_add_le progresses
  · -- A solution does what the repetition does on all shorter texts, and so here.
    have same (length : Nat) (state : State) (short : state.input.rest.length < length) :
        loop state = many rule state := by
      induction length generalizing state with
      | zero => omega
      | succ length ih =>
          rw [solves, fixed, round_eq formed, round_eq formed]
          cases result : rule state.checkpoint with
          | error miss missed => rfl
          | ok value read =>
              have below := shorter result
              simp only [ih read.commit (by change read.input.rest.length < length; omega)]
    exact funext fun state => same _ state (Nat.lt_succ_self _)
  · rintro rfl
    exact fixed

end ThriftIdl.Parser
