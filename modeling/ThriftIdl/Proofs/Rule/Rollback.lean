import ThriftIdl.Proofs.Rule.Formed
import ThriftIdl.Reading

/-!
# What a miss restores

A checkpoint keeps two numbers for each comment queue, not the queue. Going back is exact because a
rule only ever adds comments behind those that a checkpoint has counted (`Grows`) and leaves the
stack of checkpoints as it finds it. From `Formed.grows` follow the equations of the combinators
(`attempt_eq`, `firstMatch_eq`, `choice_eq`), in which no checkpoint and no return occurs any more,
and the exactness of every return, `rollback_exact`.
-/

namespace ThriftIdl

namespace Comment.Queues

/-- Both queues go back to an earlier state if their comments begin with the comments they had. -/
theorem reset_mark_of_extends {earlier later : Queues}
    (head : earlier.head.items <+: later.head.items)
    (tail : earlier.tail.items <+: later.tail.items) : later.reset earlier.mark = earlier := by
  cases earlier
  simp only [reset, mark, Queues.mk.injEq]
  exact ⟨Queue.reset_mark_of_extends head, Queue.reset_mark_of_extends tail⟩

end Comment.Queues

namespace Comment.Queue

/-- Taking comments removes none of them: they only stop waiting. -/
theorem items_drain (queue : Queue) : queue.drain.2.items = queue.items := by
  unfold drain
  split <;> rfl

/-- No comment waits once the waiting ones were taken. -/
theorem pending_drain (queue : Queue) : queue.drain.2.pending = [] := by
  unfold drain
  split
  · next empty => exact (isEmpty_iff queue).mp empty
  · simp [discard, pending]

end Comment.Queue

namespace Parser

variable {Value First Second : Type}

/-- The state in which a rule ends, whether it matches or misses. -/
def ending : EStateM.Result Miss State Value → State
  | .ok _ state => state
  | .error _ state => state

/-- A sequence runs its second rule from where the first one left off, unless that one misses. -/
theorem run_bind (rule : Rule First) (next : First → Rule Second) (state : State) :
    (rule >>= next) state =
      match rule state with
      | .ok value read => next value read
      | .error miss read => .error miss read := by
  simp only [bind, EStateM.bind]
  cases rule state <;> rfl

theorem run_pure (value : Value) (state : State) :
    (pure value : Rule Value) state = .ok value state :=
  rfl

theorem run_modify (change : State → State) (state : State) :
    (modify change : Rule Unit) state = .ok () (change state) :=
  rfl

namespace State

/-- The same state with other misses kept in it. -/
def keeping (state : State) (misses : List Miss) : State :=
  { state with misses := misses }

/-- The same place, the same comment queues and the same checkpoints; the misses may differ. -/
def Restores (after before : State) : Prop :=
  after = before.keeping after.misses

private theorem restores_keeping (state : State) (misses : List Miss) :
    (state.keeping misses).Restores state :=
  rfl

end State

/-! ## What every rule keeps -/

/-- What any rule does to a state: the place moves on, comments and misses are added behind those
that are there, and the checkpoints are as before. -/
structure Grows (before after : State) : Prop where
  input : ∃ count, after.input = before.input.advance count
  head : before.comments.head.items <+: after.comments.head.items
  tail : before.comments.tail.items <+: after.comments.tail.items
  checkpoints : after.checkpoints = before.checkpoints
  misses : before.misses <:+ after.misses

namespace Grows

variable {before between after : State}

private theorem refl (state : State) : Grows state state :=
  ⟨⟨0, rfl⟩, List.prefix_rfl, List.prefix_rfl, rfl, List.suffix_rfl⟩

private theorem trans (first : Grows before between) (second : Grows between after) :
    Grows before after := by
  obtain ⟨count, input⟩ := first.input
  obtain ⟨more, input'⟩ := second.input
  refine ⟨⟨count + more, ?_⟩, first.head.trans second.head, first.tail.trans second.tail,
    second.checkpoints.trans first.checkpoints, first.misses.trans second.misses⟩
  rw [input', input, Source.Input.advance_advance]

private theorem of_keeping {misses : List Miss} (added : before.misses <:+ misses) :
    Grows before (before.keeping misses) :=
  ⟨⟨0, rfl⟩, List.prefix_rfl, List.prefix_rfl, rfl, added⟩

/-- Going back from a state reached over a checkpoint restores the state of the checkpoint. -/
theorem rollback (grown : Grows before.checkpoint after) :
    after.rollback = before.checkpoint.keeping after.misses := by
  have stack : after.checkpoints = before.checkpoint.checkpoints := grown.checkpoints
  have queues : after.comments.reset before.comments.mark = before.comments :=
    Comment.Queues.reset_mark_of_extends grown.head grown.tail
  cases after with
  | mk input comments checkpoints misses =>
      simp only at stack queues
      subst stack
      simp only [State.rollback, State.checkpoint, State.keeping, queues]

/-- A checkpoint that is given up without going back leaves no trace. -/
theorem commit (grown : Grows before.checkpoint after) : Grows before after.commit := by
  refine ⟨grown.input, grown.head, grown.tail, ?_, grown.misses⟩
  simp [State.commit, grown.checkpoints, State.checkpoint]

end Grows

/-- A rule that keeps what every rule keeps, from any state on. -/
def Growing (rule : Rule Value) : Prop :=
  ∀ state, Grows state (ending (rule state))

/-- Going back after a rule has missed over a checkpoint leaves nothing of it but its misses. -/
theorem Growing.rollback_eq {rule : Rule Value} (growing : Growing rule) {state missed : State}
    {misses : List Miss} {miss : Miss}
    (result : rule (state.checkpoint.keeping misses) = .error miss missed) :
    missed.rollback = state.checkpoint.keeping missed.misses := by
  have grown : Grows (state.keeping misses).checkpoint (ending (rule (state.checkpoint.keeping
      misses))) := growing _
  rw [result] at grown
  exact grown.rollback

/-- An optional part is read over a checkpoint that is given up; after a miss only the misses are
new. -/
theorem attempt_eq {rule : Rule Value} (growing : Growing rule) (state : State) :
    attempt rule state =
      match rule state.checkpoint with
      | .ok value read => .ok (some value) read.commit
      | .error _ missed => .ok none (state.keeping missed.misses) := by
  simp only [attempt, run_bind, run_modify, probe]
  cases result : rule state.checkpoint with
  | ok value read => rfl
  | error miss missed =>
      have back : missed.rollback = state.checkpoint.keeping missed.misses :=
        growing.rollback_eq result
      simp only [Option.isNone_none, ↓reduceIte, run_bind, run_modify, back]
      rfl

/-- What comes of trying rules one after the other over a checkpoint, given the misses kept so far:
the value of the first that matches and the state after it, or the misses of them all. -/
def tryEach (state : State) : List Miss → List (Rule Value) → (Value × State) ⊕ List Miss
  | misses, [] => .inr misses
  | misses, rule :: others =>
    match rule (state.checkpoint.keeping misses) with
    | .ok value read => .inl (value, read.commit)
    | .error _ missed => tryEach state missed.misses others

private theorem firstMatch_eq {rules : List (Rule Value)} (growing : ∀ rule ∈ rules, Growing rule)
    (state : State) (misses : List Miss) :
    (firstMatch rules >>= fun found => do
        modify State.commit
        return found) (state.checkpoint.keeping misses) =
      match tryEach state misses rules with
      | .inl (value, read) => .ok (some value) read
      | .inr missed => .ok none (state.keeping missed) := by
  induction rules generalizing misses with
  | nil => rfl
  | cons rule others ih =>
      obtain ⟨first, others⟩ := List.forall_mem_cons.mp growing
      simp only [firstMatch, run_bind, probe, tryEach]
      cases result : rule (state.checkpoint.keeping misses) with
      | ok value read => rfl
      | error miss missed =>
          simp only [run_bind, run_modify, first.rollback_eq result]
          have later := ih others missed.misses
          simp only [run_bind] at later
          exact later

/-- Ordered choice tries its rules one after the other from the same state. -/
theorem choice_eq {rules : List (Rule Value)} (growing : ∀ rule ∈ rules, Growing rule)
    (what : Expectation) (state : State) :
    choice what rules state =
      match tryEach state state.misses rules with
      | .inl (value, read) => .ok value read
      | .inr missed => expected what (state.keeping missed) := by
  have first := firstMatch_eq growing state state.misses
  simp only [run_bind] at first
  have checkpointed : state.checkpoint.keeping state.misses = state.checkpoint := rfl
  rw [checkpointed] at first
  simp only [choice, run_bind, run_modify]
  cases found : firstMatch rules state.checkpoint with
  | error miss missed =>
      rw [found] at first
      cases tried : tryEach state state.misses rules <;> simp [tried] at first
  | ok value read =>
      simp only [found, run_modify] at first ⊢
      cases tried : tryEach state state.misses rules with
      | inl result =>
          simp only [tried, run_pure, EStateM.Result.ok.injEq] at first
          obtain ⟨rfl, same⟩ := first
          simp only [same, run_pure]
      | inr missed =>
          simp only [tried, run_pure, EStateM.Result.ok.injEq] at first
          obtain ⟨rfl, same⟩ := first
          simp only [same]

/-- Trying rules one after the other keeps what they keep. -/
theorem tryEach_grows {rules : List (Rule Value)} (growing : ∀ rule ∈ rules, Growing rule)
    {state : State} {misses : List Miss} (added : state.misses <:+ misses) :
    match tryEach state misses rules with
    | .inl (_, read) => Grows state read
    | .inr missed => state.misses <:+ missed := by
  induction rules generalizing misses with
  | nil => exact added
  | cons rule others ih =>
      have grown := growing rule (by simp) (state.checkpoint.keeping misses)
      simp only [tryEach]
      cases result : rule (state.checkpoint.keeping misses) with
      | ok value read =>
          rw [result] at grown
          have grown : Grows (state.keeping misses).checkpoint read := grown
          exact (Grows.of_keeping added).trans grown.commit
      | error miss missed =>
          rw [result] at grown
          exact ih (fun rule member => growing rule (by simp [member])) (added.trans grown.misses)

namespace Growing

private theorem bind {rule : Rule First} {next : First → Rule Second} (growing : Growing rule)
    (later : ∀ value, Growing (next value)) : Growing (rule >>= next) := by
  intro state
  have grown := growing state
  rw [run_bind]
  cases result : rule state with
  | ok value read =>
      rw [result] at grown
      exact grown.trans (later value read)
  | error miss missed =>
      rw [result] at grown
      exact grown

private theorem attempt {rule : Rule Value} (growing : Growing rule) : Growing (attempt rule) := by
  intro state
  have grown := growing state.checkpoint
  rw [attempt_eq growing]
  cases result : rule state.checkpoint with
  | ok value read =>
      rw [result] at grown
      exact grown.commit
  | error miss missed =>
      rw [result] at grown
      exact .of_keeping grown.misses

private theorem choice {rules : List (Rule Value)} (what : Expectation)
    (growing : ∀ rule ∈ rules, Growing rule) : Growing (choice what rules) := by
  intro state
  have grown := tryEach_grows growing (List.suffix_rfl : state.misses <:+ state.misses)
  rw [choice_eq growing]
  cases tried : tryEach state state.misses rules with
  | inl result =>
      rw [tried] at grown
      exact grown
  | inr missed =>
      rw [tried] at grown
      exact .of_keeping (grown.trans (List.suffix_cons _ _))

/-- A repetition only adds to the queues if what it repeats does. -/
theorem many {rule : Rule Value} (growing : Growing rule) : Growing (many rule) := by
  intro state
  fun_induction Parser.many rule state with
  | case1 state miss missed result =>
      have grown := growing.attempt state
      rwa [result] at grown
  | case2 state next result =>
      have grown := growing.attempt state
      rwa [result] at grown
  | case3 state value next result shorter values last later ih =>
      have grown := growing.attempt state
      rw [result] at grown
      rw [later] at ih
      exact grown.trans ih
  | case4 state value next result shorter miss last later ih =>
      have grown := growing.attempt state
      rw [result] at grown
      rw [later] at ih
      exact grown.trans ih
  | case5 state value next result longer =>
      have grown := growing.attempt state
      rwa [result] at grown

end Growing

/-- Every rule made of steps and combinators keeps what every rule keeps. -/
theorem Formed.growing {rule : Rule Value} (formed : Formed rule) : Growing rule := by
  induction formed with
  | pure value => exact fun state => .refl state
  | bind _ _ first later => exact first.bind later
  | look _ _ ih => exact fun state => ih state.input.rest state
  | advance count =>
      exact fun state => ⟨⟨count, rfl⟩, List.prefix_rfl, List.prefix_rfl, rfl, List.suffix_rfl⟩
  | skip =>
      exact fun state => ⟨⟨_, rfl⟩, List.prefix_append _ _, List.prefix_append _ _, rfl,
        List.suffix_rfl⟩
  | missFor reason =>
      exact fun state => ⟨⟨0, rfl⟩, List.prefix_rfl, List.prefix_rfl, rfl, List.suffix_cons _ _⟩
  | drainHead =>
      refine fun state => ⟨⟨0, rfl⟩, ?_, List.prefix_rfl, rfl, List.suffix_rfl⟩
      exact (Comment.Queue.items_drain state.comments.head).symm ▸ List.prefix_rfl
  | drainTail =>
      refine fun state => ⟨⟨0, rfl⟩, List.prefix_rfl, ?_, rfl, List.suffix_rfl⟩
      exact (Comment.Queue.items_drain state.comments.tail).symm ▸ List.prefix_rfl
  | discardHead =>
      exact fun state => ⟨⟨0, rfl⟩, List.prefix_rfl, List.prefix_rfl, rfl, List.suffix_rfl⟩
  | @probe _ rule _ ih =>
      intro state
      have grown := ih state
      unfold Parser.probe
      cases result : rule state <;> rwa [result] at grown
  | choice what _ ih => exact .choice what ih
  | attempt _ ih => exact ih.attempt
  | many _ ih => exact ih.many

/-- Each form of a declaration only adds to the queues. -/
theorem growing_declarationForms (duplicates : DuplicateIds) :
    ∀ form ∈ declarationForms duplicates, Growing form :=
  fun form member => (Formed.declarationForms duplicates form member).growing

/-! ## Every return is exact -/

/-- A rule applied again and again from a state on. It ends after the last application that
matched: when the next one misses, in that very state, or when the last one has read nothing. -/
inductive Repetition (rule : Rule Value) : State → List Value → State → Prop
  | missed {before after missed : State} {miss : Miss} :
      rule before.checkpoint = .error miss missed → after.Restores before →
      Repetition rule before [] after
  | idle {before read : State} {value : Value} : rule before.checkpoint = .ok value read →
      before.input.rest.length ≤ read.input.rest.length →
      Repetition rule before [value] read.commit
  | item {before read after : State} {value : Value} {values : List Value} :
      rule before.checkpoint = .ok value read →
      read.input.rest.length < before.input.rest.length →
      Repetition rule read.commit values after → Repetition rule before (value :: values) after

private theorem attempt_none {rule : Rule Value} (growing : Growing rule) {before after : State}
    (missed : attempt rule before = .ok none after) :
    (∃ miss failed, rule before.checkpoint = .error miss failed) ∧ after.Restores before := by
  rw [attempt_eq growing] at missed
  cases result : rule before.checkpoint with
  | ok value read => simp [result] at missed
  | error miss failed =>
      simp only [result, EStateM.Result.ok.injEq, true_and] at missed
      exact ⟨⟨miss, failed, rfl⟩, missed ▸ before.restores_keeping _⟩

/-- What a successful attempt returns is what its rule read behind a checkpoint, which is then taken
off. -/
theorem attempt_some {rule : Rule Value} (growing : Growing rule) {before after : State}
    {value : Value} (matched : attempt rule before = .ok (some value) after) :
    ∃ read, rule before.checkpoint = .ok value read ∧ after = read.commit := by
  rw [attempt_eq growing] at matched
  cases result : rule before.checkpoint with
  | ok found read =>
      simp only [result, EStateM.Result.ok.injEq, Option.some.injEq] at matched
      obtain ⟨rfl, same⟩ := matched
      exact ⟨read, rfl, same.symm⟩
  | error miss failed => simp [result] at matched

/-- An optional part never fails. -/
theorem attempt_ne_error {rule : Rule Value} (growing : Growing rule) (before : State) (miss : Miss)
    (missed : State) : attempt rule before ≠ .error miss missed := by
  rw [attempt_eq growing]
  cases rule before.checkpoint <;> simp

/-- A repetition never misses; it is a run of matches followed by one miss that is rolled back. -/
theorem many_repeats {rule : Rule Value} (growing : Growing rule) (before : State) :
    ∃ values after, many rule before = .ok values after ∧
      Repetition rule before values after := by
  fun_induction many rule before with
  | case1 before miss missed result => exact absurd result (attempt_ne_error growing _ _ _)
  | case2 before next result =>
      obtain ⟨⟨miss, failed, ended⟩, restored⟩ := attempt_none growing result
      exact ⟨[], next, rfl, .missed ended restored⟩
  | case3 before value next result shorter values last later ih =>
      obtain ⟨read, matched, rfl⟩ := attempt_some growing result
      obtain ⟨values', last', same, repeated⟩ := ih
      rw [later] at same
      obtain ⟨rfl, rfl⟩ := EStateM.Result.ok.inj same
      exact ⟨_, _, rfl, .item matched shorter repeated⟩
  | case4 before value next result shorter miss last later ih =>
      obtain ⟨values', last', same, -⟩ := ih
      rw [later] at same
      cases same
  | case5 before value next result longer =>
      obtain ⟨read, matched, rfl⟩ := attempt_some growing result
      exact ⟨_, _, rfl, .idle matched (Nat.le_of_not_lt longer)⟩

/-- Where every alternative misses, the state before the choice is restored. -/
theorem choice_error {rules : List (Rule Value)} (growing : ∀ rule ∈ rules, Growing rule)
    {what : Expectation} {before after : State} {miss : Miss}
    (missed : choice what rules before = .error miss after) : after.Restores before := by
  rw [choice_eq growing] at missed
  cases tried : tryEach before before.misses rules with
  | inl result => simp [tried] at missed
  | inr failed =>
      simp only [tried, expected, missFor, EStateM.Result.error.injEq] at missed
      exact missed.2 ▸ before.restores_keeping _

/-- What a choice reads is read by one of its rules. -/
theorem choice_ok {rules : List (Rule Value)} (growing : ∀ rule ∈ rules, Growing rule)
    {what : Expectation} {before after : State} {value : Value}
    (matched : choice what rules before = .ok value after) :
    ∃ rule ∈ rules, ∃ misses read,
      rule (before.checkpoint.keeping misses) = .ok value read ∧ after = read.commit := by
  rw [choice_eq growing] at matched
  have each : ∀ misses, tryEach before misses rules = .inl (value, after) →
      ∃ rule ∈ rules, ∃ misses read,
        rule (before.checkpoint.keeping misses) = .ok value read ∧ after = read.commit := by
    clear growing matched
    induction rules with
    | nil => simp [tryEach]
    | cons rule others ih =>
        intro misses tried
        rw [tryEach] at tried
        cases result : rule (before.checkpoint.keeping misses) with
        | ok found read =>
            simp only [result, Sum.inl.injEq, Prod.mk.injEq] at tried
            obtain ⟨rfl, rfl⟩ := tried
            exact ⟨rule, by simp, misses, read, result, rfl⟩
        | error miss missed =>
            simp only [result] at tried
            obtain ⟨rule, member, found⟩ := ih missed.misses tried
            exact ⟨rule, by simp [member], found⟩
  cases tried : tryEach before before.misses rules with
  | inl result =>
      simp only [tried, EStateM.Result.ok.injEq] at matched
      obtain ⟨rfl, rfl⟩ := matched
      exact each _ tried
  | inr failed => simp [tried, expected, missFor] at matched

/-! ## Between two declarations -/

/-- A rule after whose match no comment for the item just read is left waiting. -/
def DrainsTail (rule : Rule Value) : Prop :=
  ∀ before value after, rule before = .ok value after → after.comments.tail.pending = []

namespace DrainsTail

private theorem bind {rule : Rule First} {next : First → Rule Second}
    (drains : ∀ value, DrainsTail (next value)) : DrainsTail (rule >>= next) := by
  intro before value after matched
  rw [run_bind] at matched
  cases result : rule before with
  | ok found read =>
      rw [result] at matched
      exact drains found _ _ _ matched
  | error miss missed => simp [result] at matched

private theorem last (make : Option String → Value) :
    DrainsTail (drainTail >>= fun tail => pure (make tail)) := by
  intro before value after matched
  have same : after = ending (drainTail before) := by
    cases matched
    rfl
  rw [same]
  exact Comment.Queue.pending_drain before.comments.tail

private theorem choice {rules : List (Rule Value)} (what : Expectation)
    (growing : ∀ rule ∈ rules, Growing rule) (drains : ∀ rule ∈ rules, DrainsTail rule) :
    DrainsTail (choice what rules) := by
  intro before value after matched
  obtain ⟨rule, member, misses, read, found, rfl⟩ := choice_ok growing matched
  have drained : read.comments.tail.pending = [] := drains rule member _ _ _ found
  exact drained

private theorem declaration (duplicates : DuplicateIds) : DrainsTail (declaration duplicates) := by
  refine .choice _ (growing_declarationForms duplicates) ?_
  refine forall_declarationForms ?_ ?_ ?_ ?_ ?_ (fun _ => ?_) ?_
  -- Each form begins with at least four steps and ends by draining the comments behind it.
  all_goals iterate 4 refine bind fun _ => ?_
  all_goals repeat first | exact last _ | refine bind fun _ => ?_

end DrainsTail

/-- The states in which the reading of a source text comes to a new declaration or to the end. -/
inductive TopLevel (options : Options) (source : String) : State → Prop
  | start : TopLevel options source (skipByteOrderMark (State.ofString source)).skipLeading
  | next {state after : State} {declared : Declaration} : TopLevel options source state →
      state.input.atEnd = false →
      declaration options.duplicates (state.keeping []) = .ok declared after →
      TopLevel options source after

/-- At the top level no checkpoint is open and no comment waits for the item just read. -/
theorem TopLevel.settled {options : Options} {source : String} {state : State}
    (reached : TopLevel options source state) :
    state.checkpoints = [] ∧ state.comments.tail.pending = [] := by
  induction reached with
  | start =>
      unfold skipByteOrderMark
      split <;> exact ⟨rfl, rfl⟩
  | @next state after declared _ _ matched ih =>
      have grown := (Formed.declaration options.duplicates).growing (state.keeping [])
      rw [matched] at grown
      exact ⟨grown.checkpoints.trans ih.1, DrainsTail.declaration _ _ _ _ matched⟩

/-- **Every return is exact.** Whatever state a rule is applied in: an optional part and a choice
that miss end in the very place, with the very comment queues and checkpoints, in which they began;
a repetition ends right after its last item; and no rule, matching or missing, leaves a checkpoint
behind. So no checkpoint is in force between two declarations, and no comment waits there for the
declaration just read. -/
theorem rollback_exact (options : Options) (source : String) :
    (∀ {Value : Type} (production : Production Value), Formed production.rule) ∧
    (∀ {Value : Type} (rule : Rule Value), Formed rule → ∀ before : State,
      (∀ after, attempt rule before = .ok none after → after.Restores before) ∧
      (∃ values after, many rule before = .ok values after ∧
        Repetition rule before values after) ∧
      (ending (rule before)).checkpoints = before.checkpoints) ∧
    (∀ {Value : Type} (what : Expectation) (rules : List (Rule Value)),
      (∀ rule ∈ rules, Formed rule) → ∀ before miss after,
        choice what rules before = .error miss after → after.Restores before) ∧
    ∀ state, TopLevel options source state →
      state.checkpoints = [] ∧ state.comments.tail.pending = [] := by
  refine ⟨fun production => production.formed, ?_, ?_, fun state reached => reached.settled⟩
  · intro Value rule formed before
    have growing := formed.growing
    exact ⟨fun after missed => (attempt_none growing missed).2, many_repeats growing before,
      (growing before).checkpoints⟩
  · intro Value what rules formed before miss after missed
    exact choice_error (fun rule member => (formed rule member).growing) missed

/-- A number without a colon is no field number, and a declaration with a comment behind it is
followed by a place at which nothing is left over. -/
theorem rollback_exact_number_alone :
    ∃ after state, attempt fieldId (.ofString "5 x // y") = .ok none after ∧
      after.Restores (.ofString "5 x // y") ∧ TopLevel {} "enum E { A } // e\n!" state ∧
      state.input.rest = ['!'] ∧ state.checkpoints = [] ∧ state.comments.tail.pending = [] := by
  have exactness := rollback_exact {} "enum E { A } // e\n!"
  let start := (skipByteOrderMark (State.ofString "enum E { A } // e\n!")).skipLeading
  have noId : (attempt fieldId).run' (.ofString "5 x // y") = some none := by decide +kernel
  have oneEnum : ((declaration .reject).run' (start.keeping [])).isSome = true := by decide +kernel
  have left : (ending (declaration .reject (start.keeping []))).input.rest = ['!'] := by
    decide +kernel
  delta EStateM.run' EStateM.run at noId oneEnum
  cases missed : attempt fieldId (.ofString "5 x // y") with
  | error miss after =>
      rw [missed] at noId
      cases noId
  | ok value after =>
      rw [missed] at noId
      obtain rfl : value = none := Option.some.inj noId
      cases matched : declaration .reject (start.keeping []) with
      | error miss state =>
          rw [matched] at oneEnum
          cases oneEnum
      | ok declared state =>
          rw [matched] at left
          have reached : TopLevel {} "enum E { A } // e\n!" state :=
            .next .start (by decide +kernel) matched
          exact ⟨after, state, rfl, (exactness.2.1 _ .fieldId _).1 _ missed, reached, left,
            exactness.2.2.2 state reached⟩

end Parser
end ThriftIdl
