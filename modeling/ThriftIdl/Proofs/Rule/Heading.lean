import ThriftIdl.Proofs.Rule.View

/-!
# The comments before a declaration

Every form of a declaration begins by taking the comments that wait for it, and does nothing else
with them than to keep them in the declaration. So the comments that wait make no difference to
whether a declaration can be read, to what else is in it, and to the misses (`declaration_aligned`).
-/

namespace ThriftIdl

/-- A declaration with other comments before it. -/
def Declaration.withHead (head : Option String) : Declaration → Declaration
  | scope declared => .scope { declared with comments := { declared.comments with head } }
  | inclusion declared => .inclusion { declared with comments := { declared.comments with head } }
  | typedef declared => .typedef { declared with comments := { declared.comments with head } }
  | constant declared => .constant { declared with comments := { declared.comments with head } }
  | enumeration declared =>
    .enumeration { declared with comments := { declared.comments with head } }
  | record kind declared =>
    .record kind { declared with comments := { declared.comments with head } }
  | service declared => .service { declared with comments := { declared.comments with head } }

namespace Declaration

/-- Of two comments put before a declaration, the later one stays. -/
@[simp] theorem withHead_withHead (first second : Option String) (declared : Declaration) :
    (declared.withHead first).withHead second = declared.withHead second := by
  cases declared <;> rfl

/-- The comment put before a declaration is the one it has. -/
@[simp] theorem head_withHead (head : Option String) (declared : Declaration) :
    (declared.withHead head).comments.head = head := by
  cases declared <;> rfl

/-- A declaration has the comments that it has. -/
@[simp] theorem withHead_self (declared : Declaration) :
    declared.withHead declared.comments.head = declared := by
  cases declared <;> rfl

end Declaration

namespace Parser

variable {Value First : Type}

/-! ## Forms that keep what they are given -/

/-- A rule for declarations that does nothing with given comments but keep them in what it reads. -/
def Keeps (rule : Option String → Rule Declaration) : Prop :=
  ∀ head, rule head = Declaration.withHead head <$> rule none

namespace Keeps

private theorem pure {make : Option String → Declaration}
    (same : ∀ head, make head = (make none).withHead head) :
    Keeps fun head => Pure.pure (make head) := by
  intro head
  show Pure.pure (make head) = Declaration.withHead head <$> Pure.pure (make none)
  rw [same head, map_pure]

private theorem bind {rule : Rule First} {next : Option String → First → Rule Declaration}
    (later : ∀ value, Keeps fun head => next head value) :
    Keeps fun head => rule >>= next head := by
  intro head
  have same : next head = fun value => Declaration.withHead head <$> next none value :=
    funext fun value => later value head
  show (rule >>= next head) = Declaration.withHead head <$> (rule >>= next none)
  rw [same, map_bind]

end Keeps

/-- A rule that takes the waiting comments and then does nothing with them but keep them. -/
def Headed (rule : Rule Declaration) : Prop :=
  ∃ next, rule = (drainHead >>= next) ∧ Keeps next

private theorem headed_forms (duplicates : DuplicateIds) :
    ∀ rule ∈ declarationForms duplicates, Headed rule := by
  refine forall_declarationForms ?scope ?inclusion ?typedef ?constant ?enumeration
    (fun kind => ?record) ?service
  case scope | inclusion | typedef =>
    exact ⟨_, rfl, .bind fun _ => .bind fun _ => .bind fun _ => .bind fun _ => .bind fun _ =>
      .pure fun _ => rfl⟩
  case constant =>
    exact ⟨_, rfl, .bind fun _ => .bind fun _ => .bind fun _ => .bind fun _ => .bind fun _ =>
      .bind fun _ => .bind fun _ => .pure fun _ => rfl⟩
  case enumeration | record =>
    exact ⟨_, rfl, .bind fun _ => .bind fun _ => .bind fun _ => .bind fun _ => .bind fun _ =>
      .bind fun _ => .pure fun _ => rfl⟩
  case service =>
    exact ⟨_, rfl, .bind fun _ => .bind fun _ => .bind fun _ => .bind fun _ => .bind fun _ =>
      .bind fun _ => .bind fun _ => .bind fun _ => .bind fun _ => .pure fun _ => rfl⟩

/-! ## Two states that differ in what waits -/

/-- Two states that are alike but for the comments that wait for the next item. -/
structure Aligned (shift : Nat) (older older' : List Miss) (state other : State) : Prop where
  rest : state.input.rest = other.input.rest
  tail : state.comments.tail.pending = other.comments.tail.pending
  sound : state.Sound
  sound' : other.Sound
  offset : state.input.cursor.offset = other.input.cursor.offset + shift
  misses : ∃ kept : List Miss,
    state.misses = kept.map (Miss.moved shift) ++ older ∧ other.misses = kept ++ older'

namespace Aligned

variable {shift : Nat} {older older' : List Miss} {state other : State}

/-- A checkpoint with some more misses leaves two states aligned. -/
theorem checkpoint (aligned : Aligned shift older older' state other) (kept : List Miss) :
    Aligned shift older older' (state.checkpoint.keeping (kept.map (Miss.moved shift) ++ older))
      (other.checkpoint.keeping (kept ++ older')) :=
  ⟨aligned.rest, aligned.tail, aligned.sound.checkpoint.keeping _,
    aligned.sound'.checkpoint.keeping _, aligned.offset, kept, rfl, rfl⟩

/-- When the waiting comments are taken, the states are alike. -/
theorem drainHead (aligned : Aligned shift older older' state other) :
    ∃ read read', Parser.drainHead state = .ok (Comment.Queue.together state.view.head) read ∧
      Parser.drainHead other = .ok (Comment.Queue.together other.view.head) read' ∧
      Alike shift older older' read read' ∧ read.view.head = [] := by
  obtain ⟨drained, emptied, sound⟩ := state.comments.head.drain_eq
  obtain ⟨drained', emptied', sound'⟩ := other.comments.head.drain_eq
  refine ⟨ending (Parser.drainHead state), ending (Parser.drainHead other), ?_, ?_, ?_, emptied⟩
  · exact congrArg (EStateM.Result.ok · _) drained
  · exact congrArg (EStateM.Result.ok · _) drained'
  · refine ⟨?_, ⟨sound aligned.sound.head, aligned.sound.tail⟩,
      ⟨sound' aligned.sound'.head, aligned.sound'.tail⟩, aligned.offset, aligned.misses⟩
    exact View.mk.injEq .. ▸ ⟨aligned.rest, emptied.trans emptied'.symm, aligned.tail⟩

/-- Two aligned states miss alike. -/
theorem missFor (aligned : Aligned shift older older' state other) (kept : List Miss)
    (reason : Reason) :
    ∃ miss missed missed', (Parser.missFor reason
        (state.keeping (kept.map (Miss.moved shift) ++ older)) : EStateM.Result _ _ Value) =
        .error (miss.moved shift) missed ∧
      (Parser.missFor reason (other.keeping (kept ++ older')) : EStateM.Result _ _ Value) =
        .error miss missed' ∧
      Aligned shift older older' missed missed' := by
  have same : state.missFor reason = (other.missFor reason).moved shift :=
    State.missFor_moved aligned.rest aligned.offset reason
  refine ⟨other.missFor reason, _, _, congrArg (EStateM.Result.error · _) same, rfl, aligned.rest,
    aligned.tail, aligned.sound.keeping _, aligned.sound'.keeping _, aligned.offset,
    other.missFor reason :: kept, ?_, rfl⟩
  exact congrArg (· :: _) same

end Aligned

/-- With nothing waiting, taking the waiting comments changes nothing. -/
theorem drainHead_of_nil {state : State} (none : state.view.head = []) :
    drainHead state = .ok .none state := by
  have empty : state.comments.head.isEmpty = true := (Comment.Queue.isEmpty_iff _).mpr none
  have drained : state.comments.head.drain = (.none, state.comments.head) := if_pos empty
  have ran : drainHead state = .ok state.comments.head.drain.1
      { state with comments := { state.comments with head := state.comments.head.drain.2 } } := rfl
  rw [ran, drained]

private theorem run_map (change : First → Value) (rule : Rule First) (state : State) :
    (change <$> rule) state =
      match rule state with
      | .ok value next => .ok (change value) next
      | .error miss next => .error miss next := by
  simp only [Functor.map, EStateM.map]
  cases rule state <;> rfl

/-- From aligned states, a rule that keeps the waiting comments matches on both or misses on both,
and what it reads differs in those comments only. -/
theorem Headed.aligned {rule : Rule Declaration} (headed : Headed rule) (formed : Formed rule)
    {shift : Nat} {older older' : List Miss} {state other : State}
    (aligned : Aligned shift older older' state other) :
    (∃ (bare : Declaration) (read read' : State),
      rule state = .ok (bare.withHead (Comment.Queue.together state.view.head)) read ∧
      rule other = .ok (bare.withHead (Comment.Queue.together other.view.head)) read' ∧
      Alike shift older older' read read') ∨
    ∃ miss missed missed', rule state = .error (miss.moved shift) missed ∧
      rule other = .error miss missed' ∧ Alike shift older older' missed missed' := by
  obtain ⟨next, rfl, keeps⟩ := headed
  obtain ⟨read, read', drained, drained', alike, empty⟩ := aligned.drainHead
  have empty' : read'.view.head = [] := alike.view ▸ empty
  have bare : AlikeResults shift older older' (next none read) (next none read') := by
    have same := formed.transparent alike
    rwa [run_bind, run_bind, drainHead_of_nil empty, drainHead_of_nil empty'] at same
  rw [run_bind, run_bind, drained, drained']
  simp only [keeps (Comment.Queue.together _), run_map]
  cases result : next none read <;> cases result' : next none read' <;> rw [result, result'] at bare
  case ok.ok =>
    cases bare with
    | ok _ after => exact .inl ⟨_, _, _, rfl, rfl, after⟩
  case error.error =>
    cases bare with
    | error _ after => exact .inr ⟨_, _, _, rfl, rfl, after⟩
  case ok.error => cases bare
  case error.ok => cases bare

/-- **The comments before a declaration** make no difference to what else is read. From two states
that are alike but for the waiting comments, either one declaration is read, with the comments that
wait in each state before it, or none is read, and the misses are the same at the distance of the
two states. -/
theorem declaration_aligned (duplicates : DuplicateIds) {shift : Nat} {older older' : List Miss}
    {state other : State} (aligned : Aligned shift older older' state other) :
    (∃ (bare : Declaration) (read read' : State), declaration duplicates state =
        .ok (bare.withHead (Comment.Queue.together state.view.head)) read ∧
      declaration duplicates other =
        .ok (bare.withHead (Comment.Queue.together other.view.head)) read' ∧
      Alike shift older older' read read') ∨
    ∃ miss missed missed', declaration duplicates state = .error (miss.moved shift) missed ∧
      declaration duplicates other = .error miss missed' ∧
      Aligned shift older older' missed missed' := by
  have formed := Formed.declarationForms duplicates
  have growing : ∀ rule ∈ declarationForms duplicates, Growing rule :=
    fun rule member => (formed rule member).growing
  unfold declaration
  simp only [choice_eq growing]
  -- Whatever was recorded by the forms before, one form does the same in both states.
  have each : ∀ rule ∈ declarationForms duplicates, ∀ {misses misses' : List Miss},
      (∃ kept : List Miss, misses = kept.map (Miss.moved shift) ++ older ∧
        misses' = kept ++ older') →
      (∃ value value' next next', rule (state.checkpoint.keeping misses) = .ok value next ∧
        rule (other.checkpoint.keeping misses') = .ok value' next' ∧
        ∃ bare : Declaration, value = bare.withHead (Comment.Queue.together state.view.head) ∧
          value' = bare.withHead (Comment.Queue.together other.view.head) ∧
          Alike shift older older' next.commit next'.commit) ∨
      ∃ miss miss' missed missed', rule (state.checkpoint.keeping misses) = .error miss missed ∧
        rule (other.checkpoint.keeping misses') = .error miss' missed' ∧
        ∃ kept : List Miss, missed.misses = kept.map (Miss.moved shift) ++ older ∧
          missed'.misses = kept ++ older' := by
    rintro rule member _ _ ⟨kept, rfl, rfl⟩
    rcases (headed_forms duplicates rule member).aligned (formed rule member)
      (aligned.checkpoint kept) with
      ⟨bare, read, read', matched, matched', alike⟩ |
      ⟨miss, missed, missed', result, result', alike⟩
    · exact .inl ⟨_, _, read, read', matched, matched', bare, rfl, rfl, alike.commit⟩
    · exact .inr ⟨_, _, missed, missed', result, result', alike.misses⟩
  rcases tryEach_related (fun found found' => ∃ bare : Declaration,
      found.1 = bare.withHead (Comment.Queue.together state.view.head) ∧
      found'.1 = bare.withHead (Comment.Queue.together other.view.head) ∧
      Alike shift older older' found.2 found'.2) each aligned.misses with
    ⟨⟨_, read⟩, ⟨_, read'⟩, tried, tried', bare, rfl, rfl, alike⟩ |
    ⟨_, _, tried, tried', kept, rfl, rfl⟩
  · rw [tried, tried']
    exact .inl ⟨bare, read, read', rfl, rfl, alike⟩
  · rw [tried, tried']
    exact .inr (aligned.missFor kept _)

end Parser
end ThriftIdl
