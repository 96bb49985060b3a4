import ThriftIdl.Proofs.Rule.View

/-!
# Marks of the comment queues

A mark is two numbers, and comments may be pushed, spent, dropped and pushed again before a queue
goes back to it. That brings back the very queue that was marked as long as the queue goes back to
no older mark in between: its comments are then still the first of the list (`Queue.Begins`), and
every mark taken since counts them all. Without returns, the portions that a queue spends and what
is still pending are the comments that were pushed. Even a queue that has gone back to marks out of
order, with its front past the end of its list, is drained without reaching past that end. Main
statement: `snapshots_exact`.
-/

namespace ThriftIdl.Comment

/-! ## Sequences of actions -/

/-- What may be done to a queue. A return says which mark it goes back to. -/
inductive Action
  | push (comment : String)
  | drain
  | discard
  | remember
  | goBack (mark : Mark)

namespace Action

/-- Whether an action goes back to a mark. -/
def isReturn : Action → Bool
  | goBack _ => true
  | _ => false

/-- The comment that an action pushes. -/
def pushed? : Action → Option String
  | push comment => some comment
  | _ => none

/-- Whether an action goes back to no mark but the given ones. -/
def ReturnsTo (taken : List Mark) : Action → Prop
  | goBack mark => mark ∈ taken
  | _ => True

instance (taken : List Mark) : (action : Action) → Decidable (action.ReturnsTo taken)
  | goBack mark => inferInstanceAs (Decidable (mark ∈ taken))
  | push _ | drain | discard | remember => .isTrue trivial

end Action

/-- Comments that a queue spends at once. -/
inductive Portion
  | drained (comments : List String)
  | discarded (comments : List String)

namespace Portion

/-- The comments of a portion. -/
def comments : Portion → List String
  | drained comments => comments
  | discarded comments => comments

/-- The comments of a portion that is returned as a text. -/
def drained? : Portion → Option (List String)
  | drained comments => some comments
  | discarded _ => none

end Portion

namespace Queue

/-- The queue after an action. -/
def act (queue : Queue) : Action → Queue
  | .push comment => queue.push comment
  | .drain => queue.drain.2
  | .discard => queue.discard
  | .remember => queue
  | .goBack mark => queue.reset mark

/-- The queue after several actions. -/
def run (queue : Queue) (actions : List Action) : Queue :=
  actions.foldl act queue

/-- The marks that are known after an action, the latest first. -/
def marksAfter (queue : Queue) (taken : List Mark) : Action → List Mark
  | .remember => queue.mark :: taken
  | _ => taken

/-- Whether a queue goes back only to marks that are given or taken on the way. -/
def ReturnsWithin : Queue → List Mark → List Action → Prop
  | _, _, [] => True
  | queue, taken, action :: later =>
    action.ReturnsTo taken ∧ (queue.act action).ReturnsWithin (queue.marksAfter taken action) later

instance decidableReturnsWithin : (queue : Queue) → (taken : List Mark) → (actions : List Action) →
    Decidable (queue.ReturnsWithin taken actions)
  | _, _, [] => .isTrue trivial
  | queue, taken, action :: later =>
    have := decidableReturnsWithin (queue.act action) (queue.marksAfter taken action) later
    inferInstanceAs (Decidable (_ ∧ _))

/-- What a queue spends when something is done to it. -/
def spent? (queue : Queue) : Action → Option Portion
  | .drain => some (.drained queue.pending)
  | .discard => some (.discarded queue.pending)
  | _ => none

/-- What a queue spends, portion by portion. -/
def spent : Queue → List Action → List Portion
  | _, [] => []
  | queue, action :: later => (queue.spent? action).toList ++ (queue.act action).spent later

/-- What a queue returns when something is done to it: a text, or nothing if nothing was pending. -/
def returned? (queue : Queue) : Action → Option (Option String)
  | .drain => some queue.drain.1
  | _ => none

/-- What a queue returns, drain by drain. -/
def returned : Queue → List Action → List (Option String)
  | _, [] => []
  | queue, action :: later => (queue.returned? action).toList ++ (queue.act action).returned later

/-! ## Going back -/

/-- A queue begins with the comments of an earlier state, and marks count at least those. -/
structure Begins (earlier queue : Queue) (taken : List Mark) : Prop where
  items : earlier.items <+: queue.items
  counted : ∀ mark ∈ taken, earlier.items.length ≤ mark.length

/-- No action takes away comments that every mark counts. -/
theorem Begins.act {earlier queue : Queue} {taken : List Mark} (begins : Begins earlier queue taken)
    {action : Action} (allowed : action.ReturnsTo taken) :
    Begins earlier (queue.act action) (queue.marksAfter taken action) := by
  obtain ⟨items, counted⟩ := begins
  cases action with
  | push comment => exact ⟨items.trans (List.prefix_append _ _), counted⟩
  | drain =>
      refine ⟨?_, counted⟩
      rw [Queue.act, items_drain]
      exact items
  | discard => exact ⟨items, counted⟩
  | remember => exact ⟨items, List.forall_mem_cons.mpr ⟨items.length_le, counted⟩⟩
  | goBack mark => exact ⟨List.prefix_take_iff.mpr ⟨items, counted mark allowed⟩, counted⟩

private theorem Begins.run {earlier queue : Queue} {taken : List Mark}
    (begins : Begins earlier queue taken)
    {actions : List Action} (within : queue.ReturnsWithin taken actions) :
    earlier.items <+: (queue.run actions).items := by
  induction actions generalizing queue taken with
  | nil => exact begins.items
  | cons action later ih => exact ih (begins.act within.1) within.2

/-- **Going back to a mark** undoes all that was done since it was taken. -/
theorem reset_run {queue : Queue} {actions : List Action}
    (within : queue.ReturnsWithin [queue.mark] actions) :
    (queue.run actions).reset queue.mark = queue := by
  have begins : Begins queue queue [queue.mark] :=
    ⟨List.prefix_rfl, List.forall_mem_singleton.mpr (Nat.le_refl _)⟩
  exact reset_mark_of_extends (begins.run within)

/-! ## What becomes of the comments -/

/-- A drain returns what it spends in one text. -/
theorem returned_eq (queue : Queue) (actions : List Action) :
    queue.returned actions = ((queue.spent actions).filterMap Portion.drained?).map together := by
  induction actions generalizing queue with
  | nil => rfl
  | cons action later ih =>
      have here : (queue.returned? action).toList =
          ((queue.spent? action).toList.filterMap Portion.drained?).map together := by
        cases action with
        | drain => exact congrArg List.singleton (drain_eq queue).1
        | push | discard | remember | goBack => rfl
      rw [returned, spent, List.filterMap_append, List.map_append, here, ih]

/-- Without going back, a queue keeps its front within its list. -/
theorem Sound.act {queue : Queue} (sound : queue.Sound) {action : Action}
    (forward : action.isReturn = false) : (queue.act action).Sound := by
  cases action with
  | push comment => exact sound.pushAll [comment]
  | drain => exact (drain_eq queue).2.2 sound
  | discard => exact sound_discard queue
  | remember => exact sound
  | goBack mark => cases forward

/-- What is spent by an action and what is pending after it are what was pending before it and what
it pushes. -/
theorem Sound.spent?_append {queue : Queue} (sound : queue.Sound) {action : Action}
    (forward : action.isReturn = false) :
    (queue.spent? action).toList.flatMap Portion.comments ++ (queue.act action).pending =
      queue.pending ++ action.pushed?.toList := by
  cases action with
  | push comment => exact sound.pending_pushAll [comment]
  | drain => simp [spent?, Portion.comments, Action.pushed?, Queue.act, pending_drain]
  | discard => simp [spent?, Portion.comments, Action.pushed?, Queue.act, pending_discard]
  | remember => simp [spent?, Action.pushed?, Queue.act]
  | goBack mark => cases forward

/-- **No comment is lost and none comes twice**: what is spent and what is pending at the end are,
in order, what was pending at the beginning and what was pushed. -/
theorem Sound.spent_append {queue : Queue} (sound : queue.Sound) {actions : List Action}
    (forward : ∀ action ∈ actions, action.isReturn = false) :
    (queue.spent actions).flatMap Portion.comments ++ (queue.run actions).pending =
      queue.pending ++ actions.filterMap Action.pushed? := by
  induction actions generalizing queue with
  | nil => exact (List.append_nil _).symm
  | cons action later ih =>
      obtain ⟨here, there⟩ := List.forall_mem_cons.mp forward
      have pushed : (action :: later).filterMap Action.pushed? =
          action.pushed?.toList ++ later.filterMap Action.pushed? := by
        cases action <;> rfl
      calc (queue.spent (action :: later)).flatMap Portion.comments ++
            (queue.run (action :: later)).pending
          = (queue.spent? action).toList.flatMap Portion.comments ++
              (((queue.act action).spent later).flatMap Portion.comments ++
                ((queue.act action).run later).pending) := by
            rw [spent, List.flatMap_append, List.append_assoc, run, List.foldl_cons, run]
        _ = (queue.spent? action).toList.flatMap Portion.comments ++
              ((queue.act action).pending ++ later.filterMap Action.pushed?) := by
            rw [ih (sound.act here) there]
        _ = queue.pending ++ (action.pushed?.toList ++ later.filterMap Action.pushed?) := by
            rw [← List.append_assoc, sound.spent?_append here, List.append_assoc]
        _ = queue.pending ++ (action :: later).filterMap Action.pushed? := by rw [pushed]

/-! ## Ranges of a list -/

/-- The comments from the front on, as a range that has to lie within the list. -/
def range? (queue : Queue) : Option (List String) :=
  if queue.front ≤ queue.items.length then some (queue.items.drop queue.front) else none

/-- Draining that fails where the range to be drained does not lie within the list. -/
def drainWithin? (queue : Queue) : Option (Option String × Queue) :=
  if queue.isEmpty then some (none, queue)
  else queue.range?.map fun comments => (some (join (comments.map slashed)), queue.discard)

/-- The queue after several actions, unless a drain reaches past the end of its list. -/
def runWithin? : Queue → List Action → Option Queue
  | queue, [] => some queue
  | queue, .drain :: later => queue.drainWithin?.bind fun drained => drained.2.runWithin? later
  | queue, action :: later => (queue.act action).runWithin? later

/-- A queue looks for pending comments before it drains them, so the range lies within its list. -/
theorem drainWithin?_eq (queue : Queue) : queue.drainWithin? = some queue.drain := by
  unfold drainWithin? drain
  split
  · rfl
  · next waiting =>
      have inside : queue.front ≤ queue.items.length := by
        have apart : ¬queue.items.length ≤ queue.front := by simpa [isEmpty] using waiting
        omega
      rw [range?, if_pos inside]
      rfl

private theorem runWithin?_eq (queue : Queue) (actions : List Action) :
    queue.runWithin? actions = some (queue.run actions) := by
  induction actions generalizing queue with
  | nil => rfl
  | cons action later ih =>
      cases action with
      | drain =>
          rw [runWithin?, drainWithin?_eq, Option.bind_some, ih]
          rfl
      | push | discard | remember | goBack => exact ih _

/-- Going back to an older mark and then to a younger one leaves the front past the end of the
list; it is then not within the list, but nothing is drained. -/
example : (({} : Queue).run
    [.push "// a", .discard, .goBack ⟨0, 0⟩, .goBack ⟨1, 1⟩]).range? = none ∧
    ((({} : Queue).run
      [.push "// a", .discard, .goBack ⟨0, 0⟩, .goBack ⟨1, 1⟩]).drain).1 = none := by
  decide

end Queue

/-! ## Both queues -/

/-- One of the two queues. -/
inductive Side
  | head
  | tail
deriving DecidableEq

/-- What may be done to both queues: something to one of them, or a mark or a return of the pair. -/
inductive PairAction
  | one (side : Side) (action : Action)
  | remember
  | goBack (marks : Marks)

/-- The mark of one of the two queues. -/
def Marks.of (marks : Marks) : Side → Mark
  | .head => marks.head
  | .tail => marks.tail

/-- What is done to one of the two queues, if anything is. -/
def PairAction.on? (side : Side) : PairAction → Option Action
  | one other action => if other = side then some action else none
  | remember => some .remember
  | goBack marks => some (.goBack (marks.of side))

namespace Queues

/-- One of the two queues. -/
def of (queues : Queues) : Side → Queue
  | .head => queues.head
  | .tail => queues.tail

/-- The queues after an action. -/
def act (queues : Queues) : PairAction → Queues
  | .one .head action => { queues with head := queues.head.act action }
  | .one .tail action => { queues with tail := queues.tail.act action }
  | .remember => queues
  | .goBack marks => queues.reset marks

/-- The queues after several actions. -/
def run (queues : Queues) (actions : List PairAction) : Queues :=
  actions.foldl act queues

private theorem ext_of {first second : Queues} (same : ∀ side, first.of side = second.of side) :
    first = second := by
  cases first
  cases second
  rw [mk.injEq]
  exact ⟨same .head, same .tail⟩

private theorem of_act (queues : Queues) (action : PairAction) (side : Side) :
    (queues.act action).of side = (queues.of side).run (action.on? side).toList := by
  cases action with
  | one other action => cases other <;> cases side <;> rfl
  | remember => cases side <;> rfl
  | goBack marks => cases side <;> rfl

/-- Each of the two queues is what it would be alone. -/
theorem of_run (queues : Queues) (actions : List PairAction) (side : Side) :
    (queues.run actions).of side =
      (queues.of side).run (actions.filterMap fun action => action.on? side) := by
  induction actions generalizing queues with
  | nil => rfl
  | cons action later ih =>
      have split : (action :: later).filterMap (fun action => action.on? side) =
          (action.on? side).toList ++ later.filterMap fun action => action.on? side := by
        rw [List.filterMap_cons]
        cases action.on? side <;> rfl
      rw [split, Queue.run, List.foldl_append]
      exact (ih (queues.act action)).trans (congrArg (Queue.run · _) (of_act queues action side))

private theorem of_reset (queues : Queues) (marks : Marks) (side : Side) :
    (queues.reset marks).of side = (queues.of side).reset (marks.of side) := by
  cases side <;> rfl

private theorem of_mark (queues : Queues) (side : Side) :
    queues.mark.of side = (queues.of side).mark := by
  cases side <;> rfl

/-- **Going back to a mark of both queues** undoes all that was done to either since it was
taken. -/
theorem reset_run {queues : Queues} {actions : List PairAction}
    (within : ∀ side, (queues.of side).ReturnsWithin [(queues.of side).mark]
      (actions.filterMap fun action => action.on? side)) :
    (queues.run actions).reset queues.mark = queues := by
  refine ext_of fun side => ?_
  rw [of_reset, of_mark, of_run]
  exact Queue.reset_run (within side)

end Queues

/-! ## All together -/

/-- **Marks of comment queues are exact.** From any queue on, whatever is pushed, drained and
discarded and whichever marks are taken and gone back to, as long as none of them is older: going
back to the mark of that queue brings it back with its comments and its front. The same holds of
both queues together, each of which is what it would be alone. As long as a queue does not go back,
every drain returns one portion of its comments in slash form, and the portions drained and
discarded and what is pending at the end are in order the comments that were pending and those
pushed. And whatever marks a queue goes back to, no drain reaches past the end of its list. -/
theorem snapshots_exact :
    (∀ (queue : Queue) (actions : List Action), queue.ReturnsWithin [queue.mark] actions →
      (queue.run actions).reset queue.mark = queue) ∧
    (∀ (queues : Queues) (actions : List PairAction),
      (∀ side, (queues.of side).ReturnsWithin [(queues.of side).mark]
        (actions.filterMap fun action => action.on? side)) →
      (queues.run actions).reset queues.mark = queues) ∧
    (∀ (queues : Queues) (actions : List PairAction) (side : Side),
      (queues.run actions).of side =
        (queues.of side).run (actions.filterMap fun action => action.on? side)) ∧
    (∀ (queue : Queue) (actions : List Action), queue.Sound →
      (∀ action ∈ actions, action.isReturn = false) →
      queue.returned actions =
        ((queue.spent actions).filterMap Portion.drained?).map Queue.together ∧
      (queue.spent actions).flatMap Portion.comments ++ (queue.run actions).pending =
        queue.pending ++ actions.filterMap Action.pushed?) ∧
    ∀ (queue : Queue) (actions : List Action),
      queue.runWithin? actions = some (queue.run actions) := by
  refine ⟨?alone, ?both, Queues.of_run, ?account, Queue.runWithin?_eq⟩
  case alone => exact fun queue actions within => Queue.reset_run within
  case both => exact fun queues actions within => Queues.reset_run within
  case account =>
    exact fun queue actions sound forward =>
      ⟨queue.returned_eq actions, sound.spent_append forward⟩

/-- A mark taken on the way and gone back to, alone and in the pair, and the account of a queue of
which one comment is left. -/
theorem snapshots_exact_nested :
    let queue : Queue := { items := ["# a"] }
    let there : List Action := [.drain, .push "// b", .remember, .push "// c", .discard,
      .goBack ⟨1, 2⟩, .drain]
    let queues : Queues := { head := { items := ["// a"] } }
    let both : List PairAction := [.one .tail (.push "# b"), .remember, .one .head .drain,
      .goBack ⟨⟨0, 1⟩, ⟨0, 1⟩⟩, .one .head .discard]
    let forward : List Action := [.push "# a", .push "// b", .drain, .push "// c", .discard, .drain,
      .push "# d"]
    queue.run there = { items := ["# a", "// b"], front := 2 } ∧
    (queue.run there).reset queue.mark = queue ∧
    (queues.run both).of .head = { items := ["// a"], front := 1 } ∧
    (queues.run both).reset queues.mark = queues ∧
    ({} : Queue).returned forward = [some "// a\r\n// b", none] ∧
    (({} : Queue).spent forward).flatMap Portion.comments ++ (({} : Queue).run forward).pending =
      ["# a", "// b", "// c", "# d"] := by
  intro queue there queues both forward
  obtain ⟨backAlone, backBoth, -, account, -⟩ := snapshots_exact
  obtain ⟨returned, comments⟩ := account {} forward (Nat.le_refl _) (by decide)
  refine ⟨by decide, backAlone queue there (by decide), by decide,
    backBoth queues both fun side => ?_, returned.trans (by decide), comments⟩
  cases side <;> decide

end ThriftIdl.Comment
