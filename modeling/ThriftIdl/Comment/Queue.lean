/-!
# Comments that wait for their item

Comments are read before it is known which item they belong to. A queue keeps all comments ever
pushed and a front: what lies before the front is spent, the rest is pending. A mark remembers the
front and the length, which is enough to come back from any number of later pushes and drains. Main
statement: `Queue.reset_mark_of_extends`.
-/

namespace ThriftIdl.Comment

/-- A comment in slash form: a number sign at its start becomes two slashes. -/
def slashed (comment : String) : String :=
  match comment.toList with
  | '#' :: rest => String.ofList ('/' :: '/' :: rest)
  | _ => comment

/-- Several comments as one text, a line break of both kinds between them. -/
def join (comments : List String) : String :=
  "\r\n".intercalate comments

/-- Two comment texts, either of which may be missing, as one. -/
def append? : Option String → Option String → Option String
  | some first, some second => some (join [first, second])
  | some first, none => some first
  | none, second => second

/-- The comments of one kind, spent and pending. -/
structure Queue where
  /-- All comments pushed so far, in order. -/
  items : List String := []
  /-- How many of them are spent. -/
  front : Nat := 0
deriving DecidableEq

/-- A remembered state of a queue. -/
structure Mark where
  /-- The front at that time. -/
  front : Nat
  /-- The number of comments at that time. -/
  length : Nat
deriving DecidableEq

namespace Queue

/-- The comments that are not spent. -/
def pending (queue : Queue) : List String :=
  queue.items.drop queue.front

/-- Whether nothing is pending. The front may lie past the end after a return to an old mark. -/
def isEmpty (queue : Queue) : Bool :=
  queue.items.length ≤ queue.front

/-- Add a comment at the end. -/
def push (queue : Queue) (comment : String) : Queue :=
  { queue with items := queue.items ++ [comment] }

/-- Add several comments at the end. -/
def pushAll (queue : Queue) (comments : List String) : Queue :=
  { queue with items := queue.items ++ comments }

/-- Spend everything that is pending without looking at it. -/
def discard (queue : Queue) : Queue :=
  { queue with front := queue.items.length }

/-- Spend everything that is pending and return it in slash form as one text, or nothing when
nothing was pending. -/
def drain (queue : Queue) : Option String × Queue :=
  if queue.isEmpty then (none, queue)
  else (some (join (queue.pending.map slashed)), queue.discard)

/-- Remember the state of a queue. -/
def mark (queue : Queue) : Mark where
  front := queue.front
  length := queue.items.length

/-- Go back to a remembered state: comments pushed since are dropped, the front is as it was. -/
def reset (queue : Queue) (mark : Mark) : Queue where
  items := queue.items.take mark.length
  front := mark.front

@[simp] theorem pushAll_nil (queue : Queue) : queue.pushAll [] = queue := by
  simp [pushAll]

/-- Several comments are pushed one by one. -/
theorem pushAll_cons (queue : Queue) (comment : String) (rest : List String) :
    queue.pushAll (comment :: rest) = (queue.push comment).pushAll rest := by
  simp [pushAll, push]

/-- Nothing is pending exactly when the queue says so. -/
theorem isEmpty_iff (queue : Queue) : queue.isEmpty = true ↔ queue.pending = [] := by
  simp [isEmpty, pending, List.drop_eq_nil_iff]

/-- A queue whose comments begin with those of an earlier state goes back to that state. -/
theorem reset_mark_of_extends {earlier later : Queue}
    (extended : earlier.items <+: later.items) : later.reset earlier.mark = earlier := by
  obtain ⟨added, joined⟩ := extended
  cases earlier with
  | mk items front =>
    simp only [reset, mark, Queue.mk.injEq, and_true]
    rw [← joined]
    exact List.take_left' rfl

end Queue

/-- The two queues of a reading: comments that stand before an item, and comments that follow an
item on its line. -/
structure Queues where
  /-- Comments for the next item. -/
  head : Queue := {}
  /-- Comments for the item just read. -/
  tail : Queue := {}
deriving DecidableEq

/-- A remembered state of both queues. -/
structure Marks where
  /-- The state of the queue of comments before an item. -/
  head : Mark
  /-- The state of the queue of comments after an item. -/
  tail : Mark
deriving DecidableEq

namespace Queues

/-- Remember the state of both queues. -/
def mark (queues : Queues) : Marks where
  head := queues.head.mark
  tail := queues.tail.mark

/-- Go back to a remembered state of both queues. -/
def reset (queues : Queues) (marks : Marks) : Queues where
  head := queues.head.reset marks.head
  tail := queues.tail.reset marks.tail

end Queues

end ThriftIdl.Comment
