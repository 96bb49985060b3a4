/-!
# Places in a source text

A cursor is a byte offset with two tallies of the line breaks before it, one of line feeds and one
of carriage returns. The line is one more than the larger tally, so a pair of both counts once.
Main statement: `Cursor.start_pass` says what the tallies count.
-/

namespace ThriftIdl.Source

/-- A place in a source text. -/
structure Cursor where
  /-- The number of bytes before the place. -/
  offset : Nat := 0
  /-- The number of line feeds before the place. -/
  newlines : Nat := 0
  /-- The number of carriage returns before the place. -/
  returns : Nat := 0
deriving DecidableEq

namespace Cursor

/-- The place before the first character. -/
def start : Cursor := {}

/-- The line of a place, the first line being line one. -/
def line (cursor : Cursor) : Nat :=
  max cursor.newlines cursor.returns + 1

/-- The place after one more character. -/
def step (cursor : Cursor) (char : Char) : Cursor where
  offset := cursor.offset + char.utf8Size
  newlines := if char = '\n' then cursor.newlines + 1 else cursor.newlines
  returns := if char = '\r' then cursor.returns + 1 else cursor.returns

/-- The place after further characters. -/
def pass (cursor : Cursor) (chars : List Char) : Cursor :=
  chars.foldl step cursor

@[simp] theorem pass_nil (cursor : Cursor) : cursor.pass [] = cursor := rfl

@[simp] theorem pass_cons (cursor : Cursor) (char : Char) (rest : List Char) :
    cursor.pass (char :: rest) = (cursor.step char).pass rest := rfl

/-- Passing two texts in turn is passing them as one. -/
theorem pass_append (cursor : Cursor) (front back : List Char) :
    cursor.pass (front ++ back) = (cursor.pass front).pass back :=
  List.foldl_append

/-- Passing a text adds its bytes, its line feeds and its carriage returns. -/
theorem pass_eq (cursor : Cursor) (chars : List Char) :
    cursor.pass chars =
      { offset := cursor.offset + (String.ofList chars).utf8ByteSize
        newlines := cursor.newlines + chars.count '\n'
        returns := cursor.returns + chars.count '\r' } := by
  induction chars generalizing cursor with
  | nil => rfl
  | cons char rest passed =>
    rw [pass_cons, passed, String.ofList_cons, String.utf8ByteSize_append,
      String.utf8ByteSize_singleton]
    simp only [step, List.count_cons, Cursor.mk.injEq]
    refine ⟨by omega, ?_, ?_⟩
    · by_cases feed : char = '\n'
      · simp [feed]
        omega
      · simp [feed]
    · by_cases back : char = '\r'
      · simp [back]
        omega
      · simp [back]

/-- From the start on, a cursor counts the bytes and the line breaks of what lies before it. -/
theorem start_pass (chars : List Char) :
    start.pass chars =
      { offset := (String.ofList chars).utf8ByteSize
        newlines := chars.count '\n'
        returns := chars.count '\r' } := by
  rw [pass_eq]
  simp [start]

end Cursor

end ThriftIdl.Source
