import ThriftIdl.Source.Cursor

/-!
# A source text being read

An input is what is left of a source text together with the place that reading has reached. It
moves in one way only: over a number of characters.
-/

namespace ThriftIdl.Source

/-- The unread part of a source text and the place where it begins. -/
structure Input where
  /-- The characters that are not read yet. -/
  rest : List Char
  /-- The place of the first of them. -/
  cursor : Cursor := .start
deriving DecidableEq

namespace Input

/-- A source text of which nothing is read yet. -/
def ofString (source : String) : Input where
  rest := source.toList

/-- The input after a number of further characters, or at the end of the text. -/
def advance (input : Input) (count : Nat) : Input where
  rest := input.rest.drop count
  cursor := input.cursor.pass (input.rest.take count)

/-- Whether everything is read. -/
def atEnd (input : Input) : Bool :=
  input.rest.isEmpty

/-- The next character. -/
def peek (input : Input) : Option Char :=
  input.rest.head?

/-- Whether the unread part begins with a text. -/
def startsWith (input : Input) (text : List Char) : Bool :=
  text.isPrefixOf input.rest

/-- The first characters of the unread part. -/
def excerpt (input : Input) (width : Nat) : String :=
  String.ofList (input.rest.take width)

@[simp] theorem advance_zero (input : Input) : input.advance 0 = input := rfl

/-- Two moves in turn are one move over the sum. -/
theorem advance_advance (input : Input) (first second : Nat) :
    (input.advance first).advance second = input.advance (first + second) := by
  simp only [advance, List.drop_drop, Input.mk.injEq, true_and]
  rw [List.take_add, Cursor.pass_append]

/-- A move over a known beginning leaves what follows it. -/
theorem advance_append (front back : List Char) (cursor : Cursor) :
    Input.advance ⟨front ++ back, cursor⟩ front.length = ⟨back, cursor.pass front⟩ := by
  simp [advance]

/-- No move makes the unread part longer. -/
theorem length_advance_le (input : Input) (count : Nat) :
    (input.advance count).rest.length ≤ input.rest.length := by
  simp only [advance, List.length_drop]
  omega

end Input

end ThriftIdl.Source
