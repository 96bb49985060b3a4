/-!
# Sets of characters as runs

A set of characters that holds long runs of neighbours is given by its *boundaries* in increasing
order: the first begins a run, the second is the first point after it, and so on in turn.
-/

namespace ThriftIdl.Text

/-- A character is in the set when an odd number of boundaries lie at or before it. -/
def inRuns (boundaries : List Nat) (char : Char) : Bool :=
  (boundaries.takeWhile (· ≤ char.toNat)).length % 2 == 1

/-- Without boundaries there are no members. -/
theorem inRuns_nil (char : Char) : inRuns [] char = false :=
  rfl

/-- From its first boundary on, a set is the complement of what the later boundaries give. -/
theorem inRuns_cons (first : Nat) (later : List Nat) (char : Char) :
    inRuns (first :: later) char = (decide (first ≤ char.toNat) && !inRuns later char) := by
  by_cases reached : first ≤ char.toNat
  · simp only [inRuns, List.takeWhile_cons, reached, decide_true, ↓reduceIte, List.length_cons,
      Bool.true_and]
    rcases Nat.mod_two_eq_zero_or_one (later.takeWhile (· ≤ char.toNat)).length with even | odd
    · rw [Nat.add_mod, even]
      rfl
    · rw [Nat.add_mod, odd]
      rfl
  · simp [inRuns, reached]

end ThriftIdl.Text
