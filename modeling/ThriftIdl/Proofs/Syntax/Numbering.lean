import Mathlib.Algebra.Order.Ring.Nat
import ThriftIdl.Syntax.Numbering

/-!
# Numbered items

Which values the items of an enumeration have, said item by item and without a running value: the
one that is written, or else one more than the value of the item before, which is zero for the first
item (`Numbered`). There is no such value just for an item that comes directly after one with the
greatest value (`OverflowsAt`). Main statements: `numbered_of_numberItems` and
`numberItems_eq_error_iff`.
-/

namespace ThriftIdl

variable {previous written : Option Int64} {value before : Int64} {name : String}

/-- The value of an item, given the value of the item before it, if there is one, and the value that
is written for it, if there is one. -/
inductive Follows : Option Int64 → Option Int64 → Int64 → Prop
  | written {previous : Option Int64} (value : Int64) : Follows previous (some value) value
  | first {value : Int64} : value.toInt = 0 → Follows none none value
  | next {before value : Int64} : value.toInt = before.toInt + 1 → Follows (some before) none value

/-- The values of items, given the value of the item before them, if there is one, and the values
that are written for them. -/
inductive Numbered : Option Int64 → List (Option Int64) → List Int64 → Prop
  | nil {previous : Option Int64} : Numbered previous [] []
  | cons {previous written : Option Int64} {value : Int64} {others : List (Option Int64)}
      {values : List Int64} : Follows previous written value →
      Numbered (some value) others values → Numbered previous (written :: others) (value :: values)

/-- Among items with the values that are written for them, the first one that there is no value for:
none is written, and the item before it has the greatest value. -/
def OverflowsAt (previous : Option Int64) (items : List (String × Option Int64)) (name : String) :
    Prop :=
  ∃ front back values, items = front ++ (name, none) :: back ∧
    Numbered previous (front.map Prod.snd) values ∧
    values.getLast?.or previous = some Int64.maxValue

/-! ## One item -/

private theorem nextValue?_eq_none_iff : nextValue? before = none ↔ before = Int64.maxValue := by
  simp [nextValue?]

/-- The next greater value is greater by one, without wrapping around. -/
theorem nextValue?_eq_some_iff : nextValue? before = some value ↔
    value.toInt = before.toInt + 1 := by
  have greatest : Int64.maxValue.toInt = 2 ^ 63 - 1 := by decide
  have upper := value.toInt_lt
  by_cases last : before = Int64.maxValue
  · rw [nextValue?, if_pos last, last, greatest]
    constructor
    · intro impossible
      cases impossible
    · intro above
      omega
  · have differs : before.toInt ≠ 2 ^ 63 - 1 := fun same =>
      last (Int64.toInt_inj.mp (same.trans greatest.symm))
    have lower := before.le_toInt
    have below := before.toInt_lt
    have exact : (before + 1).toInt = before.toInt + 1 := by
      rw [Int64.toInt_add, Int64.toInt_one, Int.bmod_eq_of_le (by omega) (by omega)]
    rw [nextValue?, if_neg last, Option.some.injEq, ← Int64.toInt_inj, exact]
    exact eq_comm

/-- The value of an item for which none is written. -/
def nextAfter : Option Int64 → Option Int64
  | none => some 0
  | some before => nextValue? before

private theorem follows_iff :
    Follows previous written value ↔ (written <|> nextAfter previous) = some value := by
  constructor
  · intro follows
    cases follows with
    | written => rfl
    | first zero =>
        have same : 0 = value := Int64.toInt_inj.mp (Int64.toInt_zero.trans zero.symm)
        exact congrArg some same
    | next above => exact nextValue?_eq_some_iff.mpr above
  · intro found
    cases written with
    | some written =>
        obtain rfl : written = value := Option.some.inj found
        exact .written written
    | none =>
        cases previous with
        | none =>
            obtain rfl : 0 = value := Option.some.inj found
            exact .first Int64.toInt_zero
        | some before => exact .next (nextValue?_eq_some_iff.mp found)

private theorem nextAfter_eq_none_iff :
    (written <|> nextAfter previous) = none ↔ written = none ∧ previous = some Int64.maxValue := by
  cases written with
  | some => simp
  | none =>
      cases previous with
      | none => simp [nextAfter]
      | some before =>
          have above : (none <|> nextAfter (some before)) = nextValue? before := rfl
          simp [above, nextValue?_eq_none_iff]

/-! ## All items -/

/-- The first item that there is no value for is the first of all, or else it is the first of those
that come after an item with a value. -/
theorem overflowsAt_cons {other : String} {others : List (String × Option Int64)} :
    OverflowsAt previous ((other, written) :: others) name ↔
      (written = none ∧ previous = some Int64.maxValue ∧ other = name) ∨
        ∃ value, Follows previous written value ∧ OverflowsAt (some value) others name := by
  constructor
  · rintro ⟨front, back, values, whole, numbered, last⟩
    cases front with
    | nil =>
        cases whole
        cases numbered
        exact .inl ⟨rfl, last, rfl⟩
    | cons first front =>
        cases whole
        cases numbered with
        | @cons _ _ value _ values follows numbered =>
            refine .inr ⟨value, follows, front, back, values, rfl, numbered, ?_⟩
            rw [List.getLast?_cons] at last
            cases found : values.getLast? <;> simpa [found] using last
  · rintro (⟨rfl, last, rfl⟩ | ⟨value, follows, front, back, values, rfl, numbered, last⟩)
    · exact ⟨[], others, [], rfl, .nil, last⟩
    · refine ⟨(other, written) :: front, back, value :: values, rfl, .cons follows numbered, ?_⟩
      rw [List.getLast?_cons]
      cases found : values.getLast? <;> simpa [found] using last

private theorem not_overflowsAt_nil : ¬OverflowsAt previous [] name := by
  rintro ⟨front, back, values, whole, -⟩
  cases front <;> cases whole

/-- The name of a written item and the value that is written for it. -/
def WrittenItem.entry (item : WrittenItem) : String × Option Int64 :=
  (item.name, item.value)

/-- **Items are numbered one after the other**: each has the value that is written for it, or else
the value after that of the item before. -/
theorem numbered_of_numberItems {items : List WrittenItem} {numbered : List EnumItem}
    (found : numberItems (nextAfter previous) items = .ok numbered) :
    Numbered previous (items.map WrittenItem.value) (numbered.map EnumItem.value) := by
  induction items generalizing previous numbered with
  | nil =>
      cases found
      exact .nil
  | cons item others ih =>
      unfold numberItems at found
      split at found
      · cases found
      · next value valued =>
          split at found
          · next later numberedLater =>
              cases found
              exact .cons (follows_iff.mpr valued) (ih numberedLater)
          · cases found

/-- Numbering items leaves their names as they are. -/
theorem names_of_numberItems {next : Option Int64} {written : List WrittenItem}
    {items : List EnumItem} (numbered : numberItems next written = .ok items) :
    items.map EnumItem.name = written.map WrittenItem.name := by
  induction written generalizing next items with
  | nil =>
      cases numbered
      rfl
  | cons item rest ih =>
      unfold numberItems at numbered
      split at numbered
      · cases numbered
      · split at numbered
        · next later =>
            cases numbered
            rw [List.map_cons, List.map_cons, ih later]
        · cases numbered

/-- **Numbering fails at the first item that there is no value for.** -/
theorem numberItems_eq_error_iff {items : List WrittenItem} :
    numberItems (nextAfter previous) items = .error name ↔
      OverflowsAt previous (items.map WrittenItem.entry) name := by
  induction items generalizing previous with
  | nil => simp [numberItems, not_overflowsAt_nil]
  | cons item others ih =>
      rw [List.map_cons, WrittenItem.entry, overflowsAt_cons, numberItems]
      simp only [follows_iff]
      cases valued : (item.value <|> nextAfter previous) with
      | none =>
          obtain ⟨unwritten, last⟩ := nextAfter_eq_none_iff.mp valued
          simp [unwritten, last]
      | some value =>
          have covered : ¬(item.value = none ∧ previous = some Int64.maxValue ∧
              item.name = name) := by
            rintro ⟨unwritten, last, -⟩
            rw [nextAfter_eq_none_iff.mpr ⟨unwritten, last⟩] at valued
            cases valued
          have later : numberItems (nextValue? value) others = .error name ↔
              OverflowsAt (some value) (others.map WrittenItem.entry) name := @ih (some value)
          rw [or_iff_right covered]
          simp only [Option.some.injEq, exists_eq_left', ← later]
          cases numberItems (nextValue? value) others <;> simp

end ThriftIdl
