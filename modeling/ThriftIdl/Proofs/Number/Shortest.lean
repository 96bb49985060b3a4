import Mathlib.Algebra.Order.Ring.Nat
import Mathlib.Tactic.Ring
import ThriftIdl.Number.Shortest

/-!
# The shortest digits tell numbers apart

Every multiple of a power of ten rounds to one number at most, since the intervals that round to
different numbers meet in midpoints only, which round to the even one. Seventeen digits are always
enough to find such a multiple, because there the multiples lie closer than the midpoints. Main
statements: `magnitude_eq_of_roundsHere` and `shortest_spec`.
-/

namespace ThriftIdl.Number.Binary64

variable {number other : Binary64}

/-! ## Midpoints -/

/-- The magnitude of a number by its scale and its significand. -/
theorem magnitude_eq (number : Binary64) :
    number.magnitude = number.scale * 2 ^ 52 + number.significand ∧
      number.significand < 2 ^ 53 ∧ (0 < number.scale → 2 ^ 52 ≤ number.significand) := by
  unfold scale significand
  simp only [Nat.shiftRight_eq_div_pow, Nat.shiftLeft_eq]
  split <;> omega

private theorem significand_pos (nonzero : number.isZero = false) : 0 < number.significand := by
  obtain ⟨same, -, normal⟩ := magnitude_eq number
  have nonzero : number.magnitude ≠ 0 := by simpa [isZero] using nonzero
  rcases Nat.eq_zero_or_pos number.scale with subnormal | scaled
  · rw [subnormal] at same
    omega
  · have bound := normal scaled
    omega

/-- The midpoint below a number is nearer to it above a power of two. -/
theorem lowerMidpoint_eq (number : Binary64) :
    ∃ below, number.lowerMidpoint = below * 2 ^ number.scale ∧
      (number.significand = 2 ^ 52 ∧ 0 < number.scale ∧ below = 4 * number.significand - 1 ∨
        ¬(number.significand = 2 ^ 52 ∧ 0 < number.scale) ∧
          below = 4 * number.significand - 2) := by
  unfold lowerMidpoint
  rw [Nat.shiftLeft_eq, Nat.shiftLeft_eq, Nat.shiftLeft_eq, Nat.one_mul]
  by_cases nearer : number.significand = 2 ^ 52 ∧ 0 < number.scale
  · rw [if_pos nearer]
    exact ⟨_, rfl, .inl ⟨nearer.1, nearer.2, rfl⟩⟩
  · rw [if_neg nearer]
    exact ⟨_, rfl, .inr ⟨nearer, rfl⟩⟩

private theorem upperMidpoint_eq (number : Binary64) :
    number.upperMidpoint = (4 * number.significand + 2) * 2 ^ number.scale :=
  Nat.shiftLeft_eq _ _

private theorem quarters_eq (number : Binary64) :
    number.quarters = 4 * number.significand * 2 ^ number.scale :=
  Nat.shiftLeft_eq _ _

/-- The midpoints above a number lie below those of all greater ones, but for a midpoint between two
neighbours, one of which is odd. -/
theorem upperMidpoint_le_lowerMidpoint (less : number.magnitude < other.magnitude) :
    number.upperMidpoint ≤ other.lowerMidpoint ∧ (number.upperMidpoint < other.lowerMidpoint ∨
      number.significand % 2 = 1 ∨ other.significand % 2 = 1) := by
  obtain ⟨same, bound, normal⟩ := magnitude_eq number
  obtain ⟨same', bound', normal'⟩ := magnitude_eq other
  obtain ⟨below, midpoint, form⟩ := lowerMidpoint_eq other
  rw [upperMidpoint_eq, midpoint]
  generalize number.significand = digits, number.scale = scale at *
  generalize other.significand = digits', other.scale = scale' at *
  have positive : 0 < 2 ^ scale := Nat.two_pow_pos scale
  rcases Nat.lt_trichotomy scale scale' with coarser | rfl | finer
  · -- The other number is at least twice as coarse.
    obtain ⟨more, rfl⟩ := Nat.exists_eq_add_of_lt coarser
    have least : 2 ^ 54 - 1 ≤ below := by omega
    have product : (2 ^ 54 - 1) * 2 ≤ below * 2 ^ (more + 1) :=
      Nat.mul_le_mul least (Nat.le_self_pow (by omega) 2)
    have split : below * 2 ^ (scale + more + 1) = below * 2 ^ (more + 1) * 2 ^ scale := by
      rw [Nat.add_assoc, Nat.add_comm, Nat.pow_add, Nat.mul_assoc]
    rw [split]
    refine ⟨Nat.mul_le_mul_right _ (by omega), ?_⟩
    by_cases greatest : digits = 2 ^ 53 - 1
    · exact .inr (.inl (by omega))
    · exact .inl (Nat.mul_lt_mul_of_pos_right (by omega) positive)
  · have least : 4 * digits + 2 ≤ below := by omega
    refine ⟨Nat.mul_le_mul_right _ least, ?_⟩
    by_cases adjacent : digits' = digits + 1
    · exact .inr (by omega)
    · exact .inl (Nat.mul_lt_mul_of_pos_right (by omega) positive)
  · have bound := normal (by omega)
    omega

/-! ## Rounding -/

/-- What rounds to a number lies between its midpoints, and on none of them if it is odd. -/
theorem le_of_roundsHere {numerator factor : Nat} (rounds : number.roundsHere numerator factor) :
    number.lowerMidpoint * factor ≤ numerator ∧ numerator ≤ number.upperMidpoint * factor ∧
      (number.significand % 2 = 1 →
        number.lowerMidpoint * factor < numerator ∧ numerator < number.upperMidpoint * factor) := by
  unfold roundsHere at rounds
  dsimp only at rounds
  split at rounds
  · next even =>
      simp only [Bool.and_eq_true, decide_eq_true_eq] at rounds
      exact ⟨rounds.1, rounds.2, fun odd => by omega⟩
  · simp only [Bool.and_eq_true, decide_eq_true_eq] at rounds
    exact ⟨rounds.1.le, rounds.2.le, fun _ => rounds⟩

/-- What lies strictly between the midpoints of a number rounds to it. -/
theorem roundsHere_of_lt {numerator factor : Nat}
    (above : number.lowerMidpoint * factor < numerator)
    (below : numerator < number.upperMidpoint * factor) : number.roundsHere numerator factor := by
  unfold roundsHere
  dsimp only
  split
  · simp [above.le, below.le]
  · simp [above, below]

private theorem not_lt_of_roundsHere {numerator factor numerator' factor' : Nat}
    (positive : 0 < factor) (positive' : 0 < factor')
    (rounds : number.roundsHere numerator factor) (rounds' : other.roundsHere numerator' factor')
    (same : numerator * factor' = numerator' * factor) :
    ¬number.magnitude < other.magnitude := by
  intro less
  obtain ⟨-, above, aboveOdd⟩ := le_of_roundsHere rounds
  obtain ⟨below, -, belowOdd⟩ := le_of_roundsHere rounds'
  obtain ⟨meet, apart⟩ := upperMidpoint_le_lowerMidpoint less
  have product : 0 < factor * factor' := Nat.mul_pos positive positive'
  have upper : numerator * factor' ≤ number.upperMidpoint * (factor * factor') := by
    rw [← Nat.mul_assoc]
    exact Nat.mul_le_mul_right factor' above
  have lower : other.lowerMidpoint * (factor * factor') ≤ numerator' * factor := by
    rw [Nat.mul_comm factor, ← Nat.mul_assoc]
    exact Nat.mul_le_mul_right factor below
  have meet : number.upperMidpoint * (factor * factor') ≤
      other.lowerMidpoint * (factor * factor') := Nat.mul_le_mul_right _ meet
  rcases apart with strict | odd | odd
  · have strict := Nat.mul_lt_mul_of_pos_right strict product
    omega
  · have strict := Nat.mul_lt_mul_of_pos_right (aboveOdd odd).2 positive'
    rw [Nat.mul_assoc] at strict
    omega
  · have strict := Nat.mul_lt_mul_of_pos_right (belowOdd odd).1 positive
    rw [Nat.mul_assoc, Nat.mul_comm factor'] at strict
    omega

/-- **A value rounds to one number only.** The values are given as quotients. -/
theorem magnitude_eq_of_roundsHere {numerator factor numerator' factor' : Nat}
    (positive : 0 < factor) (positive' : 0 < factor')
    (rounds : number.roundsHere numerator factor) (rounds' : other.roundsHere numerator' factor')
    (same : numerator * factor' = numerator' * factor) : number.magnitude = other.magnitude := by
  have notLess := not_lt_of_roundsHere positive positive' rounds rounds' same
  have notGreater := not_lt_of_roundsHere positive' positive rounds' rounds same.symm
  omega

/-! ## Seventeen digits -/

/-- Of the numbers with as many digits the least is a power of ten. -/
theorem pow_length_le {value : Nat} (positive : 0 < value) :
    Nat.pow 10 ((decimalDigits value).length - 1) ≤ value := by
  have some : 0 < (decimalDigits value).length := Nat.length_toDigits_pos
  rcases Nat.eq_or_lt_of_le (Nat.succ_le_of_lt some) with one | more
  · rw [← one]
    exact positive
  · by_contra less
    have short : (decimalDigits value).length ≤ (decimalDigits value).length - 1 :=
      (Nat.length_toDigits_le_iff (by decide) (by omega)).mpr (Nat.lt_of_not_le less)
    omega

private theorem quarterDenominator_pos : 0 < quarterDenominator := by
  decide +kernel

/-- The power of ten of the first digit of a number is no greater than the number. -/
theorem leadingExponent_le (nonzero : number.isZero = false) :
    quarterDenominator * Nat.pow 10 number.leadingExponent.toNat ≤
      number.quarters * Nat.pow 10 (-number.leadingExponent).toNat := by
  unfold leadingExponent
  dsimp only
  split
  · next whole =>
      have quotient : 0 < number.quarters / quarterDenominator :=
        Nat.div_pos whole quarterDenominator_pos
      have some : 0 < (decimalDigits (number.quarters / quarterDenominator)).length :=
        Nat.length_toDigits_pos
      have bound := pow_length_le quotient
      generalize (decimalDigits (number.quarters / quarterDenominator)).length = length at *
      have rising : ((length : Int) - 1).toNat = length - 1 := by omega
      have falling : (-((length : Int) - 1)).toNat = 0 := by omega
      rw [rising, falling]
      have product := Nat.mul_le_of_le_div _ _ _ bound
      rw [Nat.mul_comm]
      simpa using product
  · next fraction =>
      cases found : (List.range 324).find? fun zeros =>
          decide (quarterDenominator ≤ number.quarters * Nat.pow 10 (zeros + 1)) with
      | some zeros =>
          have enough := List.find?_some found
          simpa using enough
      | none =>
          have short := List.find?_eq_none.mp found 323 (by simp)
          -- The search is long enough even for the smallest number.
          have least : 4 ≤ number.quarters := by
            rw [quarters_eq]
            have positive := Nat.mul_pos (significand_pos nonzero) (Nat.two_pow_pos number.scale)
            rw [Nat.mul_assoc]
            omega
          have enough : quarterDenominator ≤ 4 * Nat.pow 10 (323 + 1) := by decide +kernel
          generalize Nat.pow 10 (323 + 1) = power at enough short
          exact absurd (decide_eq_true (enough.trans (Nat.mul_le_mul_right power least))) short

/-- Seventeen digits are closer than the midpoints of a number. -/
theorem quarters_lt (nonzero : number.isZero = false) :
    number.quarters < 10 ^ 16 * (number.upperMidpoint - number.lowerMidpoint) := by
  obtain ⟨-, bound, -⟩ := magnitude_eq number
  obtain ⟨below, midpoint, form⟩ := lowerMidpoint_eq number
  have some := significand_pos nonzero
  rw [quarters_eq, upperMidpoint_eq, midpoint, ← Nat.sub_mul, ← Nat.mul_assoc]
  exact Nat.mul_lt_mul_of_pos_right (by omega) (Nat.two_pow_pos _)

/-- A number lies between its midpoints. -/
theorem between_midpoints (nonzero : number.isZero = false) :
    number.lowerMidpoint < number.quarters ∧ number.quarters < number.upperMidpoint := by
  obtain ⟨below, midpoint, form⟩ := lowerMidpoint_eq number
  have some := significand_pos nonzero
  have positive : 0 < 2 ^ number.scale := Nat.two_pow_pos _
  rw [quarters_eq, upperMidpoint_eq, midpoint]
  exact ⟨Nat.mul_lt_mul_of_pos_right (by omega) positive,
    Nat.mul_lt_mul_of_pos_right (by omega) positive⟩

/-- On a grid that is as fine as seventeen digits, one of the two neighbours of a number rounds to
it. -/
theorem roundsHere_neighbour (nonzero : number.isZero = false) {unit fine : Nat}
    (positive : 0 < unit) (positive' : 0 < fine) (close : unit * 10 ^ 16 ≤ number.quarters * fine) :
    number.roundsHere (number.quarters * fine / unit * unit) fine ∨
      number.roundsHere ((number.quarters * fine / unit + 1) * unit) fine := by
  obtain ⟨above, below⟩ := between_midpoints nonzero
  have above := Nat.mul_lt_mul_of_pos_right above positive'
  have below := Nat.mul_lt_mul_of_pos_right below positive'
  have floor := Nat.div_mul_le_self (number.quarters * fine) unit
  have ceiling := Nat.lt_div_mul_add (a := number.quarters * fine) positive
  generalize number.quarters * fine / unit = multiple at *
  rw [Nat.add_mul, Nat.one_mul]
  by_contra neither
  rw [not_or] at neither
  have low : multiple * unit ≤ number.lowerMidpoint * fine := by
    by_contra inside
    exact neither.1 (roundsHere_of_lt (by omega) (by omega))
  have high : number.upperMidpoint * fine ≤ multiple * unit + unit := by
    by_contra inside
    exact neither.2 (roundsHere_of_lt (by omega) (by omega))
  -- The midpoints are further apart than the multiples.
  have apart : (number.upperMidpoint - number.lowerMidpoint) * fine ≤ unit := by
    rw [Nat.sub_mul]
    omega
  have less := Nat.mul_lt_mul_of_pos_right (quarters_lt nonzero) positive'
  rw [Nat.mul_assoc] at less
  omega

/-- A grid of multiples has one that rounds to the number if seventeen digits reach down to it. -/
theorem exists_onGrid? (midway : Midway) (nonzero : number.isZero = false) {power : Int}
    (close : quarterDenominator * Nat.pow 10 power.toNat * 10 ^ 16 ≤
      number.quarters * Nat.pow 10 (-power).toNat) :
    ∃ multiple, number.onGrid? midway power = some multiple := by
  have positive : 0 < quarterDenominator * Nat.pow 10 power.toNat :=
    Nat.mul_pos quarterDenominator_pos (Nat.pow_pos (by decide))
  have positive' : 0 < Nat.pow 10 (-power).toNat := Nat.pow_pos (by decide)
  have neighbour := roundsHere_neighbour nonzero positive positive' close
  unfold onGrid?
  dsimp only
  split
  · exact ⟨_, rfl⟩
  · exact ⟨_, rfl⟩
  · next here there =>
      rw [here, there] at neighbour
      simp at neighbour
  · split
    · exact ⟨_, rfl⟩
    · split
      · exact ⟨_, rfl⟩
      · cases midway <;> exact ⟨_, rfl⟩

/-- What is found on a grid rounds to the number. -/
theorem roundsHere_of_onGrid? {midway : Midway} {power : Int} {multiple : Nat}
    (found : number.onGrid? midway power = some multiple) :
    number.roundsHere (multiple * (quarterDenominator * Nat.pow 10 power.toNat))
      (Nat.pow 10 (-power).toNat) := by
  unfold onGrid? at found
  dsimp only at found
  split at found
  · next here _ => cases found; exact here
  · next _ here => cases found; exact here
  · cases found
  · next here there =>
      split at found
      · cases found; exact here
      split at found
      · cases found; exact there
      split at found
      · cases found
        rcases Nat.mod_two_eq_zero_or_one
          (number.quarters * Nat.pow 10 (-power).toNat /
            (quarterDenominator * Nat.pow 10 power.toNat)) with even | odd
        · rw [even]
          exact here
        · rw [odd]
          exact there
      · cases found; exact there

/-- Seventeen digits reach down to the grid that is sixteen places below the first digit. -/
theorem close_of_leadingExponent (nonzero : number.isZero = false) :
    quarterDenominator * Nat.pow 10 (number.leadingExponent - 16).toNat * 10 ^ 16 ≤
      number.quarters * Nat.pow 10 (-(number.leadingExponent - 16)).toNat := by
  have bound := leadingExponent_le nonzero
  generalize number.leadingExponent = leading at *
  have positive : 0 < Nat.pow 10 (-leading).toNat := Nat.pow_pos (by decide)
  have exponents : (leading - 16).toNat + 16 + (-leading).toNat =
      leading.toNat + (-(leading - 16)).toNat := by omega
  have powers : Nat.pow 10 (leading - 16).toNat * 10 ^ 16 * Nat.pow 10 (-leading).toNat =
      Nat.pow 10 leading.toNat * Nat.pow 10 (-(leading - 16)).toNat := by
    simp only [Nat.pow_eq, ← Nat.pow_add, exponents]
  refine Nat.le_of_mul_le_mul_right ?_ positive
  calc quarterDenominator * Nat.pow 10 (leading - 16).toNat * 10 ^ 16 * Nat.pow 10 (-leading).toNat
      = quarterDenominator * Nat.pow 10 leading.toNat * Nat.pow 10 (-(leading - 16)).toNat := by
        rw [Nat.mul_assoc quarterDenominator, Nat.mul_assoc quarterDenominator, powers,
          Nat.mul_assoc]
    _ ≤ number.quarters * Nat.pow 10 (-leading).toNat * Nat.pow 10 (-(leading - 16)).toNat :=
        Nat.mul_le_mul_right _ bound
    _ = number.quarters * Nat.pow 10 (-(leading - 16)).toNat * Nat.pow 10 (-leading).toNat := by
        rw [Nat.mul_right_comm]

/-- **The shortest digits** of a number other than zero are those of a multiple of a power of ten
that rounds to it. -/
theorem shortest_spec (midway : Midway) (nonzero : number.isZero = false) :
    ∃ multiple power, 0 < multiple ∧
      number.shortest midway = Scientific.ofMultiple multiple power ∧
      number.roundsHere (multiple * (quarterDenominator * Nat.pow 10 power.toNat))
        (Nat.pow 10 (-power).toNat) := by
  unfold shortest
  dsimp only
  cases candidate : (List.range 17).findSome? fun (finer : Nat) =>
      (number.onGrid? midway (number.leadingExponent - finer)).map fun multiple =>
        Scientific.ofMultiple multiple (number.leadingExponent - finer) with
  | none =>
      -- Seventeen digits always suffice, so the search does not fail.
      obtain ⟨multiple, found⟩ := exists_onGrid? midway nonzero (close_of_leadingExponent nonzero)
      have none := List.findSome?_eq_none_iff.mp candidate 16 (by simp)
      have missed : number.onGrid? midway (number.leadingExponent - 16) = .none := by
        simpa using none
      rw [missed] at found
      cases found
  | some scientific =>
      obtain ⟨finer, -, found⟩ := List.exists_of_findSome?_eq_some candidate
      obtain ⟨multiple, here, rfl⟩ := Option.map_eq_some_iff.mp found
      have rounds := roundsHere_of_onGrid? here
      refine ⟨multiple, number.leadingExponent - finer, ?_, rfl, rounds⟩
      refine Nat.pos_of_ne_zero fun zero => ?_
      obtain ⟨above, -, -⟩ := le_of_roundsHere rounds
      obtain ⟨below, midpoint, form⟩ := lowerMidpoint_eq number
      have some := significand_pos nonzero
      have positive :
          0 < number.lowerMidpoint * Nat.pow 10 (-(number.leadingExponent - finer)).toNat := by
        rw [midpoint]
        exact Nat.mul_pos (Nat.mul_pos (by omega) (Nat.two_pow_pos _)) (Nat.pow_pos (by decide))
      rw [zero, Nat.zero_mul] at above
      omega

end ThriftIdl.Number.Binary64
