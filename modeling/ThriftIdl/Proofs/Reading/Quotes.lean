import ThriftIdl.Proofs.Text.Escape

/-!
# Quoted texts and their escapes

What the rule for quoted texts takes for the raw text of a string is what the resolution of its
escapes can walk over: both know the same places as unescaped (`Parser.quoted_resolved`).
-/

namespace ThriftIdl.Parser

open Text (Unescaped Encloses)

variable {state : State} {quote : Char} {rest : List Char}

private theorem backslash_ne_of_isQuote (opens : isQuote quote) : '\\' ≠ quote := by
  rintro rfl
  cases opens

/-- The rule for quoted texts at a quote, in terms of the search for the closing one. -/
theorem quoted_eq (escapes : Bool) (text : state.input.rest = quote :: rest)
    (opens : isQuote quote) :
    quoted escapes state = match Text.throughQuote? quote escapes rest with
      | some raw => .ok raw { state with input := state.input.advance (raw.length + 2) }
      | none => expected .closingQuote state := by
  have looked : quoted escapes state = quotedFrom escapes state.input.rest state := rfl
  rw [looked, text, quotedFrom, if_pos opens]
  cases Text.throughQuote? quote escapes rest <;> rfl

/-- Behind a raw text and its two quotes stands what comes after the closing one. -/
theorem rest_advance_of_encloses {input : Source.Input} {raw more : List Char}
    (text : input.rest = quote :: rest) (encloses : Encloses quote rest raw more) :
    (input.advance (raw.length + 2)).rest = more := by
  have passed : quote :: rest = (quote :: (raw ++ [quote])) ++ more := by
    simp [encloses.split]
  have length : raw.length + 2 = (quote :: (raw ++ [quote])).length := by simp
  rw [Source.Input.advance, text, passed, length, List.drop_left]

/-- At a quote, the rule reads up to the first unescaped quote of its kind. -/
theorem quoted_eq_ok_iff (text : state.input.rest = quote :: rest) (opens : isQuote quote)
    {raw : List Char} {next : State} : quoted true state = .ok raw next ↔
      ∃ more, Encloses quote rest raw more ∧
        next = { state with input := state.input.advance (raw.length + 2) } ∧
        next.input.rest = more := by
  have differs := backslash_ne_of_isQuote opens
  rw [quoted_eq true text opens]
  constructor
  · intro read
    cases found : Text.throughQuote? quote true rest with
    | none => simp [found, expected, missFor] at read
    | some inner =>
        simp only [found] at read
        cases read
        obtain ⟨more, encloses⟩ := (Text.throughQuote?_eq_some_iff differs).mp found
        exact ⟨more, encloses, rfl, rest_advance_of_encloses text encloses⟩
  · rintro ⟨more, encloses, rfl, -⟩
    simp only [(Text.throughQuote?_eq_some_iff differs).mpr ⟨more, encloses⟩]

private theorem exists_quoted_iff (text : state.input.rest = quote :: rest)
    (opens : isQuote quote) :
    (∃ raw next, quoted true state = .ok raw next) ↔
      ∃ front back, rest = front ++ quote :: back ∧ Unescaped front := by
  have differs := backslash_ne_of_isQuote opens
  rw [← Text.throughQuote?_ne_none_iff differs, Option.ne_none_iff_exists']
  refine exists_congr fun raw => ?_
  rw [Text.throughQuote?_eq_some_iff differs]
  simp only [quoted_eq_ok_iff text opens]
  constructor
  · rintro ⟨next, more, encloses, -⟩
    exact ⟨more, encloses⟩
  · rintro ⟨more, encloses⟩
    exact ⟨_, more, encloses, rfl, rest_advance_of_encloses text encloses⟩

/-- Reading a quoted text by bytes gives what the rule gives. -/
theorem scanner_quoted?_eq {source : String} (within : state.input.Within source)
    (text : state.input.rest = quote :: rest) (opens : isQuote quote) :
    (state.input.scanner source).quoted? true = match quoted true state with
      | .ok raw next => some (String.ofList raw, next.input.scanner source)
      | .error _ _ => none := by
  rw [within.quoted?_eq true text opens, quoted_eq true text opens]
  cases Text.throughQuote? quote true rest <;> rfl

/-- **Quoted texts and their escapes agree.** At a quote in a source text,

* the rule for quoted texts matches just if some later quote of its kind has an even number of
  backslashes right before it, possibly none, counted back to the opening quote;
* it then takes for the raw text what stands before the first such quote, and stops behind it;
* a scanner that goes over the bytes of the source, two at each backslash, finds the same.

On the raw text,

* resolving the escapes never comes to a backslash with nothing after it;
* it fails just if it comes to a backslash that begins no escape, and that is, if some unescaped
  `x` or `u` is not followed by a group of digits that denotes a character: two characters after
  `x`, and after `u` four of them or one to six bytes in braces;
* otherwise it copies each stretch from the end of an escape to the next backslash as it is, and
  replaces each escape by what it stands for. -/
theorem quoted_resolved {source : String} (within : state.input.Within source)
    (text : state.input.rest = quote :: rest) (opens : isQuote quote) :
    ((∃ raw next, quoted true state = .ok raw next) ↔
      ∃ front back, rest = front ++ quote :: back ∧ Unescaped front) ∧
    (∀ raw next, quoted true state = .ok raw next ↔ ∃ more, Encloses quote rest raw more ∧
      next = { state with input := state.input.advance (raw.length + 2) } ∧
      next.input.rest = more) ∧
    ((state.input.scanner source).quoted? true = match quoted true state with
      | .ok raw next => some (String.ofList raw, next.input.scanner source)
      | .error _ _ => none) ∧
    ∀ raw next, quoted true state = .ok raw next →
      (∀ left, Text.Visits raw left → left ≠ ['\\']) ∧
      (Text.unescape raw = none ↔ ∃ after, Text.Visits raw ('\\' :: after) ∧
        Text.readEscape after = none) ∧
      (Text.unescape raw = none ↔ ∃ before letter after,
        raw = before ++ '\\' :: letter :: after ∧ Unescaped before ∧
          (letter = 'x' ∨ letter = 'u') ∧ ¬Text.HasGroup letter after) ∧
      ∀ resolved, Text.unescape raw = some resolved ↔ Text.Resolves raw resolved := by
  refine ⟨exists_quoted_iff text opens, fun raw next => quoted_eq_ok_iff text opens,
    scanner_quoted?_eq within text opens, fun raw next read => ?_⟩
  obtain ⟨more, encloses, -, -⟩ := (quoted_eq_ok_iff text opens).mp read
  refine ⟨fun left visits => visits.ne_backslash encloses.unescaped,
    Text.unescape_eq_none_iff_visits, Text.unescape_eq_none_iff_hasGroup encloses.unescaped, ?_⟩
  exact fun resolved => Text.unescape_eq_some_iff

/-- A group of digits, an escaped quote, and an escaped backslash before the closing quote. -/
theorem quoted_resolved_mixed :
    ∃ next, quoted true (.ofString (String.ofList
        ['"', '\\', 'x', '4', '1', '\\', '"', 'é', '\\', '\\', '"', ';'])) =
        .ok ['\\', 'x', '4', '1', '\\', '"', 'é', '\\', '\\'] next ∧
      next.input.rest = [';'] ∧
      Text.Resolves ['\\', 'x', '4', '1', '\\', '"', 'é', '\\', '\\'] ['A', '"', 'é', '\\'] := by
  have text : (State.ofString (String.ofList
      ['"', '\\', 'x', '4', '1', '\\', '"', 'é', '\\', '\\', '"', ';'])).input.rest =
        '"' :: ['\\', 'x', '4', '1', '\\', '"', 'é', '\\', '\\', '"', ';'] :=
    String.toList_ofList
  obtain ⟨next, read⟩ : ∃ next, quoted true (.ofString (String.ofList
      ['"', '\\', 'x', '4', '1', '\\', '"', 'é', '\\', '\\', '"', ';'])) =
        .ok ['\\', 'x', '4', '1', '\\', '"', 'é', '\\', '\\'] next :=
    ⟨_, quoted_eq true text rfl⟩
  obtain ⟨-, here, -, resolves⟩ :=
    quoted_resolved (Source.Input.within_ofString _) text rfl
  obtain ⟨more, encloses, -, stands⟩ := (here _ _).mp read
  obtain rfl : [';'] = more := by simpa using encloses.split
  exact ⟨next, read, stands, ((resolves _ _ read).2.2.2 _).mp (by decide +kernel)⟩

end ThriftIdl.Parser
