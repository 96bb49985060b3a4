import ThriftIdl.Proofs.Rule.View

/-!
# Rejections and what they leave standing

A rejection is kept as a miss like any other, so an optional part, a repetition or a choice goes on
after it. That no reading comes of it is a matter of the text: where a part has been rejected,
nothing that may come next begins. `Candid` says so of a rule: unless it has recorded no rejection,
it leaves a text of one kind when it matches and was given a text of another kind when it misses.
The combinators keep this as long as what comes next misses on such texts (`Candid.bindStuck`,
`Candid.bindAttempt`, `Candid.many`, `Candid.choice_cons`).
-/

namespace ThriftIdl.Parser

variable {Value First Second : Type}

/-! ## What is recorded between two states -/

/-- Between two states misses are recorded, and those that are rejections are of one kind. -/
def Records (kind : Rejection → Prop) (before after : State) : Prop :=
  ∃ added, after.misses = added ++ before.misses ∧
    ∀ miss ∈ added, ∀ why, miss.reason = .rejected why → kind why

/-- Between two states no rejection is recorded. -/
def Clean (before after : State) : Prop :=
  Records (fun _ => False) before after

namespace Records

variable {kind other : Rejection → Prop} {before between after : State}

private theorem of_misses_eq (same : after.misses = before.misses) : Records kind before after :=
  ⟨[], same, by simp⟩

/-- What is recorded between states is recorded step by step. -/
theorem trans (first : Records kind before between) (second : Records kind between after) :
    Records kind before after := by
  obtain ⟨added, misses, each⟩ := first
  obtain ⟨more, misses', each'⟩ := second
  exact ⟨more ++ added, by rw [misses', misses, List.append_assoc],
    List.forall_mem_append.mpr ⟨each', each⟩⟩

/-- The kind of what is recorded may be said more weakly. -/
theorem mono (records : Records kind before after) (implies : ∀ why, kind why → other why) :
    Records other before after := by
  obtain ⟨added, misses, each⟩ := records
  exact ⟨added, misses, fun miss member why same => implies why (each miss member why same)⟩

/-- What is recorded on the way to a state and what is recorded from there on. -/
theorem split (records : Records kind before after) (first : before.misses <:+ between.misses)
    (second : between.misses <:+ after.misses) :
    Records kind before between ∧ Records kind between after := by
  obtain ⟨added, misses, each⟩ := records
  obtain ⟨early, same⟩ := first
  obtain ⟨late, same'⟩ := second
  have whole : added = late ++ early := by
    apply List.append_cancel_right
    rw [← misses, ← same', ← same, List.append_assoc]
  refine ⟨⟨early, same.symm, fun miss member => ?_⟩, ⟨late, same'.symm, fun miss member => ?_⟩⟩
  · exact each miss (whole ▸ List.mem_append_right late member)
  · exact each miss (whole ▸ List.mem_append_left early member)

end Records

/-- A miss for want of something is no rejection. -/
theorem clean_expected (what : Expectation) (state : State) :
    Clean state (ending (expected what state : EStateM.Result Miss State Value)) := by
  refine ⟨[state.missFor (.expected what)], rfl, ?_⟩
  intro miss member why same
  rw [List.mem_singleton.mp member] at same
  cases same

/-! ## A choice by its first alternative -/

/-- Trying rules forgets the misses of the state it begins in. -/
theorem tryEach_keeping (state : State) (rules : List (Rule Value)) (other misses : List Miss) :
    tryEach (state.keeping other) misses rules = tryEach state misses rules := by
  induction rules generalizing misses with
  | nil => rfl
  | cons rule others ih =>
      have same : (state.keeping other).checkpoint.keeping misses =
          state.checkpoint.keeping misses := rfl
      simp only [tryEach, same, ih]

/-- A choice of nothing misses. -/
theorem choice_nil_eq (what : Expectation) (state : State) :
    choice what ([] : List (Rule Value)) state = expected what state :=
  choice_eq (by simp) what state

/-- A choice is its first alternative or, with the misses of that one kept, the choice of the
others. -/
theorem choice_cons_eq {rule : Rule Value} {others : List (Rule Value)} (what : Expectation)
    (growing : Growing rule) (growingOthers : ∀ other ∈ others, Growing other) (state : State) :
    choice what (rule :: others) state =
      match rule state.checkpoint with
      | .ok value read => .ok value read.commit
      | .error _ missed => choice what others (state.keeping missed.misses) := by
  have start : state.checkpoint.keeping state.misses = state.checkpoint := rfl
  rw [choice_eq (List.forall_mem_cons.mpr ⟨growing, growingOthers⟩), tryEach, start]
  cases rule state.checkpoint with
  | ok value read => rfl
  | error miss missed =>
      have kept : (state.keeping missed.misses).misses = missed.misses := rfl
      simp only [choice_eq growingOthers, tryEach_keeping, kept]
      rfl

/-! ## Rules without rejections -/

/-- A rule that never records a rejection. -/
structure Quiet (rule : Rule Value) : Prop where
  formed : Formed rule
  clean : ∀ before, Clean before (ending (rule before))

namespace Quiet

/-- A rule that records nothing is quiet. -/
theorem of_misses_eq {rule : Rule Value} (formed : Formed rule)
    (same : ∀ before, (ending (rule before)).misses = before.misses) : Quiet rule :=
  ⟨formed, fun before => .of_misses_eq (same before)⟩

/-! Single steps are quiet: they record no miss, or one for want of something. -/

theorem pure (value : Value) : Quiet (pure value) :=
  of_misses_eq (.pure value) fun _ => rfl

theorem expected (what : Expectation) : Quiet (expected what : Rule Value) :=
  ⟨.expected what, clean_expected what⟩

theorem advance (count : Nat) : Quiet (advance count) :=
  of_misses_eq (.advance count) fun _ => rfl

theorem skip : Quiet skip :=
  of_misses_eq .skip fun _ => rfl

theorem drainHead : Quiet drainHead :=
  of_misses_eq .drainHead fun _ => rfl

theorem drainTail : Quiet drainTail :=
  of_misses_eq .drainTail fun _ => rfl

theorem discardHead : Quiet discardHead :=
  of_misses_eq .discardHead fun _ => rfl

theorem peek : Quiet peek :=
  of_misses_eq .peek fun _ => rfl

theorem startsWith (word : List Char) : Quiet (startsWith word) :=
  of_misses_eq (.startsWith word) fun _ => rfl

theorem takeWhile (test : Char → Bool) : Quiet (takeWhile test) :=
  of_misses_eq (.takeWhile test) fun _ => rfl

/-- Sequences of quiet rules are quiet. -/
theorem bind {rule : Rule First} {next : First → Rule Second} (first : Quiet rule)
    (second : ∀ value, Quiet (next value)) : Quiet (rule >>= next) := by
  refine ⟨first.formed.bind fun value => (second value).formed, fun before => ?_⟩
  have clean := first.clean before
  rw [run_bind]
  cases result : rule before with
  | ok value between =>
      rw [result] at clean
      exact clean.trans ((second value).clean between)
  | error miss missed =>
      rw [result] at clean
      exact clean

/-- A quiet rule stays quiet with its value changed. -/
theorem map {rule : Rule First} (change : First → Second) (quiet : Quiet rule) :
    Quiet (change <$> rule) :=
  quiet.bind fun value => .pure (change value)

/-- A rule that depends on a condition is quiet if both cases are. -/
theorem ite {condition : Prop} [Decidable condition] {first second : Rule Value}
    (left : Quiet first) (right : Quiet second) : Quiet (if condition then first else second) := by
  split
  · exact left
  · exact right

/-- A rule that looks at the text is quiet if it is so whatever the text. -/
theorem look (rule : List Char → Rule Value) (each : ∀ text, Quiet (rule text)) :
    Quiet fun state => rule state.input.rest state :=
  ⟨.look rule fun text => (each text).formed, fun before => (each before.input.rest).clean before⟩

/-- A probe of a quiet rule is quiet. -/
theorem probe {rule : Rule Value} (quiet : Quiet rule) : Quiet (probe rule) := by
  refine ⟨quiet.formed.probe, fun before => ?_⟩
  have clean := quiet.clean before
  unfold Parser.probe
  cases result : rule before <;> rwa [result] at clean

/-- Leaving out a quiet rule where it misses is quiet. -/
theorem attempt {rule : Rule Value} (quiet : Quiet rule) : Quiet (attempt rule) := by
  refine ⟨quiet.formed.attempt, fun before => ?_⟩
  have clean := quiet.clean before.checkpoint
  rw [attempt_eq quiet.formed.growing]
  cases result : rule before.checkpoint <;> rw [result] at clean <;> exact clean

/-- A choice of quiet rules is quiet, since each of them starts from the misses of the one
before. -/
theorem choice (what : Expectation) {rules : List (Rule Value)}
    (each : ∀ rule ∈ rules, Quiet rule) : Quiet (choice what rules) := by
  refine ⟨.choice what fun rule member => (each rule member).formed, fun before => ?_⟩
  induction rules generalizing before with
  | nil =>
      rw [choice_nil_eq]
      exact clean_expected what before
  | cons rule others ih =>
      obtain ⟨first, later⟩ := List.forall_mem_cons.mp each
      have clean := first.clean before.checkpoint
      rw [choice_cons_eq what first.formed.growing fun other member =>
        (later other member).formed.growing]
      cases result : rule before.checkpoint with
      | ok value read =>
          rw [result] at clean
          exact clean
      | error miss missed =>
          rw [result] at clean
          have clean : Clean before (before.keeping missed.misses) := clean
          exact clean.trans (ih later _)

end Quiet

/-! ## Rules that show what they have rejected -/

/-- A text of no kind. -/
def Nowhere (_text : List Char) : Prop :=
  False

/-- A text of any kind. -/
def Everywhere (_text : List Char) : Prop :=
  True

/-- A rule that records a rejection only if it leaves a text of one kind, when it matches, or was
given a text of another kind, when it misses. -/
structure Candid (rule : Rule Value) (left given : List Char → Prop) : Prop where
  formed : Formed rule
  ok : ∀ {before after : State} {value : Value}, before.Sound → rule before = .ok value after →
    Clean before after ∨ left after.input.rest
  error : ∀ {before after : State} {miss : Miss}, before.Sound → rule before = .error miss after →
    Clean before after ∨ given before.input.rest

/-- A quiet rule has nothing to show. -/
theorem Quiet.candid {rule : Rule Value} {left given : List Char → Prop} (quiet : Quiet rule) :
    Candid rule left given := by
  refine ⟨quiet.formed, fun {before _ _} _ result => ?_, fun {before _ _} _ result => ?_⟩
  · have clean := quiet.clean before
    rw [result] at clean
    exact .inl clean
  · have clean := quiet.clean before
    rw [result] at clean
    exact .inl clean

namespace Candid

variable {left left' given given' : List Char → Prop}

/-- What is known where a rule rejects, or of what it leaves, may be said more weakly. -/
theorem mono {rule : Rule Value} (candid : Candid rule left given)
    (leaves : ∀ text, left text → left' text) (gives : ∀ text, given text → given' text) :
    Candid rule left' given' :=
  ⟨candid.formed, fun sound result => (candid.ok sound result).imp_right (leaves _),
    fun sound result => (candid.error sound result).imp_right (gives _)⟩

/-- A rule that looks at the text is candid if it is so whatever the text. -/
theorem look (rule : List Char → Rule Value) (each : ∀ text, Candid (rule text) left given) :
    Candid (fun state => rule state.input.rest state) left given :=
  ⟨.look rule fun text => (each text).formed, fun sound result => (each _).ok sound result,
    fun sound result => (each _).error sound result⟩

/-- A rejection as such is given the text it is about. -/
theorem rejected (why : Rejection) : Candid (rejected why : Rule Value) left Everywhere :=
  ⟨.rejected why, (fun _ result => nomatch result), fun _ _ => .inr trivial⟩

/-- **Sequences.** The second part shows what it has rejected by the text that it is given, and the
text that the whole is given is known because the first part has read something of it. -/
theorem bind {rule : Rule First} {next : First → Rule Second} {opened : First → List Char → Prop}
    (first : Candid rule Nowhere given) (second : ∀ value, Candid (next value) left (opened value))
    (opens : ∀ {before value after}, reads rule before = some (value, after) →
      opened value after.rest → given before.rest) : Candid (rule >>= next) left given := by
  refine ⟨first.formed.bind fun value => (second value).formed, ?_, ?_⟩
  · intro before after value sound result
    rw [run_bind] at result
    cases start : rule before with
    | error miss missed =>
        rw [start] at result
        cases result
    | ok found between =>
        rw [start] at result
        have soundBetween := (first.formed.reads_of_ok sound start).2
        have clean := (first.ok sound start).resolve_right id
        exact ((second found).ok soundBetween result).imp_left clean.trans
  · intro before after miss sound result
    rw [run_bind] at result
    cases start : rule before with
    | error miss' missed =>
        rw [start] at result
        cases result
        exact first.error sound start
    | ok found between =>
        rw [start] at result
        obtain ⟨read, soundBetween⟩ := first.formed.reads_of_ok sound start
        have clean := (first.ok sound start).resolve_right id
        exact ((second found).error soundBetween result).imp clean.trans (opens read)

/-- A sequence that begins with the comments before an item. -/
theorem drainHead {next : Option String → Rule Value}
    (second : ∀ head, Candid (next head) left given) :
    Candid (Parser.drainHead >>= next) left given := by
  refine Quiet.drainHead.candid.bind second fun {before value after} read rejected => ?_
  rw [reads_drainHead] at read
  obtain ⟨-, rfl⟩ := Prod.mk.inj (Option.some.inj read)
  exact rejected

/-- A sequence whose first part rejects nothing, before one that has nothing to show when it
misses. -/
theorem afterQuiet {rule : Rule First} {next : First → Rule Second} (first : Quiet rule)
    (second : ∀ value, Candid (next value) left Nowhere) : Candid (rule >>= next) left Nowhere :=
  first.candid.bind second fun _ => id

/-- A sequence after whose first part nothing is rejected. -/
theorem bindQuiet {rule : Rule First} {next : First → Rule Second}
    (first : Candid rule Nowhere given) (second : ∀ value, Quiet (next value)) :
    Candid (rule >>= next) left given :=
  first.bind (fun value => (second value).candid) fun _ (impossible : Nowhere _) => impossible.elim

/-- A sequence that begins with a look at the text. -/
theorem startsWith {word : List Char} {next : Bool → Rule Value} {opened : Bool → List Char → Prop}
    (second : ∀ found, Candid (next found) left (opened found)) :
    Candid (Parser.startsWith word >>= next) left
      fun text => opened (word.isPrefixOf text) text := by
  refine (Quiet.startsWith word).candid.bind second fun {before value after} read rejected => ?_
  obtain ⟨rfl, rfl⟩ := Prod.mk.inj (Option.some.inj read)
  exact rejected

/-- Inside a rule whose beginning is known already, a rejection has nothing to show. -/
theorem inside {rule : Rule Value} (candid : Candid rule left given) :
    Candid rule left Everywhere :=
  candid.mono (fun _ => id) fun _ _ => trivial

/-- A sequence whose first part tells by itself how the text begins. -/
theorem bindOpening {rule : Rule First} {next : First → Rule Second}
    (first : Candid rule Nowhere given) (second : ∀ value, Candid (next value) left Everywhere)
    (opens : ∀ {before value after}, reads rule before = some (value, after) →
      given before.rest) : Candid (rule >>= next) left given :=
  first.bind second fun read _ => opens read

/-- A sequence inside a rule whose beginning is known already. -/
theorem bindInside {rule : Rule First} {next : First → Rule Second}
    (first : Candid rule Nowhere Everywhere)
    (second : ∀ value, Candid (next value) left Everywhere) :
    Candid (rule >>= next) left Everywhere :=
  first.bind second fun _ _ => trivial

/-- **Sequences that come to a halt.** On the texts that the first part leaves after a rejection the
second part misses. -/
theorem bindStuck {rule : Rule First} {next : First → Rule Second}
    (first : Candid rule left given) (second : ∀ value, Candid (next value) left' Everywhere)
    (stuck : ∀ value {before}, left before.rest → reads (next value) before = none) :
    Candid (rule >>= next) left' Everywhere := by
  refine ⟨first.formed.bind fun value => (second value).formed, ?_, fun _ _ => .inr trivial⟩
  intro before after value sound result
  rw [run_bind] at result
  cases start : rule before with
  | error miss missed =>
      rw [start] at result
      cases result
  | ok found between =>
      rw [start] at result
      have soundBetween := (first.formed.reads_of_ok sound start).2
      rcases first.ok sound start with clean | rejected
      · exact ((second found).ok soundBetween result).imp_left clean.trans
      · have read := ((second found).formed.reads_of_ok soundBetween result).1
        rw [stuck found rejected] at read
        cases read

/-- **Optional parts.** After a rejection the optional part is taken to be left out. What comes then
either misses on that text too or leaves a text that shows the rejection. -/
theorem bindAttempt {rule : Rule First} {next : Option First → Rule Second}
    {opened later : List Char → Prop} (inner : Candid rule Nowhere opened)
    (second : ∀ value, Candid (next value) left later)
    (opens : ∀ {before value after}, reads rule before = some (value, after) → later after.rest →
      given before.rest)
    (remains : ∀ text, later text → given text)
    (passes : ∀ {before value after}, opened before.rest →
      reads (next none) before = some (value, after) → left after.rest)
    (stuck : ∀ {before}, opened before.rest → reads (next none) before = none →
      given before.rest) : Candid (Parser.attempt rule >>= next) left given := by
  have growing := inner.formed.growing
  refine ⟨inner.formed.attempt.bind fun value => (second value).formed, ?_, ?_⟩
  · intro before after value sound result
    rw [run_bind, attempt_eq growing] at result
    cases start : rule before.checkpoint with
    | ok found between =>
        simp only [start] at result
        have soundBetween := (inner.formed.reads_of_ok sound.checkpoint start).2.commit
        have clean : Clean before between.commit :=
          (inner.ok sound.checkpoint start).resolve_right id
        exact ((second _).ok soundBetween result).imp_left clean.trans
    | error miss missed =>
        simp only [start] at result
        rcases inner.error sound.checkpoint start with clean | rejected
        · have clean : Clean before (before.keeping missed.misses) := clean
          exact ((second _).ok (sound.keeping _) result).imp_left clean.trans
        -- The part is taken to be left out although it has begun.
        · exact .inr (passes rejected ((second none).formed.reads_of_ok (sound.keeping _) result).1)
  · intro before after miss sound result
    rw [run_bind, attempt_eq growing] at result
    cases start : rule before.checkpoint with
    | ok found between =>
        simp only [start] at result
        obtain ⟨read, soundBetween⟩ := inner.formed.reads_of_ok sound.checkpoint start
        have clean : Clean before between.commit :=
          (inner.ok sound.checkpoint start).resolve_right id
        exact ((second _).error soundBetween.commit result).imp clean.trans (opens read)
    | error miss' missed =>
        simp only [start] at result
        rcases inner.error sound.checkpoint start with clean | rejected
        · have clean : Clean before (before.keeping missed.misses) := clean
          exact ((second _).error (sound.keeping _) result).imp clean.trans (remains _)
        · exact .inr
            (stuck rejected ((second none).formed.reads_of_error (sound.keeping _) result).1)

/-- **Repetitions.** After a rejection no further item is read, so the repetition ends on the text
that shows it. -/
theorem many {rule : Rule Value} {shown : List Char → Prop} (item : Candid rule left given)
    (stuck : ∀ {before}, left before.rest → reads rule before = none)
    (leaves : ∀ text, left text → shown text) (gives : ∀ text, given text → shown text) :
    Candid (Parser.many rule) shown Nowhere := by
  have growing := item.formed.growing
  -- From a text that the items leave after a rejection, nothing more is read.
  have idle : ∀ {before after : State} {values : List Value}, before.Sound →
      left before.input.rest → Parser.many rule before = .ok values after →
      left after.input.rest := by
    intro before after values sound rejected result
    have read := (item.formed.many.reads_of_ok sound result).1
    have missed : reads rule before.view = none := stuck rejected
    rw [reads_many _ item.formed, missed] at read
    have same : before.view = after.view := (Prod.mk.inj (Option.some.inj read)).2
    have same : before.input.rest = after.input.rest := congrArg View.rest same
    rwa [← same]
  refine ⟨item.formed.many, ?_, ?_⟩
  · intro before after values sound result
    fun_induction Parser.many rule before generalizing values after with
    | case1 before miss missed attempted => cases result
    | case2 before next attempted =>
        cases result
        rw [attempt_eq growing] at attempted
        cases start : rule before.checkpoint with
        | ok value read => simp [start] at attempted
        | error miss missed =>
            simp only [start, EStateM.Result.ok.injEq, true_and] at attempted
            subst attempted
            exact (item.error sound.checkpoint start).imp id (gives _)
    | case3 before value next attempted shorter values' last later ih =>
        obtain ⟨rfl, rfl⟩ := EStateM.Result.ok.inj result
        obtain ⟨read, start, rfl⟩ := attempt_some growing attempted
        have soundNext := (item.formed.reads_of_ok sound.checkpoint start).2.commit
        rcases item.ok sound.checkpoint start with clean | rejected
        · have clean : Clean before read.commit := clean
          exact (ih soundNext later).imp_left clean.trans
        · exact .inr (leaves _ (idle soundNext rejected later))
    | case4 before value next attempted shorter miss last later ih => cases result
    | case5 before value next attempted longer =>
        -- An item that makes the text no shorter is the last one.
        -- An item that makes the text no shorter is the last one.
        obtain ⟨rfl, rfl⟩ := EStateM.Result.ok.inj result
        obtain ⟨read, start, rfl⟩ := attempt_some growing attempted
        exact (item.ok sound.checkpoint start).imp id (leaves _)
  · intro before after miss sound result
    obtain ⟨values, last, matched, -⟩ := many_repeats growing before
    rw [matched] at result
    cases result

/-- A rule that is candid under a condition, and quiet otherwise, rejects only under the
condition. -/
theorem ite {condition : Prop} [Decidable condition] {first second : Rule Value}
    (candid : Candid first left Everywhere) (quiet : Quiet second) :
    Candid (if condition then first else second) left fun _ => condition := by
  split
  · next holds => exact candid.mono (fun _ => id) fun _ _ => holds
  · exact quiet.candid

private theorem choice_nil (what : Expectation) :
    Candid (Parser.choice what ([] : List (Rule Value))) left given := by
  refine Quiet.candid (.choice what ?_)
  simp

/-- **Choices.** Where the first alternative has rejected something, the others miss. -/
theorem choice_cons {rule : Rule Value} {others : List (Rule Value)} {what : Expectation}
    {opened : List Char → Prop} (first : Candid rule Nowhere opened)
    (later : Candid (Parser.choice what others) Nowhere given)
    (formed : ∀ other ∈ others, Formed other)
    (apart : ∀ {before}, opened before.rest → ∀ other ∈ others, reads other before = none)
    (opens : ∀ text, opened text → given text) :
    Candid (Parser.choice what (rule :: others)) Nowhere given := by
  have split := choice_cons_eq what first.formed.growing fun other member =>
    (formed other member).growing
  refine ⟨.choice what (List.forall_mem_cons.mpr ⟨first.formed, formed⟩), ?_, ?_⟩
  · intro before after value sound result
    rw [split] at result
    cases start : rule before.checkpoint with
    | ok found read =>
        simp only [start, EStateM.Result.ok.injEq] at result
        obtain ⟨-, rfl⟩ := result
        have clean : Clean before read.commit := (first.ok sound.checkpoint start).resolve_right id
        exact .inl clean
    | error miss missed =>
        simp only [start] at result
        rcases first.error sound.checkpoint start with clean | rejected
        · have clean : Clean before (before.keeping missed.misses) := clean
          exact (later.ok (sound.keeping _) result).imp_left clean.trans
        · have read := (later.formed.reads_of_ok (sound.keeping _) result).1
          have missed : ∀ other ∈ others, reads other (before.keeping missed.misses).view = none :=
            apart rejected
          rw [reads_choice _ what formed, List.findSome?_eq_none_iff.mpr missed] at read
          cases read
  · intro before after miss sound result
    rw [split] at result
    cases start : rule before.checkpoint with
    | ok found read => simp [start] at result
    | error miss' missed =>
        simp only [start] at result
        rcases first.error sound.checkpoint start with clean | rejected
        · have clean : Clean before (before.keeping missed.misses) := clean
          exact (later.error (sound.keeping _) result).imp_left clean.trans
        · exact .inr (opens _ rejected)

/-- **Tables of alternatives.** Each alternative begins in a way of its own, as far as a key tells
that is made of the text, and alternatives with one key have nothing to reject. -/
theorem choice_of_keys {Entry Key : Type} (keyOf : List Char → Key) (key : Entry → Key)
    (rule : Entry → Rule Value) (what : Expectation) {table : List Entry}
    (each : ∀ entry ∈ table, Candid (rule entry) Nowhere (keyOf · = key entry))
    (missed : ∀ entry ∈ table, ∀ {before : View}, keyOf before.rest ≠ key entry →
      reads (rule entry) before = none)
    (apart : table.Pairwise fun first second => Quiet (rule first) ∨ key first ≠ key second) :
    Candid (Parser.choice what (table.map rule)) Nowhere
      fun text => ∃ entry ∈ table, keyOf text = key entry := by
  induction table with
  | nil => exact choice_nil what
  | cons entry others ih =>
      obtain ⟨first, later⟩ := List.forall_mem_cons.mp each
      obtain ⟨-, missedLater⟩ := List.forall_mem_cons.mp missed
      obtain ⟨differs, apart⟩ := List.pairwise_cons.mp apart
      have formed : ∀ other ∈ others.map rule, Formed other :=
        List.forall_mem_map.mpr fun other member => (later other member).formed
      have rest : Candid (Parser.choice what (others.map rule)) Nowhere
          fun text => ∃ other ∈ entry :: others, keyOf text = key other :=
        (ih later missedLater apart).mono (fun _ => id)
          fun _ ⟨other, member, same⟩ => ⟨other, List.mem_cons_of_mem entry member, same⟩
      by_cases quiet : Quiet (rule entry)
      · have first : Candid (rule entry) Nowhere Nowhere := quiet.candid
        exact first.choice_cons rest formed False.elim fun _ => False.elim
      · refine choice_cons first rest formed (fun {before} begins => ?_)
          fun _ same => ⟨entry, by simp, same⟩
        refine List.forall_mem_map.mpr fun other member => missedLater other member ?_
        rw [begins]
        exact (differs other member).resolve_left quiet

end Candid

end ThriftIdl.Parser
