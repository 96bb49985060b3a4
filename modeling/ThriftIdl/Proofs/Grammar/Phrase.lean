import ThriftIdl.Proofs.Rule.View

/-!
# Phrases

A phrase says from which view to which view a piece of a text leads and what it stands for, without
saying how it is found. Phrases are put together in sequence, by option, by repetition and by
alternatives, so a grammar is written in them as plainly as its rules are. `Agrees` relates the two:
a rule reads exactly the phrases of a kind, as far as what follows meets a condition. The condition
is what makes up for the rules going ahead without looking back: an optional part that is left out
must not come next, and a repetition ends where no further item begins. Main statements:
`Agrees.bind`, `Agrees.bindOptional`, `Agrees.many` and `Agrees.choice`.
-/

namespace ThriftIdl

open ThriftIdl.Parser (View Rule Formed reads)

namespace Grammar

/-- The phrases of one kind: the view before, the value and the view after. -/
def Phrase (Value : Type) := View → Value → View → Prop

variable {Value First Second : Type}

namespace Phrase

/-- Nothing, with a value. -/
protected def pure (value : Value) : Phrase Value :=
  fun before found after => found = value ∧ after = before

/-- A phrase and then one that may depend on its value. -/
protected def bind (phrase : Phrase First) (next : First → Phrase Second) : Phrase Second :=
  fun before value after =>
    ∃ found middle, phrase before found middle ∧ next found middle value after

instance : Monad Phrase where
  pure := Phrase.pure
  bind := Phrase.bind

@[simp] theorem pure_iff {value found : Value} {before after : View} :
    (pure value : Phrase Value) before found after ↔ found = value ∧ after = before :=
  Iff.rfl

/-- Two phrases in sequence meet in a view between them. -/
theorem bind_iff {phrase : Phrase First} {next : First → Phrase Second} {value : Second}
    {before after : View} : (phrase >>= next) before value after ↔
      ∃ found middle, phrase before found middle ∧ next found middle value after :=
  Iff.rfl

/-- Changing the value of a phrase leaves its place as it is. -/
theorem map_iff {phrase : Phrase First} {change : First → Second} {value : Second}
    {before after : View} : (change <$> phrase) before value after ↔
      ∃ found, phrase before found after ∧ value = change found := by
  constructor
  · rintro ⟨found, middle, here, same, rfl⟩
    exact ⟨found, here, same⟩
  · rintro ⟨found, here, same⟩
    exact ⟨found, after, here, same, rfl⟩

/-- A phrase that may be left out. -/
def optional (phrase : Phrase Value) : Phrase (Option Value) :=
  fun before found after =>
    match found with
    | some value => phrase before value after
    | none => after = before

/-- A phrase whose value passes a test. -/
def only (phrase : Phrase Value) (test : Value → Prop) : Phrase Value :=
  fun before value after => phrase before value after ∧ test value

/-- A phrase of one of several kinds. -/
def oneOf (phrases : List (Phrase Value)) : Phrase Value :=
  fun before value after => ∃ phrase ∈ phrases, phrase before value after

/-- Phrases of one kind in sequence. -/
inductive Repeated (phrase : Phrase Value) : View → List Value → View → Prop
  | done (view : View) : Repeated phrase view [] view
  | next {before middle after : View} {value : Value} {values : List Value} :
      phrase before value middle → Repeated phrase middle values after →
        Repeated phrase before (value :: values) after

/-- Repetitions that meet are one repetition. -/
theorem Repeated.append {phrase : Phrase Value} {before between after : View}
    {first second : List Value} (here : Repeated phrase before first between)
    (there : Repeated phrase between second after) :
    Repeated phrase before (first ++ second) after := by
  induction here with
  | done => exact there
  | next step _ ih => exact .next step (ih there)

/-- The comments that wait for the next item. -/
def drainHead : Phrase (Option String) :=
  fun before found after =>
    found = Comment.Queue.together before.head ∧ after = { before with head := [] }

/-- The comments that wait for the last item. -/
def drainTail : Phrase (Option String) :=
  fun before found after =>
    found = Comment.Queue.together before.tail ∧ after = { before with tail := [] }

/-- No comments wait for the next item any more. -/
def discardHead : Phrase Unit :=
  fun before _ after => after = { before with head := [] }

/-! ## What a phrase does to the text -/

/-- Phrases of a kind leave no longer text than they find. -/
def Narrows (phrase : Phrase Value) : Prop :=
  ∀ ⦃before value after⦄, phrase before value after → after.rest.length ≤ before.rest.length

/-- Phrases of a kind leave a shorter text than they find. -/
def Advances (phrase : Phrase Value) : Prop :=
  ∀ ⦃before value after⦄, phrase before value after → after.rest.length < before.rest.length

/-- The texts of which phrases of a kind are the beginning meet a condition. -/
def Starts (phrase : Phrase Value) (condition : List Char → Prop) : Prop :=
  ∀ ⦃before value after⦄, phrase before value after → condition before.rest

/-- A text that gets shorter gets no longer. -/
theorem Advances.narrows {phrase : Phrase Value} (advances : Advances phrase) : Narrows phrase :=
  fun _ _ _ here => (advances here).le

theorem Narrows.pure (value : Value) : Narrows (pure value : Phrase Value) := by
  rintro before found after ⟨_, rfl⟩
  exact Nat.le_refl _

theorem Narrows.drainHead : Narrows drainHead := by
  rintro before found after ⟨_, rfl⟩
  exact Nat.le_refl _

theorem Narrows.drainTail : Narrows drainTail := by
  rintro before found after ⟨_, rfl⟩
  exact Nat.le_refl _

theorem Narrows.discardHead : Narrows discardHead := by
  rintro before found after rfl
  exact Nat.le_refl _

/-- In sequence, no phrase makes the text longer if none of them does. -/
theorem Narrows.bind {phrase : Phrase First} {next : First → Phrase Second}
    (first : Narrows phrase) (second : ∀ value, Narrows (next value)) :
    Narrows (phrase >>= next) := by
  rintro before value after ⟨found, middle, here, there⟩
  exact (second found there).trans (first here)

/-- Leaving a phrase out does not make the text longer. -/
theorem Narrows.optional {phrase : Phrase Value} (narrows : Narrows phrase) :
    Narrows phrase.optional := by
  intro before found after here
  cases found with
  | none => exact (congrArg (fun view => view.rest.length) here).le
  | some value => exact narrows here

/-- Repeating a phrase does not make the text longer if the phrase does not. -/
theorem Narrows.repeated {phrase : Phrase Value} (narrows : Narrows phrase) :
    Narrows (Repeated phrase) := by
  intro before values after repeated
  induction repeated with
  | done => exact Nat.le_refl _
  | next here _ ih => exact ih.trans (narrows here)

/-- A sequence uses up part of the text if its first part does. -/
theorem Advances.bind {phrase : Phrase First} {next : First → Phrase Second}
    (first : Advances phrase) (second : ∀ value, Narrows (next value)) :
    Advances (phrase >>= next) := by
  rintro before value after ⟨found, middle, here, there⟩
  exact (second found there).trans_lt (first here)

/-- A sequence uses up part of the text if what comes after its first part does. -/
theorem Advances.after {phrase : Phrase First} {next : First → Phrase Second}
    (first : Narrows phrase) (second : ∀ value, Advances (next value)) :
    Advances (phrase >>= next) := by
  rintro before value after ⟨found, middle, here, there⟩
  exact (second found there).trans_le (first here)

/-- The value of a phrase does not matter for what it uses up. -/
theorem Advances.map {phrase : Phrase First} {change : First → Second}
    (advances : Advances phrase) : Advances (change <$> phrase) :=
  advances.bind fun value => Narrows.pure (change value)

/-- A condition on its value does not matter for what a phrase uses up. -/
theorem Advances.only {phrase : Phrase Value} (advances : Advances phrase)
    {test : Value → Prop} : Advances (phrase.only test) :=
  fun _ _ _ here => advances here.1

/-- Alternatives use up part of the text if each of them does. -/
theorem Advances.oneOf {phrases : List (Phrase Value)}
    (each : ∀ phrase ∈ phrases, Advances phrase) : Advances (oneOf phrases) := by
  rintro before value after ⟨phrase, member, here⟩
  exact each phrase member here

/-- What a phrase begins with may be said more weakly. -/
theorem Starts.mono {phrase : Phrase Value} {first second : List Char → Prop}
    (starts : Starts phrase first) (implies : ∀ text, first text → second text) :
    Starts phrase second :=
  fun _ _ _ here => implies _ (starts here)

/-- A sequence begins as its first part does. -/
theorem Starts.bind {phrase : Phrase First} {next : First → Phrase Second}
    {condition : List Char → Prop} (starts : Starts phrase condition) :
    Starts (phrase >>= next) condition := by
  rintro before value after ⟨found, middle, here, _⟩
  exact starts here

/-- The value of a phrase does not matter for how it begins. -/
theorem Starts.map {phrase : Phrase First} {change : First → Second}
    {condition : List Char → Prop} (starts : Starts phrase condition) :
    Starts (change <$> phrase) condition :=
  starts.bind

/-- A condition on its value does not matter for how a phrase begins. -/
theorem Starts.only {phrase : Phrase Value} {condition : List Char → Prop} {test : Value → Prop}
    (starts : Starts phrase condition) : Starts (phrase.only test) condition :=
  fun _ _ _ here => starts here.1

/-- Alternatives begin as each of them does. -/
theorem Starts.oneOf {phrases : List (Phrase Value)} {condition : List Char → Prop}
    (each : ∀ phrase ∈ phrases, Starts phrase condition) : Starts (oneOf phrases) condition := by
  rintro before value after ⟨phrase, member, here⟩
  exact each phrase member here

/-- Taking the comments before an item leaves the text where it is. -/
theorem Starts.drainHead {next : Option String → Phrase Second} {condition : List Char → Prop}
    (starts : ∀ head, Starts (next head) condition) :
    Starts (drainHead >>= next) condition := by
  rintro before value after ⟨found, middle, ⟨_, same⟩, there⟩
  exact (congrArg View.rest same) ▸ starts found there

/-- Giving up the comments before an item leaves the text where it is. -/
theorem Starts.discardHead {next : Unit → Phrase Second} {condition : List Char → Prop}
    (starts : Starts (next ()) condition) : Starts (discardHead >>= next) condition := by
  rintro before value after ⟨found, middle, same, there⟩
  exact (congrArg View.rest same) ▸ starts there

/-- A sequence with an optional first part begins as that part or as what follows it. -/
theorem Starts.optional {phrase : Phrase First} {next : Option First → Phrase Second}
    {condition : List Char → Prop} (present : Starts phrase condition)
    (absent : Starts (next none) condition) : Starts (phrase.optional >>= next) condition := by
  rintro before value after ⟨found, middle, here, there⟩
  cases found with
  | none => exact (congrArg View.rest here) ▸ absent there
  | some value => exact present here

/-- On texts shorter than a bound, phrases of one kind are phrases of another. -/
def EntailsBelow (bound : Nat) (phrase other : Phrase Value) : Prop :=
  ∀ ⦃before value after⦄, before.rest.length < bound → phrase before value after →
    other before value after

namespace EntailsBelow

variable {bound : Nat}

/-- A phrase entails itself. -/
theorem refl (phrase : Phrase Value) : EntailsBelow bound phrase phrase :=
  fun _ _ _ _ here => here

/-- Sequences entail each other part by part, since no part makes the text longer. -/
theorem bind {phrase other : Phrase First} {next later : First → Phrase Second}
    (first : EntailsBelow bound phrase other) (narrows : phrase.Narrows)
    (second : ∀ value, EntailsBelow bound (next value) (later value)) :
    EntailsBelow bound (phrase >>= next) (other >>= later) := by
  rintro before value after shorter ⟨found, middle, here, there⟩
  exact ⟨found, middle, first shorter here, second found ((narrows here).trans_lt shorter) there⟩

/-- What comes after a part that advances is shorter than the whole. -/
theorem step {phrase : Phrase First} {next later : First → Phrase Second}
    (advances : phrase.Advances) (second : ∀ value, EntailsBelow bound (next value) (later value)) :
    EntailsBelow (bound + 1) (phrase >>= next) (phrase >>= later) := by
  rintro before value after shorter ⟨found, middle, here, there⟩
  have below := advances here
  exact ⟨found, middle, here, second found (by omega) there⟩

/-- Repetitions entail each other if what they repeat does. -/
theorem repeated {phrase other : Phrase Value} (entails : EntailsBelow bound phrase other)
    (narrows : phrase.Narrows) : EntailsBelow bound (Repeated phrase) (Repeated other) := by
  intro before values after shorter repeated
  induction repeated with
  | done view => exact .done view
  | next here _ ih => exact .next (entails shorter here) (ih ((narrows here).trans_lt shorter))

end EntailsBelow

end Phrase

/-! ## Rules that read phrases -/

/-- A rule reads exactly the phrases of a kind, where the value and what follows meet a
condition. -/
structure Agrees (rule : Rule Value) (phrase : Phrase Value) (follow : Value → View → Prop) :
    Prop where
  formed : Formed rule
  iff : ∀ {before value after}, follow value after →
    (reads rule before = some (value, after) ↔ phrase before value after)

/-- The condition that is always met. -/
def anything : Value → View → Prop :=
  fun _ _ => True

namespace Agrees

open Phrase

variable {rule : Rule Value} {phrase : Phrase Value} {follow : Value → View → Prop}

/-- A rule that agrees without a condition reads exactly the phrases. -/
theorem always (agrees : Agrees rule phrase anything) {before after : View} {value : Value} :
    reads rule before = some (value, after) ↔ phrase before value after :=
  agrees.iff trivial

/-- The condition on what follows may be made stronger. -/
theorem mono {stronger : Value → View → Prop} (agrees : Agrees rule phrase follow)
    (implies : ∀ value after, stronger value after → follow value after) :
    Agrees rule phrase stronger :=
  ⟨agrees.formed, fun met => agrees.iff (implies _ _ met)⟩

theorem pure (value : Value) : Agrees (pure value) (pure value) follow := by
  refine ⟨.pure value, fun {before found after} _ => ?_⟩
  rw [Parser.reads_pure, Phrase.pure_iff, Option.some.injEq, Prod.mk.injEq]
  exact ⟨fun same => ⟨same.1.symm, same.2.symm⟩, fun same => ⟨same.1.symm, same.2.symm⟩⟩

/-- Taking the comments before an item is the same for rules and phrases. -/
theorem drainHead : Agrees Parser.drainHead drainHead anything := by
  refine ⟨.drainHead, fun {before found after} _ => ?_⟩
  rw [Parser.reads_drainHead, Option.some.injEq, Prod.mk.injEq]
  exact ⟨fun same => ⟨same.1.symm, same.2.symm⟩, fun same => ⟨same.1.symm, same.2.symm⟩⟩

/-- Taking the comments behind an item is the same for rules and phrases. -/
theorem drainTail : Agrees Parser.drainTail drainTail anything := by
  refine ⟨.drainTail, fun {before found after} _ => ?_⟩
  rw [Parser.reads_drainTail, Option.some.injEq, Prod.mk.injEq]
  exact ⟨fun same => ⟨same.1.symm, same.2.symm⟩, fun same => ⟨same.1.symm, same.2.symm⟩⟩

/-- Giving up comments is the same for rules and phrases. -/
theorem discardHead : Agrees Parser.discardHead discardHead anything := by
  refine ⟨.discardHead, fun {before found after} _ => ?_⟩
  rw [Parser.reads_discardHead, Option.some.injEq, Prod.mk.injEq]
  exact ⟨fun same => same.2.symm, fun same => ⟨rfl, same.symm⟩⟩

/-- A rule misses where the text is no beginning of its phrases. -/
theorem missed {condition : List Char → Prop} (agrees : Agrees rule phrase anything)
    (starts : phrase.Starts condition) {view : View} (fails : ¬condition view.rest) :
    reads rule view = none := by
  rw [Option.eq_none_iff_forall_not_mem]
  rintro ⟨value, after⟩ read
  exact fails (starts (agrees.always.mp read))

/-- A sequence misses if its second part does after every first part. -/
theorem missed_bind {rule : Rule First} {phrase : Phrase First} {next : First → Rule Second}
    (first : Agrees rule phrase anything) (formed : ∀ value, Formed (next value)) {view : View}
    (second : ∀ value after, phrase view value after → reads (next value) after = none) :
    reads (rule >>= next) view = none := by
  rw [Parser.reads_bind _ next first.formed formed]
  cases result : reads rule view with
  | none => rfl
  | some read => exact second _ _ (first.always.mp result)

/-- A rule that first takes comments misses if the rest of it does. -/
theorem missed_drainHead {next : Option String → Rule Second} {view : View}
    (formed : ∀ head, Formed (next head))
    (missed : ∀ head, reads (next head) { view with head := [] } = none) :
    reads (Parser.drainHead >>= next) view = none := by
  rw [Parser.reads_bind _ next .drainHead formed, Parser.reads_drainHead, Option.bind_some]
  exact missed _

/-- Where an optional part is not there, a rule misses if what follows that part does. -/
theorem missed_optional {rule : Rule First} {next : Option First → Rule Second} {view : View}
    (formed : Formed rule) (formedNext : ∀ value, Formed (next value))
    (missed : reads rule view = none) (later : reads (next none) view = none) :
    reads (Parser.attempt rule >>= next) view = none := by
  rw [Parser.reads_bind _ next formed.attempt formedNext, Parser.reads_attempt view formed, missed,
    Option.bind_some]
  exact later

/-- **Sequences agree part by part**, if whatever the second part begins with may follow the
first. -/
theorem bindFollow {rule : Rule First} {phrase : Phrase First} {between : First → View → Prop}
    {next : First → Rule Second} {later : First → Phrase Second}
    {follow : Second → View → Prop} (first : Agrees rule phrase between)
    (second : ∀ value, Agrees (next value) (later value) follow)
    (meets : ∀ {value before found after}, later value before found after → follow found after →
      between value before) : Agrees (rule >>= next) (phrase >>= later) follow := by
  refine ⟨first.formed.bind fun value => (second value).formed, fun {before found after} met => ?_⟩
  rw [Parser.reads_bind _ next first.formed fun value => (second value).formed, bind_iff,
    Option.bind_eq_some_iff]
  constructor
  · rintro ⟨⟨value, middle⟩, here, there⟩
    have phrased := ((second value).iff met).mp there
    exact ⟨value, middle, (first.iff (meets phrased met)).mp here, phrased⟩
  · rintro ⟨value, middle, here, there⟩
    exact ⟨(value, middle), (first.iff (meets there met)).mpr here,
      ((second value).iff met).mpr there⟩

/-- Sequences agree part by part, if anything may follow the first. -/
theorem bind {rule : Rule First} {phrase : Phrase First} {next : First → Rule Second}
    {later : First → Phrase Second} {follow : Second → View → Prop}
    (first : Agrees rule phrase anything)
    (second : ∀ value, Agrees (next value) (later value) follow) :
    Agrees (rule >>= next) (phrase >>= later) follow :=
  first.bindFollow second fun _ _ => trivial

/-- Changing the value of a rule changes that of its phrases. -/
theorem map {rule : Rule First} {phrase : Phrase First} (change : First → Second)
    (agrees : Agrees rule phrase anything) :
    Agrees (change <$> rule) (change <$> phrase) anything :=
  agrees.bind fun value => .pure (change value)

/-- **An optional part and what comes after it.** Where the part is present the two agree in
sequence. Where it is absent, what comes after is no beginning of the part; the phrases may say so
by a condition of their own. -/
theorem bindOptional {rule : Rule First} {phrase : Phrase First} {between : First → View → Prop}
    {next : Option First → Rule Second} {later : Option First → Phrase Second}
    {follow : Second → View → Prop} (inner : Agrees rule phrase between)
    (present : ∀ value, Agrees (next (some value)) (later (some value)) follow)
    (meets : ∀ {value before found after}, later (some value) before found after →
      follow found after → between value before)
    (formed : Formed (next none))
    (absent : ∀ {before found after}, follow found after →
      (reads rule before = none ∧ reads (next none) before = some (found, after) ↔
        later none before found after)) :
    Agrees (Parser.attempt rule >>= next) (phrase.optional >>= later) follow := by
  have formedNext : ∀ value, Formed (next value)
    | none => formed
    | some value => (present value).formed
  refine ⟨inner.formed.attempt.bind formedNext, fun {before found after} met => ?_⟩
  rw [Parser.reads_bind _ next inner.formed.attempt formedNext,
    Parser.reads_attempt before inner.formed, Option.bind_some, bind_iff]
  constructor
  · intro there
    cases result : reads rule before with
    | none =>
        rw [result] at there
        exact ⟨none, before, rfl, (absent met).mp ⟨result, there⟩⟩
    | some read =>
        obtain ⟨value, middle⟩ := read
        rw [result] at there
        have phrased := ((present value).iff met).mp there
        exact ⟨some value, middle, (inner.iff (meets phrased met)).mp result, phrased⟩
  · rintro ⟨value, middle, here, there⟩
    cases value with
    | none =>
        cases here
        obtain ⟨result, there⟩ := (absent met).mpr there
        rw [result]
        exact there
    | some value =>
        have result := (inner.iff (meets there met)).mpr here
        rw [result]
        exact ((present value).iff met).mpr there

/-- An optional part that what comes after it never begins with. -/
theorem bindOptionalApart {rule : Rule First} {phrase : Phrase First}
    {between : First → View → Prop} {next : Option First → Rule Second}
    {later : Option First → Phrase Second} {follow : Second → View → Prop}
    (inner : Agrees rule phrase between)
    (second : ∀ value, Agrees (next value) (later value) follow)
    (meets : ∀ {value before found after}, later (some value) before found after →
      follow found after → between value before)
    (apart : ∀ {before found after}, later none before found after → follow found after →
      reads rule before = none) :
    Agrees (Parser.attempt rule >>= next) (phrase.optional >>= later) follow := by
  refine inner.bindOptional (fun value => second (some value)) meets (second none).formed ?_
  intro before found after met
  rw [(second none).iff met]
  exact ⟨fun both => both.2, fun there => ⟨apart there met, there⟩⟩

/-- **A repetition** ends where the rule for its items misses. -/
theorem many {rule : Rule Value} {phrase : Phrase Value} {follow : View → Prop}
    (inner : Agrees rule phrase fun _ => follow) (advances : Advances phrase)
    (meets : ∀ {before value after}, phrase before value after → follow before) :
    Agrees (Parser.many rule) (Repeated phrase)
      fun _ after => follow after ∧ reads rule after = none := by
  refine ⟨inner.formed.many, fun {before values after} met => ?_⟩
  obtain ⟨allowed, missed⟩ := met
  constructor
  · intro read
    -- What follows the last item is allowed, and every item is allowed behind the one before.
    have allowedBefore : follow before ∧ Repeated phrase before values after := by
      replace read := Parser.readsEach_of_reads_many inner.formed read
      induction read with
      | missed _ => exact ⟨allowed, .done _⟩
      | idle here longer =>
          exact absurd (advances ((inner.iff allowed).mp here)) (Nat.not_lt.mpr longer)
      | item here _ _ ih =>
          obtain ⟨allowedMiddle, repeated⟩ := ih allowed missed
          have here := (inner.iff allowedMiddle).mp here
          exact ⟨meets here, .next here repeated⟩
    exact allowedBefore.2
  · intro repeated
    induction repeated with
    | done view => rw [Parser.reads_many view inner.formed, missed]
    | @next _ middle _ _ _ here later ih =>
        have allowedMiddle : follow middle := by
          cases later with
          | done => exact allowed
          | next there _ => exact meets there
        rw [Parser.reads_many _ inner.formed, (inner.iff allowedMiddle).mpr here]
        simp only [if_pos (advances here), ih allowed missed, Option.map_some]


/-- A choice of nothing reads nothing. -/
theorem choice_nil (what : Expectation) : Agrees (Parser.choice what []) (oneOf []) follow := by
  refine ⟨.choice what (by simp), fun {before value after} _ => ?_⟩
  rw [Parser.reads_choice before what (by simp)]
  simp [oneOf]

/-- **A choice** agrees with its alternatives if the first does, and if the phrases of the others
are just what the rules of the others read where the first one misses. -/
theorem choice_cons {others : List (Rule Value)} {phrases : List (Phrase Value)}
    {what : Expectation} (first : Agrees rule phrase follow)
    (formed : ∀ other ∈ others, Formed other)
    (rest : ∀ {before value after}, follow value after →
      (reads rule before = none ∧
          reads (Parser.choice what others) before = some (value, after) ↔
        oneOf phrases before value after)) :
    Agrees (Parser.choice what (rule :: others)) (oneOf (phrase :: phrases)) follow := by
  have formedAll : ∀ other ∈ rule :: others, Formed other := by
    intro other member
    rcases List.mem_cons.mp member with rfl | member
    · exact first.formed
    · exact formed other member
  refine ⟨.choice what formedAll, fun {before value after} met => ?_⟩
  have split : oneOf (phrase :: phrases) before value after ↔
      phrase before value after ∨ oneOf phrases before value after := by
    simp [oneOf]
  have later : reads rule before = none ∧
      reads (Parser.choice what others) before = some (value, after) ↔
        oneOf phrases before value after := rest met
  rw [Parser.reads_choice before what formed] at later
  rw [Parser.reads_choice before what formedAll, split, List.findSome?_cons, ← later,
    ← first.iff met]
  cases reads rule before <;> simp

/-- A choice whose later alternatives never begin as the first one does. -/
theorem choice_cons_apart {others : List (Rule Value)} {phrases : List (Phrase Value)}
    {what : Expectation} (first : Agrees rule phrase follow)
    (formed : ∀ other ∈ others, Formed other)
    (rest : Agrees (Parser.choice what others) (oneOf phrases) follow)
    (apart : ∀ {before value after}, oneOf phrases before value after → follow value after →
      reads rule before = none) :
    Agrees (Parser.choice what (rule :: others)) (oneOf (phrase :: phrases)) follow := by
  refine first.choice_cons formed fun {before value after} met => ?_
  rw [rest.iff met]
  exact ⟨fun both => both.2, fun there => ⟨apart there met, there⟩⟩

end Agrees

end Grammar
end ThriftIdl
