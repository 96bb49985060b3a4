import ThriftIdl.Proofs.Rule.Rejection

/-!
# Rules that reject more

Two rules that differ only in what they reject are run from one state. As long as the lax one
rejects nothing, the strict one does the same, or else it has rejected something that the lax one
has not, and of one kind only (`Stricter`). From then on the two runs go apart. As with rules that
are candid, the text that the strict rule leaves or was given shows that it went its own way, and
the combinators keep this as long as what comes next reads nothing there.
-/

namespace ThriftIdl.Parser

variable {Value First Second : Type} {kind : Rejection → Prop}

/-- Between two states rejections of one kind are recorded, one of them at least, and no others. -/
def Faulted (kind : Rejection → Prop) (before after : State) : Prop :=
  ∃ added, after.misses = added ++ before.misses ∧
    (∀ miss ∈ added, ∀ why, miss.reason = .rejected why → kind why) ∧
    ∃ miss ∈ added, miss.reason.isRejection = true

namespace Faulted

variable {before between after : State}

/-- A fault stays one when more was recorded before it. -/
theorem after_records (records : Records kind before between)
    (faulted : Faulted kind between after) : Faulted kind before after := by
  obtain ⟨added, misses, each⟩ := records
  obtain ⟨more, misses', each', miss, member, rejected⟩ := faulted
  exact ⟨more ++ added, by rw [misses', misses, List.append_assoc],
    List.forall_mem_append.mpr ⟨each', each⟩, miss, List.mem_append_left added member, rejected⟩

/-- A fault stays one when more is recorded after it. -/
theorem then_records (faulted : Faulted kind before between)
    (records : Records kind between after) : Faulted kind before after := by
  obtain ⟨added, misses, each, miss, member, rejected⟩ := faulted
  obtain ⟨more, misses', each'⟩ := records
  exact ⟨more ++ added, by rw [misses', misses, List.append_assoc],
    List.forall_mem_append.mpr ⟨each', each⟩, miss, List.mem_append_right more member, rejected⟩

end Faulted

/-- Where nothing is rejected, nothing of another kind is. -/
theorem Clean.records {before after : State} (clean : Clean before after) :
    Records kind before after :=
  Records.mono clean fun _ => False.elim

/-- A way without rejections, and a state on it. -/
theorem Clean.split_at {before after : State} (between : State) (clean : Clean before after)
    (first : before.misses <:+ between.misses) (second : between.misses <:+ after.misses) :
    Clean before between ∧ Clean between after :=
  Records.split clean first second

/-- A run in which something of one kind is rejected. It leaves a text of one sort, if it matches,
or was given a text of another sort, if it misses. -/
inductive Diverges (kind : Rejection → Prop) (left given : List Char → Prop) (before : State) :
    EStateM.Result Miss State Value → Prop
  | ok {value : Value} {after : State} : Faulted kind before after → left after.input.rest →
      Diverges kind left given before (.ok value after)
  | error {miss : Miss} {after : State} : Faulted kind before after → given before.input.rest →
      Diverges kind left given before (.error miss after)

private theorem Diverges.mono {left left' given given' : List Char → Prop} {before : State}
    {outcome : EStateM.Result Miss State Value}
    (diverges : Diverges kind left given before outcome) (leaves : ∀ text, left text → left' text)
    (gives : ∀ text, given text → given' text) : Diverges kind left' given' before outcome := by
  cases diverges with
  | ok faulted leave => exact .ok faulted (leaves _ leave)
  | error faulted give => exact .error faulted (gives _ give)

/-- A run that goes its own way has not come by one before. -/
theorem Diverges.after_clean {left given opened : List Char → Prop} {before between : State}
    {outcome : EStateM.Result Miss State Value}
    (diverges : Diverges kind left opened between outcome) (clean : Clean before between)
    (opens : opened between.input.rest → given before.input.rest) :
    Diverges kind left given before outcome := by
  cases diverges with
  | ok faulted leave => exact .ok (.after_records clean.records faulted) leave
  | error faulted give => exact .error (.after_records clean.records faulted) (opens give)

/-- A run that goes its own way and leaves no text misses. -/
theorem Diverges.of_nowhere {given : List Char → Prop} {before : State}
    {outcome : EStateM.Result Miss State Value}
    (diverges : Diverges kind Nowhere given before outcome) :
    ∃ miss after, outcome = .error miss after ∧ Faulted kind before after ∧
      given before.input.rest := by
  cases diverges with
  | ok _ impossible => exact impossible.elim
  | error faulted give => exact ⟨_, _, rfl, faulted, give⟩

/-! ## Steps of repetitions -/

/-- One step of a repetition. -/
theorem many_step {rule : Rule Value} (growing : Growing rule) (state : State) :
    many rule state =
      match rule state.checkpoint with
      | .error _ missed => .ok [] (state.keeping missed.misses)
      | .ok value read =>
        if read.input.rest.length < state.input.rest.length then
          match many rule read.commit with
          | .ok values last => .ok (value :: values) last
          | .error miss last => .error miss last
        else .ok [value] read.commit := by
  rw [many.eq_def, attempt_eq growing]
  cases rule state.checkpoint <;> rfl

/-- A repetition without rejections: none in its first step and none in the others. -/
theorem clean_of_many {rule : Rule Value} (growing : Growing rule) {before : State}
    (clean : Clean before (ending (many rule before))) :
    Clean before (ending (rule before.checkpoint)) ∧
      ∀ {value read}, rule before.checkpoint = .ok value read →
        read.input.rest.length < before.input.rest.length →
        Clean read.commit (ending (many rule read.commit)) := by
  have grown := growing before.checkpoint
  rw [many_step growing] at clean
  cases result : rule before.checkpoint with
  | error miss missed =>
      simp only [result] at clean
      exact ⟨clean, fun impossible => nomatch impossible⟩
  | ok value read =>
      simp only [result] at clean
      rw [result] at grown
      have later := growing.many read.commit
      obtain ⟨values, last, rest, -⟩ := many_repeats growing read.commit
      rw [rest] at later
      by_cases shorter : read.input.rest.length < before.input.rest.length
      · simp only [rest, if_pos shorter] at clean
        -- The item has recorded no rejection, and the rest after it has not either.
        obtain ⟨first, second⟩ := Clean.split_at read clean grown.misses later.misses
        refine ⟨first, fun same _ => ?_⟩
        obtain ⟨-, rfl⟩ := EStateM.Result.ok.inj same
        rw [rest]
        exact second
      · simp only [if_neg shorter] at clean
        refine ⟨clean, fun same shorter' => ?_⟩
        obtain ⟨-, rfl⟩ := EStateM.Result.ok.inj same
        exact absurd shorter' shorter

/-! ## Strict rules and lax ones -/

/-- A strict rule that does what a lax one does as long as that one rejects nothing, or else rejects
something of one kind. -/
structure Stricter (kind : Rejection → Prop) (strict lax : Rule Value)
    (left given : List Char → Prop) : Prop where
  formed : Formed strict
  formedLax : Formed lax
  run : ∀ {before : State}, before.Sound → Clean before (ending (lax before)) →
    strict before = lax before ∨ Diverges kind left given before (strict before)

namespace Stricter

variable {left given : List Char → Prop}

/-- A rule is as strict as itself. -/
theorem refl {rule : Rule Value} (formed : Formed rule) : Stricter kind rule rule left given :=
  ⟨formed, formed, fun _ _ => .inl rfl⟩

/-- What a stricter rule leaves behind need not be known. -/
theorem inside {strict lax : Rule Value} (stricter : Stricter kind strict lax left given) :
    Stricter kind strict lax left Everywhere :=
  ⟨stricter.formed, stricter.formedLax, fun sound clean =>
    (stricter.run sound clean).imp_right fun diverges => diverges.mono (fun _ => id)
      fun _ _ => trivial⟩

private theorem mono {left' given' : List Char → Prop} {strict lax : Rule Value}
    (stricter : Stricter kind strict lax left given) (leaves : ∀ text, left text → left' text)
    (gives : ∀ text, given text → given' text) : Stricter kind strict lax left' given' :=
  ⟨stricter.formed, stricter.formedLax, fun sound clean =>
    (stricter.run sound clean).imp_right fun diverges => diverges.mono leaves gives⟩

/-- **Sequences.** Where the first parts go apart, the strict one misses. -/
theorem bind {strict lax : Rule First} {next nextLax : First → Rule Second}
    {opened : First → List Char → Prop} (first : Stricter kind strict lax Nowhere given)
    (second : ∀ value, Stricter kind (next value) (nextLax value) left (opened value))
    (opens : ∀ {before value after}, reads lax before = some (value, after) →
      opened value after.rest → given before.rest) :
    Stricter kind (strict >>= next) (lax >>= nextLax) left given := by
  refine ⟨first.formed.bind fun value => (second value).formed,
    first.formedLax.bind fun value => (second value).formedLax, fun {before} sound clean => ?_⟩
  have grown := first.formedLax.growing before
  -- Either the first parts do the same, or the strict one misses and so does the whole.
  have apart : Clean before (ending (lax before)) → strict before = lax before ∨
      Diverges kind left given before ((strict >>= next) before) := by
    intro cleanFirst
    refine (first.run sound cleanFirst).imp_right fun diverges => ?_
    obtain ⟨miss, after, missed, faulted, give⟩ := diverges.of_nowhere
    rw [run_bind, missed]
    exact .error faulted give
  rw [run_bind] at clean
  cases result : lax before with
  | ok value between =>
      rw [result] at clean grown apart
      have later := (second value).formedLax.growing between
      obtain ⟨cleanFirst, cleanSecond⟩ := clean.split grown.misses later.misses
      obtain ⟨read, soundBetween⟩ := first.formedLax.reads_of_ok sound result
      rcases apart cleanFirst with same | diverges
      · rw [run_bind, run_bind, same, result]
        exact ((second value).run soundBetween cleanSecond).imp_right fun diverges =>
          diverges.after_clean cleanFirst (opens read)
      · exact .inr diverges
  | error miss missed =>
      rw [result] at clean apart
      rcases apart clean with same | diverges
      · rw [run_bind, run_bind, same, result]
        exact .inl rfl
      · exact .inr diverges

/-- A sequence with one and the same first part. -/
theorem after {rule : Rule First} {next nextLax : First → Rule Second}
    {opened : First → List Char → Prop} (formed : Formed rule)
    (second : ∀ value, Stricter kind (next value) (nextLax value) left (opened value))
    (opens : ∀ {before value after}, reads rule before = some (value, after) →
      opened value after.rest → given before.rest) :
    Stricter kind (rule >>= next) (rule >>= nextLax) left given :=
  (refl formed).bind second opens

/-- A sequence that begins with the comments before an item. -/
theorem drainHead {next nextLax : Option String → Rule Value}
    (second : ∀ head, Stricter kind (next head) (nextLax head) left given) :
    Stricter kind (Parser.drainHead >>= next) (Parser.drainHead >>= nextLax) left given := by
  refine after .drainHead second fun {before value after} read give => ?_
  rw [reads_drainHead] at read
  obtain ⟨-, rfl⟩ := Prod.mk.inj (Option.some.inj read)
  exact give

/-- A sequence inside a rule whose beginning is known already. -/
theorem afterInside {rule : Rule First} {next nextLax : First → Rule Second} (formed : Formed rule)
    (second : ∀ value, Stricter kind (next value) (nextLax value) left Everywhere) :
    Stricter kind (rule >>= next) (rule >>= nextLax) left Everywhere :=
  after formed second fun _ _ => trivial

/-- A sequence with one and the same second part. -/
theorem bindSame {strict lax : Rule First} {next : First → Rule Second}
    (first : Stricter kind strict lax Nowhere given) (formed : ∀ value, Formed (next value)) :
    Stricter kind (strict >>= next) (lax >>= next) left given :=
  first.bind (fun value => refl (formed value)) fun _ (impossible : Nowhere _) => impossible.elim

/-- **Sequences that come to a halt.** On the texts that the strict first part leaves when it goes
its own way, the second part misses. -/
theorem bindStuck {strict lax : Rule First} {next : First → Rule Second} {left' : List Char → Prop}
    (first : Stricter kind strict lax left Nowhere) (quiet : ∀ value, Quiet (next value))
    (stuck : ∀ value (before : View), left before.rest → reads (next value) before = none) :
    Stricter kind (strict >>= next) (lax >>= next) left' Everywhere := by
  refine ⟨first.formed.bind fun value => (quiet value).formed,
    first.formedLax.bind fun value => (quiet value).formed, fun {before} sound clean => ?_⟩
  have grown := first.formedLax.growing before
  have cleanFirst : Clean before (ending (lax before)) := by
    rw [run_bind] at clean
    cases result : lax before with
    | ok value between =>
        simp only [result] at clean grown
        exact (clean.split_at between grown.misses ((quiet _).formed.growing between).misses).1
    | error miss missed =>
        simp only [result] at clean
        exact clean
  simp only [run_bind]
  rcases first.run sound cleanFirst with same | diverges
  · rw [same]
    exact .inl rfl
  · generalize result : strict before = outcome at diverges
    cases diverges with
    | error _ impossible => exact impossible.elim
    | @ok value between faulted leave =>
        have soundBetween := (first.formed.reads_of_ok sound result).2
        -- The second part misses on what the strict first part leaves, and rejects nothing.
        have records := (quiet value).clean between
        cases last : next value between with
        | ok found after =>
            have read := ((quiet value).formed.reads_of_ok soundBetween last).1
            rw [stuck value between.view leave] at read
            cases read
        | error miss after =>
            rw [last] at records
            simp only [last]
            exact .inr (.error (faulted.then_records (Clean.records records)) trivial)

/-- **Optional parts.** Where the strict rule goes its own way, the optional part is taken to be
left out, and what comes next leaves a text that shows it. -/
theorem bindAttempt {strict lax : Rule First} {next : Option First → Rule Second}
    {opened : List Char → Prop} (inner : Stricter kind strict lax Nowhere opened)
    (quiet : ∀ value, Quiet (next value))
    (passes : ∀ before : View, opened before.rest → ∃ value after,
      reads (next none) before = some (value, after) ∧ left after.rest) :
    Stricter kind (Parser.attempt strict >>= next) (Parser.attempt lax >>= next) left
      Everywhere := by
  refine ⟨inner.formed.attempt.bind fun value => (quiet value).formed,
    inner.formedLax.attempt.bind fun value => (quiet value).formed, fun {before} sound clean => ?_⟩
  have grown := inner.formedLax.growing before.checkpoint
  simp only [run_bind, attempt_eq inner.formed.growing, attempt_eq inner.formedLax.growing]
    at clean ⊢
  have cleanInner : Clean before.checkpoint (ending (lax before.checkpoint)) := by
    cases result : lax before.checkpoint with
    | ok value read =>
        simp only [result] at clean grown
        exact (Clean.split_at read clean grown.misses
          ((quiet _).formed.growing read.commit).misses).1
    | error miss missed =>
        simp only [result] at clean grown
        exact (Clean.split_at missed clean grown.misses
          ((quiet _).formed.growing (before.keeping missed.misses)).misses).1
  rcases inner.run sound.checkpoint cleanInner with same | diverges
  · rw [same]
    exact .inl rfl
  · obtain ⟨miss, missed, result, faulted, give⟩ := diverges.of_nowhere
    have faulted : Faulted kind before (before.keeping missed.misses) := faulted
    obtain ⟨value, view, read, leave⟩ := passes before.view give
    obtain ⟨after, ended, rfl, -⟩ :=
      (quiet none).formed.ok_of_reads (sound.keeping missed.misses) read
    have clean := (quiet none).clean (before.keeping missed.misses)
    simp only [result, ended] at clean ⊢
    exact .inr (.ok (faulted.then_records (Clean.records clean)) leave)

/-- **Repetitions.** Where the strict rule goes its own way, it reads no further items, and the
repetition ends there. -/
theorem many {strict lax : Rule Value} {shown : List Char → Prop}
    (item : Stricter kind strict lax left given)
    (stuck : ∀ {before : State}, before.Sound → left before.input.rest →
      ∃ miss after, strict before = .error miss after ∧ Records kind before after)
    (leaves : ∀ text, left text → shown text) (gives : ∀ text, given text → shown text) :
    Stricter kind (Parser.many strict) (Parser.many lax) shown Nowhere := by
  refine ⟨item.formed.many, item.formedLax.many, fun {before} sound clean => ?_⟩
  induction count : before.input.rest.length using Nat.strongRecOn generalizing before with
  | _ length ih =>
      -- The lax items reject nothing, neither the first one nor those behind it.
      obtain ⟨cleanItem, cleanRest⟩ := clean_of_many item.formedLax.growing clean
      rw [many_step item.formedLax.growing, many_step item.formed.growing]
      rcases item.run sound.checkpoint cleanItem with same | diverges
      · rw [same]
        cases result : lax before.checkpoint with
        | error miss missed => exact .inl rfl
        | ok value read =>
            rw [result] at cleanItem
            have cleanItem : Clean before read.commit := cleanItem
            have soundRead := (item.formedLax.reads_of_ok sound.checkpoint result).2.commit
            by_cases shorter : read.input.rest.length < before.input.rest.length
            · simp only [if_pos shorter]
              rcases ih _ (count ▸ shorter) soundRead (cleanRest result shorter) rfl with
                same | diverges
              · rw [same]
                exact .inl rfl
              · generalize Parser.many strict read.commit = outcome at diverges
                cases diverges with
                | ok faulted leave =>
                    exact .inr (.ok (.after_records cleanItem.records faulted) leave)
                | error _ impossible => exact impossible.elim
            · simp only [if_neg shorter, true_or]
      · generalize result : strict before.checkpoint = outcome at diverges
        cases diverges with
        | @error miss missed faulted give =>
            have faulted : Faulted kind before (before.keeping missed.misses) := faulted
            exact .inr (.ok faulted (gives _ give))
        | @ok value read faulted leave =>
            have faulted : Faulted kind before read.commit := faulted
            have soundRead := (item.formed.reads_of_ok sound.checkpoint result).2
            -- The strict repetition ends where its item has gone its own way.
            obtain ⟨miss, missed, idle, records⟩ := stuck soundRead.commit.checkpoint leave
            have records : Records kind read.commit (read.commit.keeping missed.misses) := records
            simp only [many_step item.formed.growing read.commit, idle]
            split
            · exact .inr (.ok (faulted.then_records records) (leaves _ leave))
            · exact .inr (.ok faulted (leaves _ leave))

/-- **Choices.** Where the strict one of the first forms goes its own way, the others miss. -/
theorem choice_cons {strict lax : Rule Value} {others othersLax : List (Rule Value)}
    {what : Expectation} {opened : List Char → Prop}
    (first : Stricter kind strict lax Nowhere opened)
    (later : Stricter kind (Parser.choice what others) (Parser.choice what othersLax) Nowhere given)
    (formed : ∀ other ∈ others, Formed other) (formedLax : ∀ other ∈ othersLax, Formed other)
    (stuck : ∀ {before : State}, before.Sound → opened before.input.rest →
      ∃ miss after, Parser.choice what others before = .error miss after ∧
        Records kind before after)
    (opens : ∀ text, opened text → given text) :
    Stricter kind (Parser.choice what (strict :: others)) (Parser.choice what (lax :: othersLax))
      Nowhere given := by
  refine ⟨.choice what (List.forall_mem_cons.mpr ⟨first.formed, formed⟩),
    .choice what (List.forall_mem_cons.mpr ⟨first.formedLax, formedLax⟩),
    fun {before} sound clean => ?_⟩
  have grown := first.formedLax.growing before.checkpoint
  rw [choice_cons_eq what first.formedLax.growing fun other member =>
    (formedLax other member).growing] at clean ⊢
  rw [choice_cons_eq what first.formed.growing fun other member => (formed other member).growing]
  -- The lax choice rejects nothing, so its first form does not either.
  have cleanFirst : Clean before.checkpoint (ending (lax before.checkpoint)) := by
    cases result : lax before.checkpoint with
    | ok value read =>
        simp only [result] at clean
        exact clean
    | error miss missed =>
        simp only [result] at clean grown
        exact (Clean.split_at missed clean grown.misses
          (later.formedLax.growing (before.keeping missed.misses)).misses).1
  rcases first.run sound.checkpoint cleanFirst with same | diverges
  · rw [same]
    cases result : lax before.checkpoint with
    | ok value read => exact .inl rfl
    | error miss missed =>
        simp only [result] at clean grown
        obtain ⟨cleanMissed, cleanLater⟩ := Clean.split_at (before.keeping missed.misses)
          clean grown.misses (later.formedLax.growing (before.keeping missed.misses)).misses
        exact (later.run (sound.keeping _) cleanLater).imp_right fun diverges =>
          diverges.after_clean cleanMissed id
  · obtain ⟨miss, missed, result, faulted, give⟩ := diverges.of_nowhere
    have faulted : Faulted kind before (before.keeping missed.misses) := faulted
    obtain ⟨miss', after, none, records⟩ := stuck (sound.keeping missed.misses) give
    simp only [result, none]
    exact .inr (.error (faulted.then_records records) (opens _ give))

/-- **Tables of alternatives.** Each alternative begins in a way of its own, as far as a key tells
that is made of the text. -/
theorem choice_of_keys {Entry Key : Type} (keyOf : List Char → Key) (key : Entry → Key)
    (strict lax : Entry → Rule Value) (what : Expectation) {table : List Entry}
    (each : ∀ entry ∈ table, Stricter kind (strict entry) (lax entry) Nowhere
      (keyOf · = key entry))
    (candid : ∀ entry ∈ table, Candid (strict entry) Nowhere (keyOf · = key entry))
    (missed : ∀ entry ∈ table, ∀ {before : View}, keyOf before.rest ≠ key entry →
      reads (strict entry) before = none)
    (apart : (table.map key).Nodup) :
    Stricter kind (Parser.choice what (table.map strict)) (Parser.choice what (table.map lax))
      Nowhere fun text => ∃ entry ∈ table, keyOf text = key entry := by
  induction table with
  | nil => exact refl (.choice what (by simp))
  | cons entry others ih =>
      obtain ⟨first, later⟩ := List.forall_mem_cons.mp each
      obtain ⟨-, candidLater⟩ := List.forall_mem_cons.mp candid
      obtain ⟨-, missedLater⟩ := List.forall_mem_cons.mp missed
      obtain ⟨fresh, distinct⟩ := List.nodup_cons.mp apart
      have formed : ∀ other ∈ others.map strict, Formed other :=
        List.forall_mem_map.mpr fun other member => (later other member).formed
      have rest : Stricter kind (Parser.choice what (others.map strict))
          (Parser.choice what (others.map lax)) Nowhere
          fun text => ∃ other ∈ entry :: others, keyOf text = key other :=
        (ih later candidLater missedLater distinct).mono (fun _ => id)
          fun _ ⟨other, member, same⟩ => ⟨other, List.mem_cons_of_mem entry member, same⟩
      have differs : (others.Pairwise fun first second =>
          Quiet (strict first) ∨ key first ≠ key second) :=
        (List.pairwise_map.mp distinct).imp .inr
      have shows := Candid.choice_of_keys keyOf key strict what candidLater missedLater differs
      refine first.choice_cons rest formed
        (List.forall_mem_map.mpr fun other member => (later other member).formedLax)
        (fun {before} sound begins => ?_) fun _ same => ⟨entry, by simp, same⟩
      -- The keys are distinct, so no other alternative begins with this text.
      have none : ∀ other ∈ others.map strict, reads other before.view = none := by
        refine List.forall_mem_map.mpr fun other member => missedLater other member fun same => ?_
        exact fresh (List.mem_map.mpr ⟨other, member, same.symm.trans begins⟩)
      cases result : Parser.choice what (others.map strict) before with
      | ok value after =>
          have read := (shows.formed.reads_of_ok sound result).1
          rw [reads_choice _ what formed, List.findSome?_eq_none_iff.mpr none] at read
          cases read
      | error miss after =>
          refine ⟨miss, after, rfl, ?_⟩
          rcases shows.error sound result with clean | ⟨other, member, same⟩
          · exact clean.records
          · exact absurd (List.mem_map.mpr ⟨other, member, same.symm.trans begins⟩) fresh

end Stricter

end ThriftIdl.Parser
