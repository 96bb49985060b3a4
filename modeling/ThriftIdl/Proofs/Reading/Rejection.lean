import ThriftIdl.Proofs.Grammar.Rejection
import ThriftIdl.Proofs.Reading.Sequence
import ThriftIdl.Proofs.Rule.Refusal

/-!
# A rejection decides the reading

A rejection outranks every other miss, so the best of the misses of a declaration is a rejection as
soon as there is one among them. Since no declaration comes of a rejection, the reading then ends
there, and its error says what was rejected. Main statement: `rejection_decides`.
-/

namespace ThriftIdl

/-! ## The best miss -/

namespace Miss

variable {best : Miss} {misses : List Miss}

/-- A miss is as good as itself. -/
theorem outranks_refl (miss : Miss) : miss.outranks miss = true :=
  (outranks_total miss miss).elim id id

/-- The better of two misses is one of them and outranks both. -/
theorem better_spec (miss other : Miss) :
    let better := miss.better (some other)
    (better = miss ∨ better = other) ∧ better.outranks miss = true ∧
      better.outranks other = true := by
  by_cases upper : miss.outranks other = true
  · simp only [better, if_pos upper]
    exact ⟨.inl trivial, outranks_refl miss, upper⟩
  · simp only [better, if_neg upper]
    exact ⟨.inr trivial, (outranks_total miss other).resolve_left upper, outranks_refl other⟩

/-- The best of several misses is one of them and outranks them all. -/
theorem best?_spec (found : best? misses = some best) :
    best ∈ misses ∧ ∀ miss ∈ misses, best.outranks miss = true := by
  induction misses generalizing best with
  | nil => cases found
  | cons miss earlier ih =>
      have step : some (miss.better (best? earlier)) = some best := found
      cases remaining : best? earlier with
      | none =>
          obtain rfl : earlier = [] := by
            cases earlier with
            | nil => rfl
            | cons other others => cases remaining
          rw [remaining] at step
          obtain rfl : miss = best := Option.some.inj step
          simp [outranks_refl]
      | some other =>
          obtain ⟨member, upper⟩ := ih remaining
          obtain ⟨chosen, upperFirst, upperOther⟩ := better_spec miss other
          rw [remaining] at step
          obtain rfl : miss.better (some other) = best := Option.some.inj step
          refine ⟨?_, List.forall_mem_cons.mpr ⟨upperFirst, fun each inside => ?_⟩⟩
          · rcases chosen with same | same <;> rw [same]
            · exact List.mem_cons_self
            · exact List.mem_cons_of_mem miss member
          · exact outranks_trans upperOther (upper each inside)

private theorem isRejection_of_outranks {miss other : Miss} (upper : miss.outranks other = true)
    (rejected : other.reason.isRejection = true) : miss.reason.isRejection = true := by
  unfold outranks at upper
  cases reason : miss.reason with
  | rejected why => rfl
  | expected what =>
      cases reason' : other.reason with
      | rejected why => simp [reason, reason'] at upper
      | expected what' => simp [reason', Reason.isRejection] at rejected

/-- Where something was rejected, the best miss is a rejection. -/
theorem best?_of_rejected {rejected : Miss} (member : rejected ∈ misses)
    (rejection : rejected.reason.isRejection = true) :
    ∃ best ∈ misses, best? misses = some best ∧ best.reason.isRejection = true := by
  cases found : best? misses with
  | none =>
      cases misses with
      | nil => cases member
      | cons miss earlier => cases found
  | some best =>
      obtain ⟨inside, upper⟩ := best?_spec found
      exact ⟨best, inside, rfl, isRejection_of_outranks (upper rejected member) rejection⟩

/-- What is reported is the best miss, if the failure ended with a miss that was recorded. -/
theorem reported_eq {last : Miss} (member : last ∈ misses) (found : best? misses = some best) :
    reported misses last = best := by
  rw [reported, found]
  exact if_pos ((best?_spec found).2 last member)

end Miss

namespace Parser

variable {options : Options} {source : String}

/-! ## What follows a sequence of declarations -/

private theorem Declares.trans {before between after : State}
    {declared later : List (Nat × Declaration)}
    (first : Declares options before declared between)
    (second : Declares options between later after) :
    Declares options before (declared ++ later) after := by
  induction first with
  | done => exact second
  | next unread matched _ ih => exact .next unread matched (ih second)

/-- A reading comes to a new declaration after a sequence of declarations. -/
theorem TopLevel.declares {state : State} (reached : TopLevel options source state) :
    ∃ declared, Declares options (openingState source) declared state := by
  induction reached with
  | start => exact ⟨[], .done _⟩
  | next _ unread matched ih =>
      obtain ⟨declared, declares⟩ := ih
      exact ⟨_, declares.trans (.next unread matched (.done _))⟩

/-- Wherever a declaration begins, the comment queues are in order. -/
theorem TopLevel.sound {state : State} (reached : TopLevel options source state) : state.Sound := by
  obtain ⟨declared, declares⟩ := reached.declares
  exact declares.sound (sound_openingState source)

/-- Where declarations are read up to the end of the text, it has a document. -/
theorem TopLevel.exists_parse_eq_ok {state : State} (reached : TopLevel options source state)
    {found : List Declaration} {last : View}
    (repeated : Grammar.Phrase.Repeated (Grammar.declaration options.duplicates) state.view found
      last) (ended : last.rest = []) :
    ∃ earlier, Declares options (openingState source) earlier state ∧
      Document.parse source options = .ok (.ofList (earlier.map Prod.snd ++ found)) := by
  obtain ⟨earlier, declares⟩ := reached.declares
  have front := declares.repeated (sound_openingState source)
  rw [view_openingState] at front
  exact ⟨earlier, declares, parse_eq_ok_iff.mpr ⟨_, _, front.append repeated, ended, rfl⟩⟩

/-- A reading fails as it does from a declaration on that it comes to. -/
theorem Declares.declarations_eq {before last : State} {declared : List (Nat × Declaration)}
    (declares : Declares options before declared last) (sound : before.Sound) :
    declarations options before =
      ⟨declared ++ (declarations options last).declared, (declarations options last).failure⟩ := by
  induction declares with
  | done => rfl
  | @next before between _ declared _ unread matched _ ih =>
      obtain ⟨-, soundBetween, shorter⟩ := declaration_of_ok sound matched
      have matched : declaration options.duplicates { before with misses := [] } =
          .ok declared between := matched
      rw [declarations.eq_def, if_neg (by simp [unread]), matched]
      simp only [if_pos shorter, ih soundBetween, List.cons_append]

/-- Where a declaration cannot be read, the text has no document, and the error is made there. -/
theorem TopLevel.parse_eq_error {state failed : State} {miss : Miss}
    (reached : TopLevel options source state) (unread : state.input.atEnd = false)
    (missed : declaration options.duplicates (state.keeping []) = .error miss failed) :
    Document.parse source options =
      .error (failed.syntaxError options.contextWidth miss) := by
  obtain ⟨declared, declares⟩ := reached.declares
  have missed : declaration options.duplicates { state with misses := [] } = .error miss failed :=
    missed
  unfold Document.parse Reading.document
  rw [ofSource_eq, declares.declarations_eq (sound_openingState source), declarations.eq_def options
    state, if_neg (by simp [unread]), missed]

/-! ## Rejections -/

/-- The miss that comes of a declaration is among those that are kept. -/
theorem mem_misses_of_declaration_error {duplicates : DuplicateIds} {before failed : State}
    {miss : Miss} (missed : declaration duplicates before = .error miss failed) :
    miss ∈ failed.misses := by
  rw [declaration, choice_eq (growing_declarationForms duplicates)] at missed
  split at missed
  · cases missed
  · cases missed
    exact List.mem_cons_self

/-- **The error says why a declaration was rejected**, if it was for one reason only. -/
theorem TopLevel.exists_error_of_rejects {state : State} {why : Rejection}
    (reached : TopLevel options source state) (unread : state.input.atEnd = false)
    (rejects : Rejects (· = why) (declaration options.duplicates) state.view) :
    ∃ error, Document.parse source options = .error error ∧ error.message = why.text := by
  obtain ⟨miss, failed, missed, added, misses, each, rejected, member, rejection⟩ :=
    rejects _ (reached.sound.keeping []) (State.view_keeping state [])
  have misses : failed.misses = added := misses.trans (List.append_nil added)
  obtain ⟨best, inside, found, isRejection⟩ := Miss.best?_of_rejected member rejection
  refine ⟨_, reached.parse_eq_error unread missed, ?_⟩
  cases reason : best.reason with
  | expected what =>
      rw [reason] at isRejection
      cases isRejection
  | rejected other =>
      obtain rfl := each best inside other reason
      have last := mem_misses_of_declaration_error missed
      rw [misses] at last
      rw [State.syntaxError, misses, Miss.reported_eq last found, Miss.message, reason]

/-- While a declaration is read that matches, no rejection is recorded. -/
theorem no_rejection_of_ok {duplicates : DuplicateIds} {state after : State}
    {declared : Declaration} (sound : state.Sound)
    (matched : declaration duplicates (state.keeping []) = .ok declared after) :
    ∀ miss ∈ after.misses, miss.reason.isRejection = false := by
  have clean := (Grammar.candid_declaration duplicates).ok (sound.keeping []) matched
  obtain ⟨added, misses, each⟩ := clean.resolve_right id
  intro miss member
  have inside : miss ∈ added := by simpa [misses, State.keeping] using member
  cases reason : miss.reason with
  | expected what => rfl
  | rejected why => exact (each miss inside why reason).elim

/-- **A rejected value is never read as something else.** Whatever rule is applied, the misses
recorded before are kept. Whenever the reading of a text comes to a declaration: if the declaration
is read, nothing was rejected on the way; and if anything was rejected, by whatever rule and
wherever reading went on from there, the text has no document, and the error says what was
rejected. -/
theorem rejection_decides (options : Options) (source : String) :
    (∀ {Value : Type} (rule : Rule Value), Formed rule → ∀ before : State,
      before.misses <:+ (ending (rule before)).misses) ∧
    ∀ state, TopLevel options source state → state.input.atEnd = false →
      (∀ declared after, declaration options.duplicates (state.keeping []) = .ok declared after →
        ∀ miss ∈ after.misses, miss.reason.isRejection = false) ∧
      ((∃ rejected ∈ (ending (declaration options.duplicates (state.keeping []))).misses,
          rejected.reason.isRejection = true) →
        ∃ best ∈ (ending (declaration options.duplicates (state.keeping []))).misses,
          best.reason.isRejection = true ∧ ∃ error,
            Document.parse source options = .error error ∧ error.message = best.message) := by
  refine ⟨fun rule formed before => (formed.growing before).misses, ?_⟩
  intro state reached unread
  refine ⟨fun declared after matched => no_rejection_of_ok reached.sound matched, ?_⟩
  rintro ⟨rejected, member, rejection⟩
  cases result : declaration options.duplicates (state.keeping []) with
  | ok declared after =>
      rw [result] at member
      rw [no_rejection_of_ok reached.sound result rejected member] at rejection
      cases rejection
  | error miss failed =>
      rw [result] at member
      obtain ⟨best, inside, found, isRejection⟩ := Miss.best?_of_rejected member rejection
      refine ⟨best, inside, isRejection, _, reached.parse_eq_error unread result, ?_⟩
      rw [State.syntaxError, Miss.reported_eq (mem_misses_of_declaration_error result) found]

/-- A default value out of range is no missing default value: the text has no document. -/
theorem rejection_decides_default_value :
    ∃ error, Document.parse "struct S \x7b 1: i32 a = 0xFFFFFFFFFFFFFFFFF \x7d" = .error error ∧
      ∃ miss : Miss, miss.reason.isRejection = true ∧ error.message = miss.message := by
  let source := "struct S \x7b 1: i32 a = 0xFFFFFFFFFFFFFFFFF \x7d"
  let state := openingState source
  have recorded : (ending (declaration .reject (state.keeping []))).misses.any
      (·.reason.isRejection) = true := by decide +kernel
  obtain ⟨rejected, member, rejection⟩ := List.any_eq_true.mp recorded
  obtain ⟨best, -, isRejection, error, parsed, message⟩ :=
    ((rejection_decides {} source).2 state .start (by decide +kernel)).2
      ⟨rejected, member, rejection⟩
  exact ⟨error, parsed, best, isRejection, message⟩

end Parser
end ThriftIdl
