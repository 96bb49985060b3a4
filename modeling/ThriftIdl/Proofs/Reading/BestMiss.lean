import ThriftIdl.Proofs.Reading.Places

/-!
# The miss that an error reports

While a declaration is read, misses are recorded in the order in which rules are tried, also inside
alternatives that are taken back afterwards, and of two equally good misses the later one is kept.
What has been kept when the declaration turns out to be unreadable is therefore the last of the best
misses of the whole attempt. Main statements: `Miss.furthest_eq_some_iff` and `error_reports_best`.
-/

namespace ThriftIdl

/-! ## Keeping the best miss -/

namespace Miss

variable {best miss other : Miss} {recorded : List Miss}

/-- **What makes a better diagnosis**: a rejection is better than an unmet expectation, and of two
misses of one sort the one further on is. -/
theorem outranks_iff : miss.outranks other = true ↔
    (miss.reason.isRejection ∧ ¬other.reason.isRejection) ∨
      (miss.reason.isRejection = other.reason.isRejection ∧ other.offset ≤ miss.offset) := by
  unfold outranks
  cases miss.reason <;> cases other.reason <;> simp [Reason.isRejection]

/-- The miss that is kept after several have been recorded one after the other. -/
def furthest (recorded : List Miss) : Option Miss :=
  recorded.foldl (fun kept miss => some (miss.better kept)) none

/-- The last of the best misses of a list: it outranks all of them, and none behind it outranks
it. -/
def IsLastBest (recorded : List Miss) (best : Miss) : Prop :=
  ∃ earlier later, recorded = earlier ++ best :: later ∧
    (∀ miss ∈ recorded, best.outranks miss = true) ∧ ∀ miss ∈ later, miss.outranks best = false

private theorem best?_eq_furthest (misses : List Miss) :
    best? misses = furthest misses.reverse := by
  rw [best?, furthest, List.foldl_reverse]

private theorem furthest_append_singleton (recorded : List Miss) (miss : Miss) :
    furthest (recorded ++ [miss]) = some (miss.better (furthest recorded)) := by
  rw [furthest, List.foldl_append]
  rfl

/-- The first miss is kept, whatever it is. -/
theorem furthest_eq_none_iff : furthest recorded = none ↔ recorded = [] := by
  induction recorded using List.reverseRecOn with
  | nil => exact iff_of_true rfl rfl
  | append_singleton recorded miss _ => simp [furthest_append_singleton]

namespace IsLastBest

private theorem mem (isLast : IsLastBest recorded best) : best ∈ recorded := by
  obtain ⟨earlier, later, rfl, -, -⟩ := isLast
  simp

private theorem outranks (isLast : IsLastBest recorded best) :
    ∀ miss ∈ recorded, best.outranks miss = true := by
  obtain ⟨-, -, -, upper, -⟩ := isLast
  exact upper

/-- A miss that is as good as the best one takes its place. -/
theorem append_of_outranks (isLast : IsLastBest recorded best)
    (upper : miss.outranks best = true) : IsLastBest (recorded ++ [miss]) miss := by
  refine ⟨recorded, [], rfl, fun each member => ?_, by simp⟩
  rcases List.mem_append.mp member with member | member
  · exact outranks_trans upper (isLast.outranks each member)
  · rw [List.mem_singleton.mp member]
    exact outranks_refl miss

/-- A miss that is not as good as the best one changes nothing. -/
theorem append_of_not_outranks (isLast : IsLastBest recorded best)
    (lower : miss.outranks best = false) : IsLastBest (recorded ++ [miss]) best := by
  have upper : best.outranks miss = true :=
    (outranks_total best miss).resolve_right (by simp [lower])
  obtain ⟨earlier, later, rfl, all, behind⟩ := isLast
  refine ⟨earlier, later ++ [miss], by simp, ?_, ?_⟩
  · intro each member
    rcases List.mem_append.mp member with member | member
    · exact all each member
    · rw [List.mem_singleton.mp member]
      exact upper
  · intro each member
    rcases List.mem_append.mp member with member | member
    · exact behind each member
    · rw [List.mem_singleton.mp member]
      exact lower

/-- Of two last best misses neither can stand behind the other. -/
theorem unique (first : IsLastBest recorded best) (second : IsLastBest recorded other) :
    best = other := by
  have upper := first.outranks other second.mem
  have upper' := second.outranks best first.mem
  obtain ⟨earlier, later, rfl, -, behind⟩ := first
  obtain ⟨earlier', later', same, -, behind'⟩ := second
  rcases List.append_eq_append_iff.mp same with ⟨between, -, rest⟩ | ⟨between, -, rest⟩
  · cases between with
    | nil => exact (List.cons.inj rest).1
    | cons first others =>
        have inside : other ∈ later := by simp [(List.cons.inj rest).2]
        rw [behind other inside] at upper'
        cases upper'
  · cases between with
    | nil => exact (List.cons.inj rest).1.symm
    | cons first others =>
        have inside : best ∈ later' := by simp [(List.cons.inj rest).2]
        rw [behind' best inside] at upper
        cases upper

end IsLastBest

/-- What is kept is the last of the best misses. -/
theorem isLastBest_of_furthest (kept : furthest recorded = some best) :
    IsLastBest recorded best := by
  induction recorded using List.reverseRecOn generalizing best with
  | nil => cases kept
  | append_singleton recorded miss ih =>
      rw [furthest_append_singleton, Option.some.injEq] at kept
      cases before : furthest recorded with
      | none =>
          obtain rfl := furthest_eq_none_iff.mp before
          obtain rfl : miss = best := by rw [before] at kept; exact kept
          exact ⟨[], [], rfl, by simp [outranks_refl], by simp⟩
      | some other =>
          rw [before, better] at kept
          split at kept
          · next upper =>
              subst kept
              exact (ih before).append_of_outranks upper
          · next lower =>
              subst kept
              exact (ih before).append_of_not_outranks (by simpa using lower)

/-- **The miss that is kept** is the last of the best misses recorded. -/
theorem furthest_eq_some_iff : furthest recorded = some best ↔ IsLastBest recorded best := by
  refine ⟨isLastBest_of_furthest, fun isLast => ?_⟩
  have some : furthest recorded ≠ none := fun none =>
    List.ne_nil_of_mem isLast.mem (furthest_eq_none_iff.mp none)
  obtain ⟨kept, found⟩ := Option.ne_none_iff_exists'.mp some
  rw [found, (isLastBest_of_furthest found).unique isLast]

end Miss

namespace Parser

open Relation (ReflTransGen)

variable {options : Options} {source : String}

/-! ## What an attempt records -/

/-- From one state to another a reading goes step by step and records misses on the way, given in
the order in which they are recorded. What is taken back stays on the way. -/
inductive Recording (first : State) : List Miss → State → Prop
  | start : Recording first [] first
  | miss {recorded : List Miss} {state : State} (reason : Reason) :
      Recording first recorded state →
      Recording first (recorded ++ [state.missFor reason])
        (state.keeping (state.missFor reason :: state.misses))
  | silent {recorded : List Miss} {state next : State} : Recording first recorded state →
      Step state next →
      (∀ reason, next ≠ state.keeping (state.missFor reason :: state.misses)) →
      Recording first recorded next

private theorem misses_rollback (state : State) : state.rollback.misses = state.misses := by
  unfold State.rollback
  split <;> rfl

/-- **A step records at most one miss**, and no step drops any. -/
theorem Step.misses {state next : State} (step : Step state next) :
    next.misses = state.misses ∨
      ∃ reason, next = state.keeping (state.missFor reason :: state.misses) := by
  cases step with
  | missFor reason => exact .inr ⟨reason, rfl⟩
  | rollback => exact .inl (misses_rollback state)
  | _ => exact .inl rfl

namespace Recording

variable {first state next : State} {recorded : List Miss}

/-- The misses kept in a state are those recorded on the way to it. -/
theorem misses (recording : Recording first recorded state) :
    state.misses = recorded.reverse ++ first.misses := by
  induction recording with
  | start => rfl
  | miss reason _ ih =>
      rw [List.reverse_append, List.append_assoc, ← ih]
      rfl
  | silent _ step quiet ih =>
      rcases step.misses with same | ⟨reason, same⟩
      · rw [same, ih]
      · exact absurd same (quiet reason)

/-- Two ways from one state to another record the same. -/
theorem unique {others : List Miss} (recording : Recording first recorded state)
    (recording' : Recording first others state) : recorded = others := by
  have same := recording.misses.symm.trans recording'.misses
  exact List.reverse_injective (List.append_cancel_right same)

private theorem exists_of_steps (steps : ReflTransGen Step first state) :
    ∃ recorded, Recording first recorded state := by
  induction steps with
  | refl => exact ⟨[], .start⟩
  | @tail state next _ step ih =>
      obtain ⟨recorded, recording⟩ := ih
      by_cases records : ∃ reason, next = state.keeping (state.missFor reason :: state.misses)
      · obtain ⟨reason, rfl⟩ := records
        exact ⟨_, recording.miss reason⟩
      · exact ⟨recorded, recording.silent step fun reason same => records ⟨reason, same⟩⟩

end Recording

/-- What every single alternative of a failed choice has recorded is still there at the end. -/
theorem tryEach_missed {Value : Type} {rules : List (Rule Value)}
    (growing : ∀ rule ∈ rules, Growing rule) {state : State} {misses missed : List Miss}
    (failed : tryEach state misses rules = .inr missed) :
    ∀ rule ∈ rules, ∃ tried miss after,
      rule (state.checkpoint.keeping tried) = .error miss after ∧ after.misses <:+ missed := by
  induction rules generalizing misses with
  | nil => simp
  | cons rule others ih =>
      obtain ⟨here, later⟩ := List.forall_mem_cons.mp growing
      rw [tryEach] at failed
      cases result : rule (state.checkpoint.keeping misses) with
      | ok value read => simp [result] at failed
      | error miss after =>
          simp only [result] at failed
          have kept : (state.keeping after.misses).misses = after.misses := rfl
          have grown := tryEach_grows later
            (List.suffix_rfl : (state.keeping after.misses).misses <:+ after.misses)
          rw [tryEach_keeping, kept, failed] at grown
          exact List.forall_mem_cons.mpr ⟨⟨misses, miss, after, result, grown⟩, ih later failed⟩

/-- A declaration that cannot be read has tried all its forms, and what they have recorded is
kept. -/
theorem forms_of_declaration_error {duplicates : DuplicateIds} {before failed : State} {last : Miss}
    (missed : declaration duplicates before = .error last failed) :
    ∀ form ∈ declarationForms duplicates, ∃ tried miss after,
      form (before.checkpoint.keeping tried) = .error miss after ∧
        ∀ each ∈ after.misses, each ∈ failed.misses := by
  have growing := growing_declarationForms duplicates
  rw [declaration, choice_eq growing] at missed
  split at missed
  · cases missed
  · next kept tried =>
      cases missed
      intro form member
      obtain ⟨before, miss, after, result, inside⟩ := tryEach_missed growing tried form member
      exact ⟨before, miss, after, result, fun each among =>
        List.mem_cons_of_mem _ (inside.subset among)⟩

/-- The error for a declaration says what the miss that is kept says. -/
theorem message_of_furthest {state : State} {recorded : List Miss} {best : Miss}
    (misses : state.misses = recorded.reverse) (kept : Miss.furthest recorded = some best)
    {last : Miss} (member : last ∈ state.misses) (width : Nat) :
    (state.syntaxError width last).message = best.message := by
  have found : Miss.best? state.misses = some best := by
    rw [misses, Miss.best?_eq_furthest, List.reverse_reverse, kept]
  rw [State.syntaxError, Miss.reported_eq member found]

/-- **An error reports the last of the best misses** of the declaration that cannot be read. Which
of two misses is better is decided by their sort and then by their places, and this is a total
preorder.

The declaration begins where the reading has come to, and what is recorded from there on is
determined. All forms of a declaration have been tried and have missed; whatever they have recorded
belongs to it, and so does the miss that the choice among them returns. The miss that is kept in the
meantime is the last of the best, hence there is one, and it is at least as good as the one that is
returned. Its message is the one that is reported, whatever misses of earlier declarations were
still around. -/
theorem error_reports_best {error : SyntaxError}
    (failed : Document.parse source options = .error error) :
    (∀ miss other : Miss, miss.outranks other = true ↔
      (miss.reason.isRejection ∧ ¬other.reason.isRejection) ∨
        (miss.reason.isRejection = other.reason.isRejection ∧ other.offset ≤ miss.offset)) ∧
    (∀ miss other : Miss, miss.outranks other = true ∨ other.outranks miss = true) ∧
    (∀ first second third : Miss, first.outranks second = true → second.outranks third = true →
      first.outranks third = true) ∧
    ∃ start last missed recorded, Declares options (openingState source)
        (Reading.ofSource options source).declared start ∧
      declaration options.duplicates (start.keeping []) = .error last missed ∧
      Recording (start.keeping []) recorded missed ∧
      (∀ others, Recording (start.keeping []) others missed → others = recorded) ∧
      (∀ form ∈ declarationForms options.duplicates, ∃ tried miss after,
        form ((start.keeping []).checkpoint.keeping tried) = .error miss after ∧
          ∀ each ∈ after.misses, each ∈ recorded) ∧
      last ∈ recorded ∧
      (∃ best, Miss.furthest recorded = some best ∧ Miss.IsLastBest recorded best ∧
        best.outranks last = true ∧ error.message = best.message) ∧
      ∀ misses, (declarations options (start.keeping misses)).failure = some error := by
  refine ⟨fun _ _ => Miss.outranks_iff, Miss.outranks_total, fun _ _ _ => Miss.outranks_trans, ?_⟩
  obtain ⟨start, last, missed, declares, unread, result, rfl⟩ := declares_of_parse_error failed
  -- The declaration begins without misses, so those it ends with are the ones it has recorded.
  have steps := (Formed.declaration options.duplicates).stepwise (start.keeping [])
  rw [result] at steps
  obtain ⟨recorded, recording⟩ : ∃ recorded, Recording (start.keeping []) recorded missed :=
    Recording.exists_of_steps steps
  have misses : missed.misses = recorded.reverse := by
    rw [recording.misses]
    exact List.append_nil _
  have member {miss : Miss} (kept : miss ∈ missed.misses) : miss ∈ recorded := by
    rwa [misses, List.mem_reverse] at kept
  have lastKept := mem_misses_of_declaration_error result
  have lastIn : last ∈ recorded := member lastKept
  have some : Miss.furthest recorded ≠ none := fun none =>
    List.ne_nil_of_mem lastIn (Miss.furthest_eq_none_iff.mp none)
  obtain ⟨best, kept⟩ := Option.ne_none_iff_exists'.mp some
  have isLast := Miss.furthest_eq_some_iff.mp kept
  refine ⟨start, last, missed, recorded, declares, result, recording,
    fun _ other => other.unique recording, ?_, lastIn,
    ⟨best, kept, isLast, isLast.outranks last lastIn,
      message_of_furthest misses kept lastKept _⟩, ?_⟩
  · intro form among
    obtain ⟨tried, miss, after, ended, inside⟩ := forms_of_declaration_error result form among
    exact ⟨tried, miss, after, ended, fun each kept => member (inside each kept)⟩
  · intro misses
    -- A declaration forgets the misses that it begins with.
    have again : declaration options.duplicates ((start.keeping misses).keeping []) =
        .error last missed := result
    have unread : (start.keeping misses).input.atEnd = false := unread
    rw [declarations_of_error unread again]

/-- Several rules miss at the figure on the second line, and the last of these misses is reported,
not the one of the whole declaration, which comes later but lies further back. -/
theorem error_reports_best_tie :
    ∃ error start last missed recorded best,
      Document.parse "typedef i32 a\ntypedef 5" = .error error ∧
      Declares {} (openingState "typedef i32 a\ntypedef 5")
        (Reading.ofSource {} "typedef i32 a\ntypedef 5").declared start ∧
      declaration .reject (start.keeping []) = .error last missed ∧
      Recording (start.keeping []) recorded missed ∧ Miss.IsLastBest recorded best ∧
      error.message = best.message ∧ best.message = "unexpected `5`, expected type" := by
  have unreadable : (Reading.ofSource {} "typedef i32 a\ntypedef 5").failure.map
      SyntaxError.message = some "unexpected `5`, expected type" := by decide +kernel
  obtain ⟨error, failure, message⟩ := Option.map_eq_some_iff.mp unreadable
  have failed := parse_eq_error_iff.mpr failure
  obtain ⟨-, -, -, start, last, missed, recorded, declares, result, recording, -, -, -,
    ⟨best, -, isLast, -, same⟩, -⟩ := error_reports_best failed
  exact ⟨error, start, last, missed, recorded, best, failed, declares, result, recording, isLast,
    same, same ▸ message⟩

end Parser
end ThriftIdl
