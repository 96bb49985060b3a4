import ThriftIdl.Proofs.Reading.Sequence
import ThriftIdl.Proofs.Rule.Recursion
import ThriftIdl.Proofs.Rule.Steps

/-!
# Why a reading comes to an end

The rules for types and for literals apply themselves at later places only, the repetitions of the
grammar are of rules that progress, and so is the sequence of declarations. So the bound on the
nesting and the checks for progress in the model make no difference: without them its equations have
the same solutions and no others. Main statement: `parse_progress`.
-/

namespace ThriftIdl.Parser

open Source (Cursor Input)

/-! ## Types and literals -/

section Forms

variable {start : Input}

private theorem same_typeForms {inner other : Rule TypeRef} (formed : Formed inner)
    (same : SameWhere start.Precedes inner other) :
    List.Forall₂ (SameWhere start.Reaches) (typeForms inner) (typeForms other) := by
  have onward := onward_precedes start
  refine .cons ?map (.cons ?sequence (.cons (.refl _) .nil))
  case map =>
    exact .step (progresses_keyword (by decide)) fun _ =>
      (SameWhere.refl _).bind onward (.mark _) fun _ =>
      same.bind onward formed fun _ => (SameWhere.refl _).bind onward .separator fun _ =>
      same.bind onward formed fun _ => .refl _
  case sequence =>
    exact .step (progresses_words (by decide) (by decide)) fun _ =>
      (SameWhere.refl _).bind onward (.mark _) fun _ => same.bind onward formed fun _ => .refl _

private theorem same_literalForms {inner other : Rule Literal} (formed : Formed inner)
    (same : SameWhere start.Precedes inner other) :
    List.Forall₂ (SameWhere start.Reaches) (literalForms inner) (literalForms other) := by
  have onward := onward_precedes start
  have item : SameWhere start.Precedes (listItem inner) (listItem other) :=
    same.bind onward formed fun _ => .refl _
  have entry : SameWhere start.Precedes (mapEntry inner) (mapEntry other) :=
    same.bind onward formed fun _ => (SameWhere.refl _).bind onward (.mark _) fun _ =>
      same.bind onward formed fun _ => .refl _
  refine .cons (.refl _) <| .cons (.refl _) <| .cons (.refl _) <| .cons (.refl _) <|
    .cons (.refl _) <| .cons ?list <| .cons ?map <| .cons (.refl _) .nil
  case list =>
    exact .step (progresses_mark _) fun _ =>
      (item.many onward formed.listItem).bind onward formed.listItem.many fun _ => .refl _
  case map =>
    exact .step (progresses_mark _) fun _ =>
      (entry.many onward formed.mapEntry).bind onward formed.mapEntry.many fun _ => .refl _

end Forms

/-- Types nest: an inner type is read at a later place than the outer one. -/
theorem nested_type : Nested .type typeForms typeWithin where
  step _ := rfl
  formed := .typeWithin
  progresses := progresses_typeWithin
  formedForms := .typeForms
  same := same_typeForms

/-- Literals nest: an inner literal is read at a later place than the outer one. -/
theorem nested_literal : Nested .value literalForms literalWithin where
  step _ := rfl
  formed := .literalWithin
  progresses := progresses_literalWithin
  formedForms := .literalForms
  same := same_literalForms

/-! ## Declarations -/

/-- One round of reading declarations without a check for progress, given what is done after it. -/
def declarationsRound (options : Options) (loop : State → Reading) (state : State) : Reading :=
  if state.input.atEnd then ⟨[], none⟩
  else
    match declaration options.duplicates (state.keeping []) with
    | .error miss failed => ⟨[], some (failed.syntaxError options.contextWidth miss)⟩
    | .ok declared next =>
      let later := loop next
      ⟨(state.input.cursor.line, declared) :: later.declared, later.failure⟩

variable {options : Options}

/-- Reading declarations is one round of reading and then reading declarations. -/
theorem declarations_fixed :
    declarations options = declarationsRound options (declarations options) := by
  funext state
  rw [declarations.eq_def, declarationsRound]
  split
  · rfl
  · have same : ({ state with misses := [] } : State) = state.keeping [] := rfl
    rw [same]
    cases result : declaration options.duplicates (state.keeping []) with
    | error miss failed => rfl
    | ok declared next => exact if_pos (progresses_declaration _ result).shorter

/-- Declarations are read by the only function that does it round by round. -/
theorem declarationsRound_iff (loop : State → Reading) :
    loop = declarationsRound options loop ↔ loop = declarations options := by
  constructor
  · intro solves
    have same (length : Nat) (state : State) (short : state.input.rest.length < length) :
        loop state = declarations options state := by
      induction length generalizing state with
      | zero => omega
      | succ length ih =>
          rw [solves, declarations_fixed, declarationsRound, declarationsRound]
          split
          · rfl
          · cases result : declaration options.duplicates (state.keeping []) with
            | error miss failed => rfl
            | ok declared next =>
                have below : next.input.rest.length < state.input.rest.length :=
                  (progresses_declaration _ result).shorter
                simp only [ih next (by omega)]
    exact funext fun state => same _ state (Nat.lt_succ_self _)
  · rintro rfl
    exact declarations_fixed

/-- There are no more declarations than characters. -/
theorem Declares.length_add_le {before after : State} {declared : List (Nat × Declaration)}
    (declares : Declares options before declared after) :
    declared.length + after.input.rest.length ≤ before.input.rest.length := by
  induction declares with
  | done => simp
  | @next before between after _ _ _ matched _ ih =>
      have shorter : between.input.rest.length < before.input.rest.length :=
        (progresses_declaration _ matched).shorter
      rw [List.length_cons]
      omega

/-- The text that is left is no longer than the source. -/
theorem Reached.length_le {source : String} {first : Cursor} {state : State}
    (reached : Reached options source first state) :
    state.input.rest.length ≤ source.toList.length := by
  obtain ⟨before, split, -⟩ := reached.placed.input.1
  rw [split, List.length_append]
  omega

/-- **Every reading comes to an end by progress.** In whatever state they are applied, a match of a
declaration, an item, a type, a literal, an item of a list or an entry of a map ends at a later
place. The rules for types and literals apply themselves at later places only, and they are the only
solutions of their equations; so are the repetitions and the sequence of declarations without a
check for progress. In all states of the reading of a source text every bound on the nesting that
exceeds its length gives the same results. -/
theorem parse_progress (options : Options) (source : String) :
    Progresses (declaration options.duplicates) ∧
    Recurses .type typeForms typeRef ∧
    Recurses .value literalForms literal ∧
    Ends enumItem ∧ Ends field ∧ Ends (function options.duplicates) ∧
    Ends (listItem literal) ∧ Ends (mapEntry literal) ∧
    (∀ loop, loop = declarationsRound options loop ↔ loop = declarations options) ∧
    (Reading.ofSource options source).declared.length ≤ source.toList.length ∧
    ∀ first state, Reached options source first state →
      ∀ bound, source.toList.length < bound →
        typeWithin bound state = typeRef state ∧ literalWithin bound state = literal state := by
  refine ⟨progresses_declaration _, nested_type.recurses (fun _ => rfl) .typeRef,
    nested_literal.recurses (fun _ => rfl) .literal, progresses_enumItem.ends .enumItem,
    progresses_field.ends .field, (progresses_function _).ends (.function _),
    (progresses_listItem progresses_literal).ends Formed.literal.listItem,
    (progresses_mapEntry .literal progresses_literal).ends Formed.literal.mapEntry,
    declarationsRound_iff, ?_, fun first state reached bound enough => ?_⟩
  · obtain ⟨last, declares, -⟩ := declarations_spec options (sound_openingState source)
    have bounded := declares.length_add_le
    obtain ⟨count, opened⟩ := input_openingState source
    have shorter := (Input.ofString source).length_advance_le count
    have whole : (Input.ofString source).rest.length = source.toList.length := rfl
    rw [ofSource_eq]
    rw [opened] at bounded
    omega
  · have short := reached.length_le
    exact ⟨nested_type.within_eq (by omega) (Nat.lt_succ_self _),
      nested_literal.within_eq (by omega) (Nat.lt_succ_self _)⟩

/-- A list in a list: a bound of two is not enough for it, and one above the length of the text
is. -/
theorem parse_progress_nested_list :
    Reached {} "[[1]]" .start (.ofString "[[1]]") ∧
    ((literalWithin 2).run' (.ofString "[[1]]")).isSome = false ∧
    (literal.run' (.ofString "[[1]]")).isSome = true ∧
    literalWithin 6 (.ofString "[[1]]") = literal (.ofString "[[1]]") := by
  have reached : Reached {} "[[1]]" .start (.ofString "[[1]]") := .start
  obtain ⟨-, -, -, -, -, -, -, -, -, -, bounded⟩ := parse_progress {} "[[1]]"
  exact ⟨reached, by decide +kernel, by decide +kernel,
    (bounded _ _ reached 6 (by decide)).2⟩

end ThriftIdl.Parser
