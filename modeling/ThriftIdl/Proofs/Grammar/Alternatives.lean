import ThriftIdl.Proofs.Grammar.Literal
import ThriftIdl.Proofs.Rule.Progress

/-!
# The order of the alternatives of a literal

The beginning of a text leaves at most one of the eight forms of a literal possible, except that a
truth value is spelt as a path whose first segment it is. So the forms may be tried in any order, as
long as truth values come before references. Main statement: `literal_alternatives`.
-/

namespace ThriftIdl

open ThriftIdl.Grammar (formOf LiteralForm IsTruthValue leadingWord)

namespace Parser

variable {Value First Second : Type}

/-- What begins with a mark is missed where the mark does not stand. -/
theorem missed_mark {char : Char} {next : Unit → Rule Value} {view : View}
    (later : ∀ value, Formed (next value)) (absent : view.rest.head? ≠ some char) :
    reads (mark char >>= next) view = none := by
  rw [reads_bind view next (.mark char) later, Grammar.reads_mark, if_neg absent, Option.bind_none]

/-! ## The eight forms -/

/-- The forms of a literal. -/
inductive Alternative
  | hex
  | exponent
  | decimal
  | bool
  | string
  | list
  | map
  | reference
deriving DecidableEq

namespace Alternative

/-- The forms in the order in which they are tried. -/
def all : List Alternative :=
  [hex, exponent, decimal, bool, string, list, map, reference]

/-- The rule for a form, given the rule for the literals inside lists and maps. -/
def rule (inner : Rule Literal) : Alternative → Rule Literal
  | hex => hexLiteral
  | exponent => exponentLiteral
  | decimal => decimalNumber
  | bool => boolLiteral
  | string => stringLiteral
  | list => listLiteral inner
  | map => mapLiteral inner
  | reference => refLiteral

/-- What the beginning of a text has to be for a form. -/
def form : Alternative → LiteralForm
  | hex => .hex
  | exponent => .exponent
  | decimal => .decimal
  | string => .string
  | list => .list
  | map => .map
  | bool | reference => .word

private theorem mem_all (alternative : Alternative) : alternative ∈ all := by
  cases alternative <;> decide

private theorem map_rule_all (inner : Rule Literal) :
    all.map (rule inner) = literalForms inner := rfl

private theorem formed {inner : Rule Literal} (formed : Formed inner) (alternative : Alternative) :
    Formed (alternative.rule inner) :=
  formed.literalForms _ (map_rule_all inner ▸ List.mem_map_of_mem alternative.mem_all)

/-- **A form is missed** where the text begins in another way. -/
theorem missed {inner : Rule Literal} (formed : Formed inner) (alternative : Alternative)
    {view : View} (other : formOf view.rest ≠ some alternative.form) :
    reads (alternative.rule inner) view = none := by
  cases alternative with
  | hex =>
      exact (Grammar.agrees_hexNumber.map Literal.hex).missed
        (Grammar.Phrase.Starts.map Grammar.formOf_hex) other
  | exponent =>
      exact (Grammar.agrees_exponentNumber.map Literal.exponent).missed
        (Grammar.Phrase.Starts.map Grammar.formOf_exponent) other
  | decimal => exact Grammar.agrees_decimalNumber.missed Grammar.formOf_decimal other
  | bool => exact Grammar.agrees_boolLiteral.missed Grammar.formOf_bool other
  | string => exact Grammar.agrees_stringLiteral.missed Grammar.formOf_string other
  | list =>
      apply missed_mark fun _ => formed.listItem.many.bind fun _ => (Formed.close _).bind fun _ =>
        .pure _
      intro opens
      obtain ⟨rest, same⟩ := List.head?_eq_some_iff.mp opens
      exact other (by rw [same]; rfl)
  | map =>
      apply missed_mark fun _ => formed.mapEntry.many.bind fun _ => (Formed.close _).bind fun _ =>
        .pure _
      intro opens
      obtain ⟨rest, same⟩ := List.head?_eq_some_iff.mp opens
      exact other (by rw [same]; rfl)
  | reference =>
      exact (Grammar.agrees_path.map Literal.ref).missed
        (Grammar.Phrase.Starts.map Grammar.formOf_path) other

private theorem form_of_reads {inner : Rule Literal} (formed : Formed inner)
    {alternative : Alternative}
    {view : View} (read : (reads (alternative.rule inner) view).isSome) :
    formOf view.rest = some alternative.form := by
  by_contra other
  rw [alternative.missed formed other] at read
  cases read

/-- Forms with one beginning are the same, or they are truth values and references. -/
theorem eq_or_words {first second : Alternative} (same : first.form = second.form) :
    first = second ∨ (first = .bool ∨ first = .reference) ∧
      (second = .bool ∨ second = .reference) := by
  revert same
  cases first <;> cases second <;> decide

/-- **At most one form is read**, truth values and references apart. -/
theorem apart {inner : Rule Literal} (formed : Formed inner) {first second : Alternative}
    {view : View} (differ : first ≠ second) (read : (reads (first.rule inner) view).isSome)
    (read' : (reads (second.rule inner) view).isSome) :
    (first = .bool ∨ first = .reference) ∧ (second = .bool ∨ second = .reference) := by
  have forms : some first.form = some second.form :=
    (form_of_reads formed read).symm.trans (form_of_reads formed read')
  exact (eq_or_words (Option.some.inj forms)).resolve_left differ

/-- A path can be read wherever a text begins as an identifier does. -/
theorem exists_reads_path {view : View} (begins : view.rest.head?.any isIdentStart) :
    ∃ segments after, reads path view = some (segments, after) := by
  obtain ⟨nonempty, identifiers, more, same, ended⟩ := Grammar.pathSegments_spec begins
  exact ⟨_, _, Grammar.agrees_path.always.mpr
    ⟨_, more, same, ⟨_, nonempty, identifiers, rfl, rfl⟩, ended, rfl⟩⟩

private theorem reads_reference_iff {view after : View} {value : Literal} :
    reads refLiteral view = some (value, after) ↔
      ∃ segments, reads path view = some (segments, after) ∧ value = .ref segments := by
  have reference : Grammar.Agrees refLiteral (Literal.ref <$> Grammar.path) Grammar.anything :=
    Grammar.agrees_path.map _
  rw [reference.always, Grammar.Phrase.map_iff]
  simp only [Grammar.agrees_path.always]

private theorem reads_bool_iff {view : View} : (reads boolLiteral view).isSome ↔
    leadingWord view.rest = "true".toList ∨ leadingWord view.rest = "false".toList := by
  have missed : reads boolLiteral view = none ↔ _ :=
    Grammar.reads_words_eq_none Grammar.agrees_boolLiteral
  rw [← not_iff_not, Bool.not_eq_true, Option.isSome_eq_false_iff, Option.isNone_iff_eq_none,
    missed, not_or]
  simp only [List.forall_mem_cons, List.not_mem_nil, false_implies, implies_true, and_true]

/-- **Where a truth value is read**, a reference could be read whose first segment it is. -/
theorem reads_bool_iff_reference {view : View} : (reads boolLiteral view).isSome ↔
    ∃ segments after, reads refLiteral view = some (.ref segments, after) ∧
      IsTruthValue segments := by
  have truth {segments : List String} {after : View}
      (here : reads path view = some (segments, after)) :
      IsTruthValue segments ↔ (reads boolLiteral view).isSome := by
    rw [reads_bool_iff, IsTruthValue, Grammar.head?_of_path (Grammar.agrees_path.always.mp here),
      Option.some.injEq, Option.some.injEq, ← String.toList_inj, ← String.toList_inj,
      String.toList_ofList]
  constructor
  · intro read
    obtain ⟨⟨value, after⟩, here⟩ := Option.isSome_iff_exists.mp read
    have begins := Grammar.Lexeme.starts_words (Grammar.agrees_boolLiteral.always.mp here)
    obtain ⟨segments, after, path⟩ := exists_reads_path begins
    have reference := reads_reference_iff.mpr ⟨segments, path, rfl⟩
    exact ⟨segments, after, reference, (truth path).mpr read⟩
  · rintro ⟨segments, after, read, isTruth⟩
    obtain ⟨_, path, same⟩ := reads_reference_iff.mp read
    cases same
    exact (truth path).mp isTruth

end Alternative

/-! ## Rules that read the same -/

/-- Two rules that read the same from every view. -/
structure SameReads (rule other : Rule Value) : Prop where
  formed : Formed rule
  formed' : Formed other
  reads : ∀ view, reads rule view = reads other view

namespace SameReads

private theorem refl {rule : Rule Value} (formed : Formed rule) : SameReads rule rule :=
  ⟨formed, formed, fun _ => rfl⟩

private theorem bind {rule other : Rule First} {next later : First → Rule Second}
    (first : SameReads rule other) (second : ∀ value, SameReads (next value) (later value)) :
    SameReads (rule >>= next) (other >>= later) := by
  refine ⟨first.formed.bind fun value => (second value).formed,
    first.formed'.bind fun value => (second value).formed', fun view => ?_⟩
  rw [reads_bind view next first.formed fun value => (second value).formed,
    reads_bind view later first.formed' fun value => (second value).formed', first.reads]
  simp only [(second _).reads]

private theorem bindSame {rule other : Rule First} {next : First → Rule Second}
    (first : SameReads rule other) (formed : ∀ value, Formed (next value)) :
    SameReads (rule >>= next) (other >>= next) :=
  first.bind fun value => .refl (formed value)

private theorem after {rule : Rule First} {next later : First → Rule Second} (formed : Formed rule)
    (second : ∀ value, SameReads (next value) (later value)) :
    SameReads (rule >>= next) (rule >>= later) :=
  (refl formed).bind second

/-- Repetitions read the same: each item is read from a shorter text. -/
theorem many {rule other : Rule Value} (item : SameReads rule other) :
    SameReads (many rule) (many other) := by
  refine ⟨item.formed.many, item.formed'.many, fun view => ?_⟩
  induction size : view.rest.length using Nat.strongRecOn generalizing view with
  | _ size ih =>
      rw [reads_many view item.formed, reads_many view item.formed', item.reads]
      cases Parser.reads other view with
      | none => rfl
      | some read =>
          by_cases shorter : read.2.rest.length < view.rest.length
          · simp only [if_pos shorter, ih _ (size ▸ shorter) _ rfl]
          · simp only [if_neg shorter]

end SameReads

/-- Lists and maps read the same if the literals inside them do. -/
theorem Alternative.sameReads {inner other : Rule Literal} (same : SameReads inner other)
    (alternative : Alternative) : SameReads (alternative.rule inner) (alternative.rule other) := by
  have item : SameReads (listItem inner) (listItem other) :=
    same.bindSame fun _ => Formed.separator.bind fun _ => .pure _
  have entry : SameReads (mapEntry inner) (mapEntry other) :=
    same.bind fun key => .after (.mark _) fun _ =>
      same.bindSame fun value => Formed.separator.bind fun _ => .pure _
  cases alternative with
  | list =>
      exact .after (.mark _) fun _ => item.many.bindSame fun _ => (Formed.close _).bind fun _ =>
        .pure _
  | map =>
      exact .after (.mark _) fun _ => entry.many.bindSame fun _ => (Formed.close _).bind fun _ =>
        .pure _
  | hex => exact .refl (formed same.formed .hex)
  | exponent => exact .refl (formed same.formed .exponent)
  | decimal => exact .refl (formed same.formed .decimal)
  | bool => exact .refl (formed same.formed .bool)
  | string => exact .refl (formed same.formed .string)
  | reference => exact .refl (formed same.formed .reference)

/-! ## Tables in another order -/

/-- An order in which the forms of a literal may be tried. -/
structure Order where
  forms : List Alternative
  /-- Every form is tried once. -/
  complete : forms.Perm Alternative.all
  /-- Truth values are tried before references. -/
  wordsFirst : [.bool, .reference].Sublist forms

namespace Order

/-- The order of the grammar. -/
def standard : Order where
  forms := Alternative.all
  complete := .refl _
  wordsFirst := by decide

/-- A literal that is nested less deeply than a bound, its forms tried in a given order. -/
def literalWithin (order : Order) : Nat → Rule Literal
  | 0 => expected .value
  | depth + 1 => choice .value (order.forms.map (Alternative.rule (order.literalWithin depth)))

/-- A literal whose forms are tried in a given order, inside lists and maps as well. -/
def literal (order : Order) : Rule Literal :=
  look fun text => order.literalWithin (text.length + 1)

private theorem literalWithin_standard (depth : Nat) :
    standard.literalWithin depth = Parser.literalWithin depth := by
  induction depth with
  | zero => rfl
  | succ depth ih =>
      rw [literalWithin, ih]
      rfl

private theorem literal_standard : standard.literal = Parser.literal := by
  unfold literal
  simp only [literalWithin_standard]
  rfl

private theorem formed_literalWithin (order : Order) (depth : Nat) :
    Formed (order.literalWithin depth) := by
  induction depth with
  | zero => exact .expected _
  | succ depth ih =>
      exact .choice _ (List.forall_mem_map.mpr fun alternative _ => alternative.formed ih)

private theorem formed_literal (order : Order) : Formed order.literal :=
  .look (fun text => order.literalWithin (text.length + 1)) fun _ => order.formed_literalWithin _

/-- What stands before references in an order has truth values in it. -/
theorem mem_of_reference {order : Order} {front back : List Alternative}
    (split : order.forms = front ++ .reference :: back) : .bool ∈ front := by
  have distinct : order.forms.Nodup := order.complete.nodup_iff.mpr (by decide)
  have words := order.wordsFirst
  rw [split] at words distinct
  have fresh : .reference ∉ back := by
    have later := (List.nodup_append.mp distinct).2.1
    exact (List.nodup_cons.mp later).1
  obtain ⟨early, late, same, before, behind⟩ := List.sublist_append_iff.mp words
  cases early with
  | nil =>
      rw [List.nil_append] at same
      subst same
      cases behind with
      | cons _ inside => exact absurd (inside.subset (by simp)) fresh
  | cons first others =>
      obtain ⟨rfl, -⟩ := List.cons.inj same
      exact before.subset (by simp)

/-- **What a table reads** in any order: what one of the forms reads, and a reference only where no
truth value is read. -/
theorem findSome?_eq_some_iff (order : Order) {inner : Rule Literal} (formed : Formed inner)
    {view : View} {read : Literal × View} :
    (order.forms.findSome? fun alternative => reads (alternative.rule inner) view) = some read ↔
      ∃ alternative : Alternative, reads (alternative.rule inner) view = some read ∧
        (alternative = .reference → reads boolLiteral view = none) := by
  have forward {found : Literal × View} (first : (order.forms.findSome? fun alternative =>
      reads (alternative.rule inner) view) = some found) :
      ∃ alternative : Alternative, reads (alternative.rule inner) view = some found ∧
        (alternative = .reference → reads boolLiteral view = none) := by
    obtain ⟨front, alternative, back, split, here, missed⟩ :=
      List.findSome?_eq_some_iff.mp first
    refine ⟨alternative, here, ?_⟩
    rintro rfl
    exact missed .bool (mem_of_reference split)
  refine ⟨forward, ?_⟩
  rintro ⟨alternative, here, unlessTruth⟩
  have member : alternative ∈ order.forms := order.complete.mem_iff.mpr alternative.mem_all
  have some : (order.forms.findSome? fun form => reads (form.rule inner) view).isSome :=
    List.findSome?_isSome_iff.mpr ⟨alternative, member, Option.isSome_of_eq_some here⟩
  obtain ⟨found, first⟩ := Option.isSome_iff_exists.mp some
  obtain ⟨other, there, unlessTruth'⟩ := forward first
  -- Two forms are read only if they are a truth value and a reference.
  by_cases same : other = alternative
  · subst same
    rw [first, ← there, here]
  · obtain ⟨isWord, isWord'⟩ := Alternative.apart formed same (Option.isSome_of_eq_some there)
      (Option.isSome_of_eq_some here)
    rcases isWord with rfl | rfl <;> rcases isWord' with rfl | rfl
    · exact absurd rfl same
    · cases (unlessTruth rfl).symm.trans there
    · cases (unlessTruth' rfl).symm.trans here
    · exact absurd rfl same

/-- Tables in two orders read the same. -/
theorem findSome?_eq (order other : Order) {inner : Rule Literal} (formed : Formed inner)
    (view : View) :
    (order.forms.findSome? fun alternative => reads (alternative.rule inner) view) =
      other.forms.findSome? fun alternative => reads (alternative.rule inner) view := by
  apply Option.ext
  intro read
  rw [order.findSome?_eq_some_iff formed, other.findSome?_eq_some_iff formed]

private theorem reads_choice_eq (order : Order) {inner : Rule Literal} (formed : Formed inner)
    (view : View) : reads (choice .value (order.forms.map (Alternative.rule inner))) view =
      order.forms.findSome? fun alternative => reads (alternative.rule inner) view := by
  rw [reads_choice view _ (List.forall_mem_map.mpr fun alternative _ => alternative.formed formed),
    List.findSome?_map]
  rfl

private theorem sameReads_literalWithin (order other : Order) (depth : Nat) :
    SameReads (order.literalWithin depth) (other.literalWithin depth) := by
  induction depth with
  | zero => exact .refl (.expected _)
  | succ depth ih =>
      refine ⟨order.formed_literalWithin _, other.formed_literalWithin _, fun view => ?_⟩
      rw [literalWithin, literalWithin, reads_choice_eq order ih.formed,
        reads_choice_eq other ih.formed', order.findSome?_eq other ih.formed]
      simp only [(Alternative.sameReads ih _).reads]

/-- **Literals read the same in every order.** -/
theorem sameReads_literal (order other : Order) : SameReads order.literal other.literal := by
  refine ⟨order.formed_literal, other.formed_literal, fun view => ?_⟩
  rw [literal, literal, reads_look, reads_look]
  exact (order.sameReads_literalWithin other _).reads view

end Order

/-- Where a text begins as only one form does, a literal is what this form reads. -/
theorem reads_literal_of_form (alternative : Alternative) (single : alternative.form ≠ .word)
    {view : View} (begins : formOf view.rest = some alternative.form) :
    reads literal view = reads (alternative.rule (literalWithin view.rest.length)) view := by
  have formed : Formed (literalWithin view.rest.length) := .literalWithin _
  have looked : literal = look fun text => literalWithin (text.length + 1) := rfl
  have table : literalWithin (view.rest.length + 1) = choice .value
      (Order.standard.forms.map (Alternative.rule (literalWithin view.rest.length))) := rfl
  rw [looked, reads_look, table, Order.standard.reads_choice_eq formed]
  apply Option.ext
  intro read
  rw [Order.standard.findSome?_eq_some_iff formed]
  constructor
  · rintro ⟨other, here, -⟩
    have forms := (Alternative.form_of_reads formed (Option.isSome_of_eq_some here)).symm.trans
      begins
    rcases Alternative.eq_or_words (Option.some.inj forms) with rfl | ⟨-, rfl | rfl⟩
    · exact here
    · exact absurd rfl single
    · exact absurd rfl single
  · intro here
    refine ⟨alternative, here, ?_⟩
    rintro rfl
    exact absurd rfl single

/-! ## The same from every state -/

/-- Two results of literals read from one state: the same value at the same place with the same
comments waiting, or two misses that both leave everything as it was. -/
inductive SameOutcome (before : State) :
    EStateM.Result Miss State Literal → EStateM.Result Miss State Literal → Prop
  | ok {value : Literal} {after after' : State} : after.input = after'.input →
      after.view = after'.view → SameOutcome before (.ok value after) (.ok value after')
  | error {miss miss' : Miss} {after after' : State} : after.Restores before →
      after'.Restores before → SameOutcome before (.error miss after) (.error miss' after')

/-- Places of one text with the same text left are the same. -/
theorem eq_of_reaches {start first second : Source.Input} (reaches : start.Reaches first)
    (reaches' : start.Reaches second) (same : first.rest = second.rest) : first = second := by
  obtain ⟨count, rfl⟩ := reaches
  obtain ⟨count', rfl⟩ := reaches'
  have dropped : start.rest.drop count = start.rest.drop count' := same
  have taken : start.rest.take count = start.rest.take count' := by
    have whole : start.rest.take count ++ start.rest.drop count =
        start.rest.take count' ++ start.rest.drop count := by
      rw [List.take_append_drop, dropped, List.take_append_drop]
    exact List.append_cancel_right whole
  simp only [Source.Input.advance, dropped, taken]

namespace Order

/-- A literal that is missed leaves everything as it was. -/
theorem restores_of_error (order : Order) {before after : State} {miss : Miss}
    (missed : order.literal before = .error miss after) : after.Restores before := by
  have growing : ∀ rule ∈ order.forms.map (Alternative.rule (order.literalWithin
      before.input.rest.length)), Growing rule :=
    List.forall_mem_map.mpr fun alternative _ =>
      (alternative.formed (order.formed_literalWithin _)).growing
  exact choice_error growing missed

/-- **Literals are read alike in every order**, from every state. -/
theorem sameOutcome (order other : Order) {before : State} (sound : before.Sound) :
    SameOutcome before (order.literal before) (other.literal before) := by
  have same := (order.sameReads_literal other).reads before.view
  cases result : order.literal before with
  | ok value after =>
      obtain ⟨read, -⟩ := order.formed_literal.reads_of_ok sound result
      obtain ⟨after', result', view, -⟩ :=
        other.formed_literal.ok_of_reads sound (same.symm.trans read)
      rw [result']
      have place := order.formed_literal.growing.reaches_of_ok result
      have place' := other.formed_literal.growing.reaches_of_ok result'
      exact .ok (eq_of_reaches place place' (congrArg View.rest view.symm)) view.symm
  | error miss after =>
      obtain ⟨unread, -⟩ := order.formed_literal.reads_of_error sound result
      cases result' : other.literal before with
      | ok value after' =>
          obtain ⟨read, -⟩ := other.formed_literal.reads_of_ok sound result'
          rw [← same, unread] at read
          cases read
      | error miss' after' =>
          exact .error (order.restores_of_error result) (other.restores_of_error result')

end Order

/-- Whether a rule matches in a state. -/
def Matches (rule : Rule Value) (state : State) : Prop :=
  ∃ value after, rule state = .ok value after

private theorem matches_iff {rule : Rule Value} (formed : Formed rule) {state : State}
    (sound : state.Sound) : Matches rule state ↔ (reads rule state.view).isSome := by
  constructor
  · rintro ⟨value, after, matched⟩
    exact Option.isSome_of_eq_some (formed.reads_of_ok sound matched).1
  · intro read
    obtain ⟨⟨value, after⟩, read⟩ := Option.isSome_iff_exists.mp read
    obtain ⟨next, matched, -⟩ := formed.ok_of_reads sound read
    exact ⟨value, next, matched⟩

/-- **The forms of a literal do not overlap.** From whatever state and with whatever rule for the
literals inside lists and maps, at most one of the eight forms matches, except that a truth value
matches just where a reference matches whose first segment is `true` or `false`. So every order of
the forms that has truth values before references gives the same literal and comes to the same
place, or else misses just as the order of the grammar does. -/
theorem literal_alternatives {state : State} (sound : state.Sound) {inner : Rule Literal}
    (formed : Formed inner) :
    (∀ first second : Alternative, first ≠ second → Matches (first.rule inner) state →
      Matches (second.rule inner) state →
      (first = .bool ∨ first = .reference) ∧ (second = .bool ∨ second = .reference)) ∧
    (Matches (Alternative.bool.rule inner) state ↔ ∃ segments after,
      Alternative.reference.rule inner state = .ok (.ref segments) after ∧
        IsTruthValue segments) ∧
    ∀ order : Order, SameOutcome state (order.literal state) (literal state) := by
  refine ⟨?_, ?_, ?_⟩
  · intro first second differ matches₁ matches₂
    rw [matches_iff (Alternative.formed formed _) sound] at matches₁ matches₂
    exact Alternative.apart formed differ matches₁ matches₂
  · rw [matches_iff (Alternative.formed formed _) sound]
    apply Alternative.reads_bool_iff_reference.trans
    constructor
    · rintro ⟨segments, after, read, isTruth⟩
      obtain ⟨next, matched, -⟩ := Formed.refLiteral.ok_of_reads sound read
      exact ⟨segments, next, matched, isTruth⟩
    · rintro ⟨segments, after, matched, isTruth⟩
      exact ⟨segments, after.view, (Formed.refLiteral.reads_of_ok sound matched).1, isTruth⟩
  · intro order
    rw [← Order.literal_standard]
    exact order.sameOutcome .standard sound

/-- The forms of a list with a truth value in it, tried from the last to the first as far as that is
allowed. -/
theorem literal_alternatives_backwards :
    let state := State.ofString "[true, truth.x, 0x1A, 1e3]"
    let order : Order :=
      { forms := [.bool, .reference, .map, .list, .string, .decimal, .exponent, .hex]
        complete := by decide
        wordsFirst := by decide }
    state.Sound ∧ Formed literal ∧ Matches (Alternative.list.rule literal) state ∧
      (∀ other : Alternative, .list ≠ other → ¬Matches (other.rule literal) state) ∧
      SameOutcome state (order.literal state) (literal state) := by
  intro state order
  have sound : state.Sound := ⟨Nat.zero_le _, Nat.zero_le _⟩
  obtain ⟨apart, -, same⟩ := literal_alternatives sound Formed.literal
  have list : Matches (Alternative.list.rule literal) state := by
    rw [matches_iff (Alternative.formed .literal _) sound]
    decide +kernel
  refine ⟨sound, .literal, list, fun other differ here => ?_, same order⟩
  rcases (apart _ other differ list here).1 with impossible | impossible <;> cases impossible

end Parser
end ThriftIdl
