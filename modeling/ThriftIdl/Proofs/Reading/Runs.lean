import ThriftIdl.Proofs.Grammar.Bare
import ThriftIdl.Proofs.Reading.Constants

/-!
# Runs of characters in lists

The separators of a list may be left out, so a token that ends early leaves the rest of a run of
characters to be read as a further item. Decimal numbers never end early, but the other bare
literals end at a dot, and a number may begin with that dot. Such a run is cut before every dot of
this kind (`Pieces`), and every other run is one item. Main statement: `runs_in_lists`.
-/

namespace ThriftIdl

open Source (Stops opensGap)
open ThriftIdl.Grammar (Bare bareRunsOn)

namespace Parser

variable {run front back more : List Char} {value : Literal} {values : List Literal}

/-! ## Runs and their pieces -/

/-- A text that is read as one literal, up to its end. -/
def Whole (text : List Char) (value : Literal) : Prop :=
  reads literal (.ofText text) = some (value, .ofText [])

/-- The literals that a run of characters is cut into: each of them is read whole, and before the
dot at the start of the next one no decimal number ends. -/
inductive Pieces : List Char → List Literal → Prop
  | last {run : List Char} {value : Literal} : Whole run value → Pieces run [value]
  | cut {front back : List Char} {value : Literal} {values : List Literal} : Whole front value →
      value.isDecimal = false → Pieces ('.' :: back) values →
      Pieces (front ++ '.' :: back) (value :: values)

/-- Whether a run has a place to be cut: a dot before a figure, with a literal before it that is no
decimal number. -/
def HasCut (run : List Char) : Prop :=
  ∃ front value figure back, run = front ++ '.' :: figure :: back ∧ Whole front value ∧
    value.isDecimal = false ∧ figure.isDigit

/-- A run of characters of names. -/
def IsRun (run : List Char) : Prop :=
  ∀ char ∈ run, isNameChar char

namespace IsRun

private theorem left (named : IsRun (front ++ back)) : IsRun front :=
  fun char member => named char (List.mem_append_left back member)

private theorem right (named : IsRun (front ++ back)) : IsRun back :=
  fun char member => named char (List.mem_append_right front member)

/-- No gap stands where a run goes on or its list is closed. -/
theorem stops_opensGap (named : IsRun run) : Stops opensGap (run ++ ']' :: more) := by
  cases run with
  | nil => rfl
  | cons char rest => exact Grammar.opensGap_of_isNameChar (named char List.mem_cons_self)

/-- No separator stands there either. -/
theorem stops_isSeparator (named : IsRun run) : Stops isSeparator (run ++ ']' :: more) := by
  cases run with
  | nil => rfl
  | cons char rest =>
      have begins : (char :: rest ++ ']' :: more).head?.any isNameChar :=
        named char List.mem_cons_self
      exact Grammar.stops_isSeparator_of_head rfl rfl begins

end IsRun

private theorem whole_iff_bare (named : IsRun run) : Whole run value ↔ Bare run value := by
  have agrees := Grammar.agrees_literal
  cases run with
  | nil =>
      constructor
      · intro whole
        cases Grammar.starts_literal (agrees.always.mp whole) rfl
      · intro bare
        cases bare.ne_nil rfl
  | cons char rest =>
      have begins : (View.ofText (char :: rest)).rest.head?.any isNameChar :=
        named char List.mem_cons_self
      rw [Whole, agrees.always, Grammar.literal_iff_bare begins]
      constructor
      · rintro ⟨chars, more, same, bare, -, ended⟩
        have same : char :: rest = chars ++ more := same
        -- What a bare literal leaves of a run would be no gap, and nothing is left.
        have nothing : more = [] := by
          cases more with
          | nil => rfl
          | cons first others =>
              have plain : opensGap first = false :=
                Grammar.opensGap_of_isNameChar (named first (by simp [same]))
              rw [View.skip_of_stops (Source.stops_cons.mpr plain)] at ended
              cases ended
        rw [nothing, List.append_nil] at same
        rwa [same]
      · intro bare
        have stays : (View.ofText []).skip = .ofText [] := View.skip_of_stops rfl
        exact ⟨char :: rest, [], (List.append_nil _).symm, bare,
          Grammar.bareRunsOn_of_stops value rfl rfl, stays.symm⟩

private theorem Pieces.ne_nil (pieces : Pieces run values) : run ≠ [] := by
  cases pieces with
  | last whole =>
      rintro rfl
      have named : IsRun [] := fun _ member => absurd member List.not_mem_nil
      exact ((whole_iff_bare named).mp whole).ne_nil rfl
  | cut => simp

/-- Figures follow a dot with which pieces begin. -/
theorem Pieces.exists_figure (pieces : Pieces ('.' :: back) values) (named : IsRun ('.' :: back)) :
    ∃ figure rest, back = figure :: rest ∧ figure.isDigit := by
  generalize text : '.' :: back = run at pieces named
  cases pieces with
  | last whole =>
      rw [← text] at whole named
      exact ((whole_iff_bare named).mp whole).exists_figure
  | @cut front rest _ _ whole _ _ =>
      have bare := (whole_iff_bare named.left).mp whole
      obtain ⟨first, others, rfl⟩ := List.exists_cons_of_ne_nil bare.ne_nil
      obtain ⟨rfl, rfl⟩ := List.cons.inj text
      obtain ⟨figure, later, rfl, digit⟩ := bare.exists_figure
      exact ⟨figure, later ++ '.' :: rest, rfl, digit⟩

/-! ## Items -/

section Items

open Grammar Grammar.Phrase

/-- What a literal takes of a run: a part at its start that is read whole, up to where it ends. -/
theorem literal_iff_whole {before after : View} (named : IsRun run)
    (text : before.rest = run ++ ']' :: more) :
    Grammar.literal before value after ↔ ∃ front back, run = front ++ back ∧ Whole front value ∧
      bareRunsOn value (back ++ ']' :: more) = false ∧
      after = { before with rest := back ++ ']' :: more } := by
  have passed {front back : List Char} (same : run = front ++ back) :
      { before with rest := back ++ ']' :: more }.skip =
        { before with rest := back ++ ']' :: more } :=
    View.skip_of_stops (IsRun.right (same ▸ named)).stops_opensGap
  cases run with
  | nil =>
      constructor
      · intro here
        have closes : before.rest.head? = some ']' := by rw [text]; rfl
        exact absurd (starts_literal here) (not_startsLiteral_of_closing (.inl closes))
      · rintro ⟨front, back, same, whole, -, -⟩
        obtain ⟨rfl, rfl⟩ := List.nil_eq_append_iff.mp same
        exact absurd rfl ((whole_iff_bare named).mp whole).ne_nil
  | cons char rest =>
      have begins : before.rest.head?.any isNameChar := by
        rw [text]
        exact named char List.mem_cons_self
      rw [literal_iff_bare begins]
      constructor
      · rintro ⟨chars, left, same, bare, ended, rfl⟩
        -- The token ends before the bracket, which is no character of bare literals.
        have within : ∃ back, char :: rest = chars ++ back ∧ left = back ++ ']' :: more := by
          rw [text] at same
          rcases List.append_eq_append_iff.mp same with
            ⟨surplus, longer, closes⟩ | ⟨back, here, there⟩
          · cases surplus with
            | nil => exact ⟨[], by simpa using longer.symm, by simpa using closes.symm⟩
            | cons first others =>
                obtain ⟨rfl, -⟩ := List.cons.inj closes
                have inside := bare.inside ']' (by rw [longer]; simp)
                rcases inside with inside | inside <;> cases inside
          · exact ⟨back, here, there⟩
        obtain ⟨back, split, rfl⟩ := within
        exact ⟨chars, back, split, (whole_iff_bare (IsRun.left (split ▸ named))).mpr bare, ended,
          passed split⟩
      · rintro ⟨front, back, same, whole, ended, rfl⟩
        refine ⟨front, back ++ ']' :: more, ?_,
          (whole_iff_bare (IsRun.left (same ▸ named))).mp whole, ended, (passed same).symm⟩
        rw [text, same, List.append_assoc]

/-- Inside a run there is no separator after an item. -/
theorem listItem_iff_whole {before after : View} (named : IsRun run)
    (text : before.rest = run ++ ']' :: more) :
    Grammar.listItem Grammar.literal before value after ↔ ∃ front back, run = front ++ back ∧
      Whole front value ∧ bareRunsOn value (back ++ ']' :: more) = false ∧
      after = { before with rest := back ++ ']' :: more } := by
  rw [← literal_iff_whole named text]
  have unseparated {middle : View} (here : Grammar.literal before value middle) :
      Stops isSeparator middle.rest := by
    obtain ⟨front, back, same, -, -, rfl⟩ := (literal_iff_whole named text).mp here
    exact (IsRun.right (same ▸ named)).stops_isSeparator
  constructor
  · rintro ⟨_, middle, here, _, _, separates, rfl, rfl⟩
    rcases separates with ⟨_, _, rest, ⟨char, separates, rfl⟩, -, -⟩ | ⟨-, rfl⟩
    · have stops := unseparated here
      rw [rest, List.singleton_append, Source.stops_cons, separates] at stops
      cases stops
    · exact here
  · intro here
    exact ⟨value, after, here, (), after, .inr ⟨unseparated here, rfl⟩, rfl, rfl⟩

/-- The items of a list are the pieces of its run. -/
theorem pieces_of_repeated {before last : View}
    (repeated : Repeated (Grammar.listItem Grammar.literal) before values last)
    (named : IsRun run) (text : before.rest = run ++ ']' :: more)
    (closes : last.rest.head? = some ']') :
    run = [] ∧ values = [] ∨ Pieces run values := by
  induction repeated generalizing run with
  | done view =>
      cases run with
      | nil => exact .inl ⟨rfl, rfl⟩
      | cons char rest =>
          rw [text] at closes
          obtain rfl : char = ']' := Option.some.inj closes
          cases named ']' List.mem_cons_self
  | next item _ ih =>
      obtain ⟨front, back, rfl, whole, ended, rfl⟩ := (listItem_iff_whole named text).mp item
      right
      rcases ih named.right rfl closes with ⟨rfl, rfl⟩ | pieces
      · rw [List.append_nil]
        exact .last whole
      · obtain ⟨char, rest, rfl⟩ := List.exists_cons_of_ne_nil pieces.ne_nil
        obtain ⟨rfl, apart⟩ :=
          eq_dot_of_bareRunsOn (named.right char List.mem_cons_self) ended
        exact .cut whole apart pieces

/-- The pieces of a run are the items of its list. -/
theorem repeated_of_pieces {before : View} (pieces : Pieces run values) (named : IsRun run)
    (text : before.rest = run ++ ']' :: more) :
    Repeated (Grammar.listItem Grammar.literal) before values
      { before with rest := ']' :: more } := by
  induction pieces generalizing before with
  | @last run value whole =>
      have item := (listItem_iff_whole named text).mpr
        ⟨run, [], (List.append_nil run).symm, whole, bareRunsOn_of_stops value rfl rfl, rfl⟩
      exact .next item (.done _)
  | @cut front back value values whole apart pieces ih =>
      obtain ⟨figure, rest, rfl, digit⟩ := pieces.exists_figure named.right
      have item := (listItem_iff_whole named text).mpr
        ⟨front, '.' :: figure :: rest, rfl, whole, bareRunsOn_point apart digit, rfl⟩
      exact .next item (ih named.right rfl)

/-- Only a list begins with a bracket. -/
theorem listLiteral_of_bracket {before after : View} (opens : before.rest.head? = some '[')
    (here : Grammar.literal before value after) :
    Grammar.listLiteral Grammar.literal before value after := by
  have begins : formOf before.rest = some .list := by
    obtain ⟨rest, same⟩ := List.head?_eq_some_iff.mp opens
    rw [same]
    rfl
  obtain ⟨phrase, member, here⟩ := literal_iff.mp here
  obtain ⟨form, inside⟩ := exists_mem_formTable member
  have isList := (starts_formTable _ _ inside here).symm.trans begins
  simp only [formTable, Grammar.literalForms, List.zip_cons_cons, List.zip_nil_left, List.mem_cons,
    Prod.mk.injEq, List.not_mem_nil, or_false] at inside
  rcases inside with ⟨rfl, rfl⟩ | ⟨rfl, rfl⟩ | ⟨rfl, rfl⟩ | ⟨rfl, rfl⟩ | ⟨rfl, rfl⟩ | ⟨rfl, rfl⟩ |
    ⟨rfl, rfl⟩ | ⟨rfl, rfl⟩
  case inr.inr.inr.inr.inr.inl => exact here
  all_goals cases isList

/-- A list of a run is read exactly if the run has pieces, and it has these pieces. -/
theorem exists_reads_list_iff {view : View} (nonempty : run ≠ []) (named : IsRun run)
    (text : view.rest = '[' :: (run ++ ']' :: more)) :
    (∃ behind, reads literal view = some (value, behind)) ↔
      ∃ values, value = .list values ∧ Pieces run values := by
  simp only [agrees_literal.always]
  let inside : View := { view with rest := run ++ ']' :: more }
  have opened : inside.skip = inside := View.skip_of_stops named.stops_opensGap
  constructor
  · rintro ⟨behind, here⟩
    obtain ⟨_, _, ⟨_, rest, same, rfl, -, rfl⟩, values, last, repeated, _, _, closes, rfl, rfl⟩ :=
      listLiteral_of_bracket (by rw [text]; rfl) here
    rw [text] at same
    obtain rfl : run ++ ']' :: more = rest := (List.cons.inj same).2
    rw [opened] at repeated
    refine ⟨values, rfl, ?_⟩
    exact (pieces_of_repeated repeated named rfl (starts_close closes)).resolve_left
      fun none => nonempty none.1
  · rintro ⟨values, rfl, pieces⟩
    have repeated := repeated_of_pieces pieces named (rfl : inside.rest = run ++ ']' :: more)
    have bracket : Grammar.mark '[' rfl view () inside :=
      ⟨['['], run ++ ']' :: more, text, rfl, rfl, opened.symm⟩
    obtain ⟨after, list⟩ : ∃ after, Grammar.listLiteral Grammar.literal view (.list values) after :=
      ⟨_, (), inside, bracket, values, _, repeated, (), _,
        ⟨(), _, rfl, [']'], more, rfl, rfl, rfl, rfl⟩, rfl, rfl⟩
    exact ⟨after, literal_of_literalForms
      ⟨Grammar.listLiteral Grammar.literal, by simp [Grammar.literalForms], list⟩⟩

end Items

/-! ## Lists as values of constants -/

private theorem Pieces.length_pos (pieces : Pieces run values) : 0 < values.length := by
  cases pieces <;> exact Nat.succ_pos _

/-- A run that has a place to be cut is not read whole. -/
theorem not_whole_of_hasCut (named : IsRun run) (hasCut : HasCut run) : ¬Whole run value := by
  obtain ⟨front, other, figure, back, rfl, whole, apart, digit⟩ := hasCut
  intro all
  let view : View := .ofText (front ++ '.' :: figure :: back)
  have begins : view.rest.head?.any isNameChar := by
    have bare := (whole_iff_bare named.left).mp whole
    obtain ⟨first, others, same⟩ := List.exists_cons_of_ne_nil bare.ne_nil
    have first : view.rest.head? = some first := by simp [view, View.ofText, same]
    rw [first]
    exact named _ (by simp [same])
  have cut : reads literal view = some (other, .ofText ('.' :: figure :: back)) := by
    have stays : (View.ofText ('.' :: figure :: back)).skip = .ofText ('.' :: figure :: back) :=
      View.skip_of_stops rfl
    apply Grammar.agrees_literal.always.mpr
    apply (Grammar.literal_iff_bare begins).mpr
    exact ⟨front, '.' :: figure :: back, rfl, (whole_iff_bare named.left).mp whole,
      Grammar.bareRunsOn_point apart digit, stays.symm⟩
  cases all.symm.trans cut

/-- A run is one piece exactly if it has no place to be cut. -/
theorem Pieces.length_eq_one_iff (pieces : Pieces run values) (named : IsRun run) :
    values.length = 1 ↔ ¬HasCut run := by
  cases pieces with
  | last whole => exact ⟨fun _ hasCut => not_whole_of_hasCut named hasCut whole, fun _ => rfl⟩
  | @cut front back value values whole apart pieces =>
      constructor
      · intro single
        have positive := pieces.length_pos
        simp only [List.length_cons] at single
        omega
      · intro uncut
        obtain ⟨figure, rest, rfl, digit⟩ := pieces.exists_figure named.right
        exact absurd ⟨front, value, figure, rest, rfl, whole, apart, digit⟩ uncut

/-- **Runs of characters in lists.** Let the value of a constant begin with a list that has a run of
letters, figures, underscores and dots between its brackets and nothing else. Then it is read with
the list of the pieces of the run, and only so. The list has one item exactly if the run has no
place to be cut, that is a dot before a figure, right behind a literal that is no decimal number: a
hexadecimal integer, a number with an exponent, a truth value or a reference. -/
theorem runs_in_lists {options : Options} {source : String} {state : State}
    {start : Option String × TypeRef × String} {view : View}
    (here : ConstantAt options source state start view) (nonempty : run ≠ [])
    (named : ∀ char ∈ run, isNameChar char) (text : view.rest = '[' :: (run ++ ']' :: more)) :
    (∀ value, ReadsConstant options source state start value ↔
      ∃ values, value = .list values ∧ Pieces run values) ∧
    ∀ values, ReadsConstant options source state start (.list values) →
      (values.length = 1 ↔ ¬HasCut run) := by
  have reading (value : Literal) : ReadsConstant options source state start value ↔
      ∃ values, value = .list values ∧ Pieces run values :=
    here.readsConstant_iff.trans (exists_reads_list_iff nonempty named text)
  refine ⟨reading, fun values read => ?_⟩
  obtain ⟨pieces, same, cut⟩ := (reading _).mp read
  cases same
  exact cut.length_eq_one_iff named

/-- A run with a point and an exponent is one item. -/
theorem runs_in_lists_exponent :
    let source := "const list<double> a = [12.5e3]"
    let start : Option String × TypeRef × String := (none, .list (.scalar "double"), "a")
    ∃ element, ReadsConstant {} source (openingState source) start (.list [element]) ∧
      ∀ values, ReadsConstant {} source (openingState source) start (.list values) →
        values.length = 1 := by
  intro source start
  have here : ConstantAt {} source (openingState source) start
      (.ofText ('[' :: ("12.5e3".toList ++ ']' :: []))) :=
    ⟨.start, by decide +kernel⟩
  have named : ∀ char ∈ "12.5e3".toList, isNameChar char := List.all_eq_true.mp (by decide +kernel)
  obtain ⟨reading, single⟩ := runs_in_lists here (by decide +kernel) named rfl
  have ended : (reads literal (.ofText "12.5e3".toList)).map Prod.snd = some (.ofText []) := by
    decide +kernel
  obtain ⟨⟨element, after⟩, whole, rfl⟩ := Option.map_eq_some_iff.mp ended
  have read := (reading _).mpr ⟨[element], rfl, .last whole⟩
  have uncut := (single _ read).mp rfl
  exact ⟨element, read, fun values other => (single values other).mpr uncut⟩

/-- How many items a list literal has. -/
def itemCount? : Literal → Option Nat
  | .list values => some values.length
  | _ => none

private theorem exists_list_of_itemCount? {value : Literal} {count : Nat}
    (counted : itemCount? value = some count) :
    ∃ values, value = .list values ∧ values.length = count := by
  cases value with
  | list values => exact ⟨values, rfl, Option.some.inj counted⟩
  | _ => cases counted

/-- Four runs that are read as two items each. -/
theorem runs_cut_at_points :
    (∃ document first second, Document.parse "const list<i32> a = [0x1.5]" = .ok document ∧
      (document.constant? "a").map Constant.value = some (.list [first, second])) ∧
    (∃ document first second, Document.parse "const list<i32> a = [1e5.5]" = .ok document ∧
      (document.constant? "a").map Constant.value = some (.list [first, second])) ∧
    (∃ document first second, Document.parse "const list<i32> a = [true.5]" = .ok document ∧
      (document.constant? "a").map Constant.value = some (.list [first, second])) ∧
    (∃ document first second, Document.parse "const list<i32> a = [a.5]" = .ok document ∧
      (document.constant? "a").map Constant.value = some (.list [first, second])) := by
  have two (source : String)
      (counted : ((Document.parse source).toOption.map fun document =>
        (document.constant? "a").bind fun found => itemCount? found.value) = some (some 2)) :
      ∃ document first second, Document.parse source = .ok document ∧
        (document.constant? "a").map Constant.value = some (.list [first, second]) := by
    obtain ⟨document, parsed, counted⟩ := exists_of_map_parse {} source _ _ counted
    obtain ⟨constant, found, counted⟩ := Option.bind_eq_some_iff.mp counted
    obtain ⟨values, listed, length⟩ := exists_list_of_itemCount? counted
    obtain ⟨first, second, rfl⟩ := List.length_eq_two.mp length
    exact ⟨document, first, second, parsed, Option.map_eq_some_iff.mpr ⟨constant, found, listed⟩⟩
  exact ⟨two _ (by decide +kernel), two _ (by decide +kernel), two _ (by decide +kernel),
    two _ (by decide +kernel)⟩

end Parser
end ThriftIdl
