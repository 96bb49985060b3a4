import ThriftIdl.Proofs.Document
import ThriftIdl.Proofs.Grammar.Local
import ThriftIdl.Proofs.Reading.Sequence
import ThriftIdl.Proofs.Rule.Heading

/-!
# Two texts one after the other

A text that is read to its end is read in the same way when another text follows it on a new line,
and the other text is then read as it would be alone. Only comments that the first text leaves
waiting at its end go to the first declaration of the second. Main statement: `parse_join`.
-/

namespace ThriftIdl

open ThriftIdl.Source (Stops EndsLine opensGap gap gapChars gapComments)

/-! ## Comments of two texts -/

namespace Comment

private theorem join_append {first second : List String} (nonempty : first ≠ [])
    (nonempty' : second ≠ []) :
    join (first ++ second) = join [join first, join second] := by
  unfold join
  rw [String.intercalate_append_of_ne_nil nonempty nonempty', String.intercalate_cons_cons,
    String.intercalate_singleton]

/-- Comments that wait together may be joined in two steps. -/
theorem Queue.together_append (first second : List String) :
    together (first ++ second) = append? (together first) (together second) := by
  unfold together
  by_cases none : first = []
  · subst none
    cases second <;> rfl
  · by_cases none' : second = []
    · simp [none, none', append?]
    · have mapped {comments : List String} (nonempty : comments ≠ []) :
          comments.map slashed ≠ [] := by simpa using nonempty
      simp [none, none', append?, join_append (mapped none) (mapped none')]

end Comment

/-- Declarations of which the first has a further comment before it. -/
def Declaration.prefixFirst (comment : Option String) : List Declaration → List Declaration
  | [] => []
  | first :: later => first.withHead (Comment.append? comment first.comments.head) :: later

/-- No further comment makes no difference. -/
@[simp] theorem Declaration.prefixFirst_none (declared : List Declaration) :
    prefixFirst none declared = declared := by
  cases declared with
  | nil => rfl
  | cons first later =>
      show first.withHead first.comments.head :: later = first :: later
      rw [withHead_self]

namespace Parser

open ThriftIdl.Grammar (Rebased Settled Handover Local)
open ThriftIdl.Grammar.Phrase (Repeated)

variable {options : Options} {duplicates : DuplicateIds}

/-! ## Views -/

namespace View

variable {old new : List Char}

/-- Text that gives way does so whichever item the comments wait for. -/
theorem rebased_allAhead {view moved : View} (ends : EndsLine new)
    (rebased : Rebased old new view moved) : Rebased old new view.allAhead moved.allAhead := by
  cases rebased with
  | within nonempty same => exact .within nonempty same
  | past same =>
      have past : Rebased old new view.allAhead ({ view.allAhead with rest := new } : View).skip :=
        .past same
      have shape : ({ view with rest := new } : View).skip.allAhead =
          ({ view.allAhead with rest := new } : View).skip := by
        simp [skip, allAhead, Source.firstLine_gap ends, gapComments]
      rwa [shape]

/-- The view in which the reading of a text begins, when the last part of the text gives way. -/
theorem rebased_opening {front : List Char} (ends : EndsLine new)
    (settled : Settled old (opening (front ++ old))) :
    Rebased old new (opening (front ++ old)) (opening (front ++ new)) :=
  rebased_allAhead ends (Grammar.rebased_skip ends (settled.same_rest rfl))

end View

/-- Going on past a line break is going on to where the reading of the text after it begins. -/
theorem View.skip_lineBreak (text : List Char) (head tail : List String) :
    View.skip ⟨'\n' :: text, head, tail⟩ =
      ⟨(View.opening text).rest, head ++ (View.opening text).head, tail⟩ := by
  have pieces : gap ('\n' :: text) = .lineBreak '\n' :: gap text :=
    Source.gap_of_some (show Source.Piece.next? ('\n' :: text) = some (.lineBreak '\n') from rfl)
  have first : Source.firstLine (.lineBreak '\n' :: gap text) = [] := rfl
  have later : Source.laterLines (.lineBreak '\n' :: gap text) = .lineBreak '\n' :: gap text := rfl
  rw [View.opening_eq]
  simp only [View.skip, pieces, first, later]
  simp [gapChars, gapComments, Source.Piece.chars]
  rfl

/-- A byte order mark stays where it is. -/
theorem withoutMark_append {front : List Char} (more : List Char)
    (first : front ≠ [] ∨ more.head? ≠ some '\ufeff') :
    withoutMark (front ++ more) = withoutMark front ++ more := by
  cases front with
  | nil =>
      have none : more.head? ≠ some '\ufeff' := first.resolve_left fun nonempty => nonempty rfl
      simp [withoutMark, none]
  | cons char rest =>
      unfold withoutMark
      by_cases mark : char = '\ufeff' <;> simp [mark]

/-! ## Declarations -/

/-- The comments that wait before a declaration make no difference to what else is read. -/
theorem declaration_withHead {before after : View} {declared : Declaration}
    (here : Grammar.declaration duplicates before declared after) (head : List String) :
    declared.comments.head = Comment.Queue.together before.head ∧
      Grammar.declaration duplicates { before with head }
        (declared.withHead (Comment.Queue.together head)) after := by
  have agrees := Grammar.agrees_declaration duplicates
  have read := agrees.always.mpr here
  have aligned : Aligned 0 [] [] (State.ofView before) (State.ofView { before with head }) :=
    ⟨rfl, rfl, State.sound_ofView _, State.sound_ofView _, rfl, [], rfl, rfl⟩
  unfold reads at read
  rcases declaration_aligned duplicates aligned with
    ⟨bare, next, next', matched, matched', alike⟩ | ⟨miss, missed, _, failed, -, -⟩
  · rw [matched] at read
    cases read
    refine ⟨by simp, agrees.always.mp ?_⟩
    unfold reads
    rw [matched']
    simp [alike.view]
  · rw [failed] at read
    cases read

/-- A comment more that waits in the beginning goes to the first declaration. -/
theorem repeated_prefixFirst {before after : View} {declared : List Declaration}
    (repeated : Repeated (Grammar.declaration duplicates) before declared after)
    (ended : after.rest = []) (pending : List String) :
    ∃ last, Repeated (Grammar.declaration duplicates)
      { before with head := pending ++ before.head }
      (Declaration.prefixFirst (Comment.Queue.together pending) declared) last ∧
      last.rest = [] := by
  cases repeated with
  | done => exact ⟨_, .done _, ended⟩
  | next here later =>
      obtain ⟨head, elsewhere⟩ := declaration_withHead here (pending ++ before.head)
      rw [Comment.Queue.together_append, ← head] at elsewhere
      exact ⟨after, .next elsewhere later, ended⟩

/-- Nothing that declarations take to its end begins with a separator. -/
theorem stops_isSeparator_of_repeated {before after : View} {declared : List Declaration}
    (repeated : Repeated (Grammar.declaration duplicates) before declared after)
    (ended : after.rest = []) : Stops isSeparator before.rest := by
  cases repeated with
  | done => rw [ended]; rfl
  | next here _ =>
      exact Grammar.stops_isSeparator_of_head rfl rfl (Grammar.starts_declaration _ here)

/-- Between two declarations no comment waits for the one just read. -/
theorem Declares.tail {source : String} {last : State} {declared : List (Nat × Declaration)}
    (declares : Declares options (openingState source) declared last) : last.view.tail = [] :=
  (declares.topLevel .start).settled.2

/-- **Two texts one after the other.** When two texts have documents and the second begins with no
byte order mark, the two with a line break between them have one too: it lists what comes of
inserting the declarations of the second document, in their order, into the first one. Comments that
wait at the end of the first text stand before the first declaration of the second text; if none
wait, all comments are as they were. -/
theorem parse_join {first second : String} {document document' : Document}
    (parsed : Document.parse first options = .ok document)
    (parsed' : Document.parse second options = .ok document')
    (noMark : second.toList.head? ≠ some '\ufeff') :
    ∃ last joined,
      Declares options (openingState first) (Reading.ofSource options first).declared last ∧
      last.input.atEnd = true ∧
      Document.parse (first ++ "\n" ++ second) options = .ok joined ∧
      joined.toList = (document.insertAll (Document.ofList (Declaration.prefixFirst
        (Comment.Queue.together last.comments.head.pending)
        ((Reading.ofSource options second).declared.map Prod.snd))).toList).toList ∧
      (last.comments.head.pending = [] →
        joined.toList = (document.insertAll document'.toList).toList) := by
  obtain ⟨last, declares, ended, rfl⟩ := declares_of_parse parsed
  obtain ⟨last', declares', ended', rfl⟩ := declares_of_parse parsed'
  have rest := (atEnd_iff last).mp ended
  have rest' := (atEnd_iff last').mp ended'
  have repeated := declares.repeated (sound_openingState first)
  have repeated' := declares'.repeated (sound_openingState second)
  rw [view_openingState] at repeated repeated'
  have unmarked : withoutMark second.toList = second.toList := if_neg noMark
  rw [unmarked] at repeated'
  let new := '\n' :: second.toList
  have handover : Handover new := by
    refine ⟨rfl, ?_⟩
    rw [View.ofText, View.skip_lineBreak]
    exact stops_isSeparator_of_repeated repeated' rest'
  -- The first text is read with the second one behind it.
  have settled : Settled [] last.view := ⟨List.nil_suffix, .inl rest⟩
  obtain ⟨settledStart, later⟩ :=
    (Grammar.local_declaration handover options.duplicates).repeated repeated settled
  have start : Rebased [] new (View.opening (withoutMark first.toList))
      (View.opening (withoutMark first.toList ++ new)) := by
    have settledStart : Settled [] (View.opening (withoutMark first.toList ++ [])) := by
      rwa [List.append_nil]
    have moved := View.rebased_opening handover.ends settledStart
    rwa [List.append_nil] at moved
  obtain ⟨reached, rebased, front⟩ := later start
  -- Where the first text ends, the second begins with what waits there.
  have meets : reached = { View.opening second.toList with
      head := last.view.head ++ (View.opening second.toList).head } := by
    cases rebased with
    | within nonempty same => simp [rest] at same; exact absurd same nonempty
    | past _ =>
        have none : last.view.tail = [] := declares.tail
        rw [View.skip_lineBreak, none, View.opening_eq]
  obtain ⟨final, back, finished⟩ := repeated_prefixFirst repeated' rest' last.view.head
  rw [← meets] at back
  have text : withoutMark (first ++ "\n" ++ second).toList = withoutMark first.toList ++ new := by
    rw [String.toList_append, String.toList_append, List.append_assoc]
    exact withoutMark_append _ (.inr (by simp))
  rw [← text] at front
  have whole := parse_eq_ok_iff.mpr ⟨_, final, front.append back, finished, rfl⟩
  refine ⟨last, _, declares, ended, whole, ?_, fun none => ?_⟩
  · rw [Document.ofList_append, Document.toList_insertAll_toList]
    rfl
  · have none : last.view.head = [] := none
    rw [Document.ofList_append, Document.toList_insertAll_toList, none]
    simp [Comment.Queue.together]

/-- A comment at the end of the first text comes to stand before the type of the second. -/
theorem parse_join_leftover :
    ∃ document document' last joined,
      Document.parse "include 'a.thrift' // here\n# left" = .ok document ∧
      Document.parse "typedef i32 Id" = .ok document' ∧
      Declares {} (openingState "include 'a.thrift' // here\n# left")
        (Reading.ofSource {} "include 'a.thrift' // here\n# left").declared last ∧
      Document.parse ("include 'a.thrift' // here\n# left" ++ "\n" ++ "typedef i32 Id") =
        .ok joined ∧
      joined.toList = (document.insertAll (Document.ofList (Declaration.prefixFirst
        (Comment.Queue.together last.comments.head.pending)
        ((Reading.ofSource {} "typedef i32 Id").declared.map Prod.snd))).toList).toList := by
  have readable : (Document.parse "include 'a.thrift' // here\n# left").isOk = true := by
    decide +kernel
  have readable' : (Document.parse "typedef i32 Id").isOk = true := by decide +kernel
  cases parsed : Document.parse "include 'a.thrift' // here\n# left" with
  | error error => simp [parsed, Except.isOk, Except.toBool] at readable
  | ok document =>
      cases parsed' : Document.parse "typedef i32 Id" with
      | error error => simp [parsed', Except.isOk, Except.toBool] at readable'
      | ok document' =>
          obtain ⟨last, joined, declares, -, whole, items, -⟩ :=
            parse_join parsed parsed' (by decide)
          exact ⟨document, document', last, joined, rfl, rfl, declares, whole, items⟩

end Parser
end ThriftIdl
