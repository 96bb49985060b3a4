import ThriftIdl.Comment.Queue
import ThriftIdl.Proofs.Source.Gap

/-!
# Texts with other line endings

A text without carriage returns may end its lines with them instead of line feeds, alone or before
the line feed. The gap at its start then has the same pieces with other line breaks, in which only
the block comments say something else, and they say the same again when all line endings are read as
line feeds. Main statements: `gap_write` and `lineFeeds_write`.
-/

namespace ThriftIdl

namespace Source

/-- What may stand for a line feed at the end of a line. -/
inductive LineEnding
  /-- A carriage return and a line feed. -/
  | both
  /-- A carriage return alone. -/
  | returnAlone
deriving DecidableEq

/-- A text with its line endings read as line feeds. -/
def lineFeeds : List Char → List Char
  | '\r' :: '\n' :: rest => '\n' :: lineFeeds rest
  | '\r' :: rest => '\n' :: lineFeeds rest
  | char :: rest => char :: lineFeeds rest
  | [] => []

/-- A text without carriage returns is read as it is. -/
theorem lineFeeds_of_notMem {text : List Char} (plain : '\r' ∉ text) : lineFeeds text = text := by
  fun_induction lineFeeds text with
  | case1 => simp at plain
  | case2 => simp at plain
  | case3 char rest _ _ ih => rw [ih (List.not_mem_of_not_mem_cons plain)]
  | case4 => rfl

/-- Line endings are read one by one, but for a pair that a cut between its two parts would part. -/
theorem lineFeeds_append (text : List Char) {more : List Char} (whole : more.head? ≠ some '\n') :
    lineFeeds (text ++ more) = lineFeeds text ++ lineFeeds more := by
  fun_induction lineFeeds text with
  | case1 rest ih => simp only [List.cons_append, lineFeeds, ih]
  | case2 rest single ih =>
      rw [List.cons_append, List.cons_append, ← ih]
      cases rest with
      | nil =>
          cases more with
          | nil => rfl
          | cons char others =>
              rw [List.nil_append, lineFeeds]
              rintro others' ⟨rfl, -⟩
              exact whole rfl
      | cons char others =>
          rw [List.cons_append, lineFeeds]
          rintro others' same
          exact single others (by rw [(List.cons.inj same).1])
  | case3 char rest noPair noReturn ih =>
      rw [List.cons_append, List.cons_append, ← ih, lineFeeds]
      · exact fun _ same => absurd same noReturn
      · exact noReturn
  | case4 => rfl

end Source

namespace Comment

/-- A comment with its line endings read as line feeds. -/
def lineFeeds (comment : String) : String :=
  String.ofList (Source.lineFeeds comment.toList)

/-- Line breaks in a comment are rewritten character by character. -/
theorem toList_lineFeeds (comment : String) :
    (lineFeeds comment).toList = Source.lineFeeds comment.toList :=
  String.toList_ofList

/-- Two comments are the same up to line breaks if their characters are. -/
theorem lineFeeds_eq_iff {first second : String} : lineFeeds first = lineFeeds second ↔
    Source.lineFeeds first.toList = Source.lineFeeds second.toList := by
  rw [← String.toList_inj, toList_lineFeeds, toList_lineFeeds]

/-- The first character of a comment is kept, unless it ends a line. -/
theorem head?_lineFeeds (text : List Char) : (Source.lineFeeds text).head? =
    text.head?.map fun char => if char = '\r' then '\n' else char := by
  fun_cases Source.lineFeeds text with
  | case1 rest => rfl
  | case2 rest _ => rfl
  | case3 char rest _ noReturn =>
      rw [List.head?_cons, List.head?_cons, Option.map_some, if_neg noReturn]
  | case4 => rfl

private theorem slashed_of_noSign {comment : String}
    (noSign : ∀ rest, comment.toList ≠ '#' :: rest) :
    slashed comment = comment := by
  unfold slashed
  split
  · next rest begins => exact absurd begins (noSign rest)
  · rfl

/-- The slash form of a comment does not depend on its line endings. -/
theorem lineFeeds_slashed (comment : String) :
    lineFeeds (slashed comment) = slashed (lineFeeds comment) := by
  by_cases sign : ∃ rest, comment.toList = '#' :: rest
  · obtain ⟨rest, text⟩ := sign
    rw [← String.toList_inj, toList_lineFeeds]
    simp [slashed, text, toList_lineFeeds, Source.lineFeeds]
  · have noSign (rest : List Char) : comment.toList ≠ '#' :: rest :=
      fun begins => sign ⟨rest, begins⟩
    have noSign' (rest : List Char) : (lineFeeds comment).toList ≠ '#' :: rest := by
      intro begins
      have head := head?_lineFeeds comment.toList
      rw [← toList_lineFeeds, begins] at head
      obtain ⟨first, starts, same⟩ := Option.map_eq_some_iff.mp head.symm
      obtain ⟨others, text⟩ := List.head?_eq_some_iff.mp starts
      split at same
      · cases same
      · exact noSign others (same ▸ text)
    rw [slashed_of_noSign noSign, slashed_of_noSign noSign']

/-- Joined comments are rewritten one by one, since what joins them is a line feed. -/
theorem lineFeeds_join (comments : List String) : Source.lineFeeds (join comments).toList =
    ['\n'].intercalate (comments.map fun comment => Source.lineFeeds comment.toList) := by
  have toList (comments : List String) : (join comments).toList =
      ['\r', '\n'].intercalate (comments.map String.toList) := String.toList_intercalate
  induction comments with
  | nil => rfl
  | cons first others ih =>
      cases others with
      | nil =>
          rw [toList]
          simp
      | cons second further =>
          rw [toList] at ih ⊢
          rw [List.map_cons, List.map_cons, List.intercalate_cons_cons, ← List.map_cons,
            List.append_assoc, Source.lineFeeds_append _ (by simp), List.cons_append,
            List.cons_append, List.nil_append, Source.lineFeeds, ih]
          simp only [List.map_cons, List.intercalate_cons_cons, List.append_assoc,
            List.singleton_append]

end Comment

namespace Source

namespace LineEnding

/-- The characters of a line ending. -/
def chars : LineEnding → List Char
  | both => ['\r', '\n']
  | returnAlone => ['\r']

/-- A character with this line ending if it is a line feed. -/
def writeChar (ending : LineEnding) (char : Char) : List Char :=
  if char = '\n' then ending.chars else [char]

/-- A text with this line ending in the place of line feeds. -/
def write (ending : LineEnding) (text : List Char) : List Char :=
  text.flatMap ending.writeChar

/-- A source text with this line ending in the place of line feeds. -/
def rewrite (ending : LineEnding) (source : String) : String :=
  String.ofList (ending.write source.toList)

variable (ending : LineEnding)

@[simp] theorem write_nil : ending.write [] = [] := rfl

/-- Texts in a row are rewritten one by one. -/
@[simp] theorem write_append (front back : List Char) :
    ending.write (front ++ back) = ending.write front ++ ending.write back :=
  List.flatMap_append

private theorem write_feed (rest : List Char) :
    ending.write ('\n' :: rest) = ending.chars ++ ending.write rest := rfl

/-- A character that breaks no line is written as it is. -/
theorem write_cons {char : Char} (plain : char ≠ '\n') (rest : List Char) :
    ending.write (char :: rest) = char :: ending.write rest := by
  simp [write, writeChar, plain]

/-- A text within a line stays as it is. -/
theorem write_of_notMem {text : List Char} (plain : '\n' ∉ text) : ending.write text = text := by
  induction text with
  | nil => rfl
  | cons char rest ih =>
      rw [List.mem_cons, not_or] at plain
      rw [write_cons ending (Ne.symm plain.1), ih plain.2]

/-- The first character of a text, with a carriage return for a line feed. -/
theorem head?_write (text : List Char) : (ending.write text).head? =
    text.head?.map fun char => if char = '\n' then '\r' else char := by
  cases text with
  | nil => rfl
  | cons char rest =>
      by_cases feed : char = '\n'
      · subst feed
        cases ending <;> rfl
      · rw [write_cons ending feed, List.head?_cons, List.head?_cons, Option.map_some, if_neg feed]

/-- What begins a text otherwise than with a carriage return has begun it before. -/
theorem exists_cons_of_write {text more : List Char} {first : Char} (noReturn : first ≠ '\r')
    (begins : ending.write text = first :: more) :
    first ≠ '\n' ∧ ∃ others, text = first :: others := by
  have head := head?_write ending text
  rw [begins] at head
  cases text with
  | nil => cases head
  | cons char others =>
      simp only [List.head?_cons, Option.map_some, Option.some.injEq] at head
      split at head
      · exact absurd head noReturn
      · next noFeed => exact ⟨head ▸ noFeed, others, by rw [head]⟩

/-- Only the empty text is rewritten as the empty text. -/
theorem write_eq_nil {text : List Char} : ending.write text = [] ↔ text = [] := by
  rw [← List.head?_eq_none_iff, head?_write, Option.map_eq_none_iff, List.head?_eq_none_iff]

/-- Rewriting makes no text shorter. -/
theorem length_le_write (text : List Char) : text.length ≤ (ending.write text).length := by
  induction text with
  | nil => exact Nat.le_refl _
  | cons char rest ih =>
      by_cases feed : char = '\n'
      · subst feed
        rw [write_feed, List.length_append, List.length_cons]
        cases ending <;> simp only [chars, List.length_cons, List.length_nil] <;> omega
      · rw [write_cons ending feed, List.length_cons, List.length_cons]
        omega

/-- **Reading line endings as line feeds** undoes the choice of the line ending. -/
theorem lineFeeds_write {text : List Char} (plain : '\r' ∉ text) :
    lineFeeds (ending.write text) = text := by
  induction text with
  | nil => rfl
  | cons char rest ih =>
      rw [List.mem_cons, not_or] at plain
      by_cases feed : char = '\n'
      · subst feed
        rw [write_feed]
        cases ending with
        | both =>
            rw [chars, List.cons_append, List.cons_append, List.nil_append, lineFeeds, ih plain.2]
        | returnAlone =>
            rw [chars, List.cons_append, List.nil_append, lineFeeds, ih plain.2]
            exact fun others begins =>
              (exists_cons_of_write returnAlone (by decide) begins).1 rfl
      · rw [write_cons ending feed, lineFeeds, ih plain.2]
        · rintro _ rfl
          exact absurd rfl plain.1
        · rintro rfl
          exact absurd rfl plain.1

/-- The line endings of a text are counted by the characters that they consist of. -/
theorem count_write {text : List Char} (plain : '\r' ∉ text) :
    (ending.write text).count '\n' = (if ending = both then text.count '\n' else 0) ∧
      (ending.write text).count '\r' = text.count '\n' := by
  induction text with
  | nil => cases ending <;> exact ⟨rfl, rfl⟩
  | cons char rest ih =>
      rw [List.mem_cons, not_or] at plain
      obtain ⟨feeds, returns⟩ := ih plain.2
      by_cases feed : char = '\n'
      · subst feed
        rw [write_feed, List.count_append, List.count_append, feeds, returns]
        cases ending <;> simp [chars] <;> omega
      · rw [write_cons ending feed, List.count_cons_of_ne feed,
          List.count_cons_of_ne (Ne.symm plain.1), List.count_cons_of_ne feed]
        exact ⟨feeds, returns⟩

/-! ## Runs -/

/-- Whether a test tells no line feed from a carriage return, and passes neither. -/
def Within (test : Char → Bool) : Prop :=
  test '\n' = false ∧ test '\r' = false

variable {ending} {test : Char → Bool}

/-- A test that no line break passes has the same answer on the rewritten text. -/
theorem head?_any_write (inLine : Within test) (text : List Char) :
    (ending.write text).head?.any test = text.head?.any test := by
  rw [head?_write]
  cases text.head? with
  | none => rfl
  | some char =>
      rw [Option.map_some, Option.any_some, Option.any_some]
      split
      · next feed => rw [feed, inLine.1, inLine.2]
      · rfl

/-- A run that stays inside a line is not rewritten. -/
theorem takeWhile_write (inLine : Within test) (text : List Char) :
    (ending.write text).takeWhile test = text.takeWhile test := by
  induction text with
  | nil => rfl
  | cons char rest ih =>
      by_cases feed : char = '\n'
      · subst feed
        rw [write_feed, List.takeWhile_cons_of_neg (by simp [inLine.1])]
        cases ending <;> exact List.takeWhile_cons_of_neg (by simp [inLine.2])
      · rw [write_cons ending feed, List.takeWhile_cons, List.takeWhile_cons, ih]

/-- A word within a line begins a text with either line ending. -/
theorem isPrefixOf_write {word : List Char} (feed : '\n' ∉ word) (back : '\r' ∉ word)
    (text : List Char) : word.isPrefixOf (ending.write text) = word.isPrefixOf text := by
  induction word generalizing text with
  | nil => simp
  | cons first others ih =>
      rw [List.mem_cons, not_or] at feed back
      cases text with
      | nil => rfl
      | cons char rest =>
          by_cases isFeed : char = '\n'
          · subst isFeed
            have noFeed : (first == '\n') = false := by simpa using Ne.symm feed.1
            have noBack : (first == '\r') = false := by simpa using Ne.symm back.1
            rw [write_feed]
            cases ending <;>
              simp only [chars, List.cons_append, List.isPrefixOf_cons_cons, noFeed, noBack,
                Bool.false_and]
          · rw [write_cons ending isFeed, List.isPrefixOf_cons_cons, List.isPrefixOf_cons_cons,
              ih feed.2 back.2]

/-! ## Gaps -/

/-- The pieces that stand for a piece of a gap. -/
def pieces (ending : LineEnding) : Piece → List Piece
  | .space char => [.space char]
  | .lineBreak char => (ending.writeChar char).map .lineBreak
  | .block text => [.block (ending.write text)]
  | .line text => [.line text]

/-- A comment that is closed is closed in the same place with any line ending. -/
theorem throughCommentEnd?_write (text : List Char) :
    throughCommentEnd? (ending.write text) = (throughCommentEnd? text).map ending.write := by
  fun_induction throughCommentEnd? text with
  | case1 rest => rfl
  | case2 char rest noEnd ih =>
      rw [Option.map_map]
      by_cases feed : char = '\n'
      · subst feed
        have noEnds (more : List Char) :
            throughCommentEnd? (ending.chars ++ more) =
              (throughCommentEnd? more).map (ending.chars ++ ·) := by
          cases ending <;> simp [chars, throughCommentEnd?, Function.comp_def]
        rw [write_feed, noEnds, ih, Option.map_map]
        rfl
      · have noEnds : throughCommentEnd? (char :: ending.write rest) =
            (throughCommentEnd? (ending.write rest)).map (char :: ·) := by
          rw [throughCommentEnd?]
          rintro others rfl closes
          obtain ⟨-, before, same⟩ := exists_cons_of_write ending (by decide) closes
          exact noEnd before rfl same
        rw [write_cons ending feed, noEnds, ih, Option.map_map]
        refine congrArg (Option.map · _) (funext fun body => ?_)
        exact (write_cons ending feed body).symm
  | case3 => rfl

private theorem isLineBreak_within : Within fun char => !isLineBreak char :=
  ⟨rfl, rfl⟩

/-- The rest of a line has no line feed in it. -/
theorem notMem_line (text : List Char) : '\n' ∉ text.takeWhile fun char => !isLineBreak char :=
  fun member => absurd (List.mem_takeWhile_imp member) (by decide)

/-- The rest of a line is the same with any line ending. -/
theorem line_write (text : List Char) :
    ((ending.write text).takeWhile fun char => !isLineBreak char) =
      text.takeWhile fun char => !isLineBreak char :=
  takeWhile_write isLineBreak_within text

/-- A line break becomes several, and any other piece one of the same kind. -/
theorem next?_write (ending : LineEnding) {text : List Char} (plain : '\r' ∉ text) :
    match Piece.next? text with
    | none => Piece.next? (ending.write text) = none
    | some piece => piece = .lineBreak '\n' ∨ ∃ other, ending.pieces piece = [other] ∧
        other.chars = ending.write piece.chars ∧ Piece.next? (ending.write text) = some other := by
  have line (mark : List Char) (plain : '\n' ∉ mark) (rest : List Char) :
      ending.write (mark ++ rest.takeWhile fun char => !isLineBreak char) =
        mark ++ rest.takeWhile fun char => !isLineBreak char :=
    write_of_notMem ending (by simpa using ⟨plain, notMem_line rest⟩)
  fun_cases Piece.next? text with
  | case1 => rfl
  | case2 rest =>
      rw [write_cons ending (by decide), write_cons ending (by decide), Piece.next?,
        throughCommentEnd?_write]
      cases throughCommentEnd? rest with
      | none => rfl
      | some body =>
          refine .inr ⟨.block (ending.write ('/' :: '*' :: body)), rfl, rfl, ?_⟩
          rw [write_cons ending (by decide), write_cons ending (by decide)]
          rfl
  | case3 rest =>
      refine .inr ⟨_, rfl, (line ['/', '/'] (by decide) rest).symm, ?_⟩
      rw [write_cons ending (by decide), write_cons ending (by decide), Piece.next?, line_write]
  | case4 char rest _ _ space =>
      have noFeed : char ≠ '\n' := by rintro rfl; cases space
      refine .inr ⟨.space char, rfl, (write_cons ending noFeed []).symm, ?_⟩
      rw [write_cons ending noFeed]
      exact Piece.next?_space space _
  | case5 char rest _ _ _ breaks =>
      -- Only a line break is written as several pieces, and here it is a line feed.
      refine .inl ?_
      simp only [isLineBreak, Bool.or_eq_true, beq_iff_eq] at breaks
      rcases breaks with rfl | rfl
      · rfl
      · simp at plain
  | case6 rest _ _ _ =>
      refine .inr ⟨_, rfl, (line ['#'] (by decide) rest).symm, ?_⟩
      rw [write_cons ending (by decide), Piece.next?, line_write, if_neg (by decide),
        if_neg (by decide), if_pos rfl]
      · exact fun _ isSlash => absurd isSlash (by decide)
      · exact fun _ isSlash => absurd isSlash (by decide)
  | case7 char rest noBlock noLine noSpace noBreak noSign =>
      have noFeed : char ≠ '\n' := by rintro rfl; exact noBreak rfl
      rw [write_cons ending noFeed, Piece.next?, if_neg noSpace, if_neg noBreak, if_neg noSign]
      · rintro more isSlash begins
        obtain ⟨-, others, same⟩ := exists_cons_of_write ending (by decide) begins
        exact noBlock others isSlash same
      · rintro more isSlash begins
        obtain ⟨-, others, same⟩ := exists_cons_of_write ending (by decide) begins
        exact noLine others isSlash same

/-- **The gap of a text with another line ending** has the pieces that stand for its pieces, and so
its characters with that line ending. -/
theorem gap_write (ending : LineEnding) {text : List Char} (plain : '\r' ∉ text) :
    gap (ending.write text) = (gap text).flatMap ending.pieces ∧
      gapChars (gap (ending.write text)) = ending.write (gapChars (gap text)) := by
  fun_induction gap text with
  | case1 text none =>
      have next := next?_write ending plain
      rw [none] at next
      rw [gap_of_none next]
      exact ⟨rfl, rfl⟩
  | case2 text piece found ih =>
      have next := next?_write ending plain
      obtain ⟨rest, rfl⟩ := Piece.chars_of_next? found
      rw [found] at next
      rw [List.drop_left] at ih ⊢
      rw [List.mem_append, not_or] at plain
      obtain ⟨ih, ihChars⟩ := ih plain.2
      have chars : gapChars (piece :: gap rest) = piece.chars ++ gapChars (gap rest) := rfl
      rw [List.flatMap_cons, ← ih, chars, write_append ending piece.chars (gapChars _), ← ihChars]
      rcases next with rfl | ⟨other, single, same, found⟩
      -- A line feed becomes one piece or two, all of them line breaks.
      · have feed : gap (ending.write ((Piece.lineBreak '\n').chars ++ rest)) =
            ending.pieces (.lineBreak '\n') ++ gap (ending.write rest) := by
          rw [write_append]
          cases ending
          · exact (gap_lineBreak rfl _).trans (congrArg _ (gap_lineBreak rfl _))
          · exact gap_lineBreak rfl _
        rw [feed, gapChars_append]
        cases ending <;> exact ⟨rfl, rfl⟩
      · have step :
            gap (ending.write (piece.chars ++ rest)) = other :: gap (ending.write rest) := by
          rw [gap_of_some found, same, write_append, List.drop_left]
        rw [step, single, ← same]
        exact ⟨rfl, rfl⟩

/-! ## The lines and the comments of a gap -/

private theorem isBreak_pieces {piece other : Piece} (member : other ∈ ending.pieces piece) :
    other.isBreak = piece.isBreak := by
  cases piece with
  | lineBreak char =>
      obtain ⟨char, -, rfl⟩ := List.mem_map.mp member
      rfl
  | _ =>
      cases List.mem_singleton.mp member
      rfl

private theorem pieces_ne_nil (piece : Piece) : ending.pieces piece ≠ [] := by
  cases piece with
  | lineBreak char =>
      rw [pieces, ne_eq, List.map_eq_nil_iff, writeChar]
      split
      · cases ending <;> exact List.cons_ne_nil _ _
      · exact List.cons_ne_nil _ _
  | _ => exact List.cons_ne_nil _ _

/-- The first line of a gap ends at the same piece, and so do the later lines begin. -/
theorem lines_pieces (ending : LineEnding) (gap : List Piece) :
    firstLine (gap.flatMap ending.pieces) = (firstLine gap).flatMap ending.pieces ∧
      laterLines (gap.flatMap ending.pieces) = (laterLines gap).flatMap ending.pieces := by
  induction gap with
  | nil => exact ⟨rfl, rfl⟩
  | cons piece rest ih =>
      unfold firstLine laterLines at ih ⊢
      rw [List.flatMap_cons]
      by_cases isBreak : piece.isBreak
      · obtain ⟨first, others, same⟩ := List.exists_cons_of_ne_nil (ending.pieces_ne_nil piece)
        have firstBreak : first.isBreak = true := by
          have member : first ∈ ending.pieces piece := by
            rw [same]
            exact List.mem_cons_self
          rw [isBreak_pieces member, isBreak]
        rw [same, List.cons_append, List.takeWhile_cons_of_neg (by simp [firstBreak]),
          List.dropWhile_cons_of_neg (by simp [firstBreak]),
          List.takeWhile_cons_of_neg (by simp [isBreak]),
          List.dropWhile_cons_of_neg (by simp [isBreak]), List.flatMap_cons, same]
        exact ⟨rfl, rfl⟩
      · have inLine : ∀ other ∈ ending.pieces piece, !other.isBreak := fun other member => by
          simpa [isBreak_pieces member] using isBreak
        rw [List.takeWhile_append_of_pos inLine, List.dropWhile_append_of_pos inLine, ih.1, ih.2,
          List.takeWhile_cons_of_pos (by simpa using isBreak),
          List.dropWhile_cons_of_pos (by simpa using isBreak), List.flatMap_cons]
        exact ⟨rfl, rfl⟩

/-- The comments of a gap say the same once line endings are read as line feeds. -/
theorem gapComments_pieces {gap : List Piece} (plain : '\r' ∉ gapChars gap) :
    (gapComments (gap.flatMap ending.pieces)).map Comment.lineFeeds =
      (gapComments gap).map Comment.lineFeeds := by
  induction gap with
  | nil => rfl
  | cons piece rest ih =>
      have chars : gapChars (piece :: rest) = piece.chars ++ gapChars rest := rfl
      rw [chars, List.mem_append, not_or] at plain
      unfold gapComments at ih ⊢
      rw [List.flatMap_cons, List.filterMap_append, List.map_append, ih plain.2]
      cases piece with
      | space char => rfl
      | lineBreak char =>
          have none : (ending.pieces (.lineBreak char)).filterMap Piece.comment? = [] := by
            refine List.filterMap_eq_nil_iff.mpr fun other member => ?_
            obtain ⟨_, -, rfl⟩ := List.mem_map.mp member
            rfl
          rw [none]
          rfl
      | block text =>
          have plain : '\r' ∉ text := plain.1
          have same : lineFeeds (ending.write text) = lineFeeds text := by
            rw [lineFeeds_write ending plain, lineFeeds_of_notMem plain]
          simp [pieces, Piece.comment?, Comment.lineFeeds, same]
      | line text => rfl

end LineEnding

end Source
end ThriftIdl
