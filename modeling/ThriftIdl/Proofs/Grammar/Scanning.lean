import ThriftIdl.Proofs.Grammar.Number
import ThriftIdl.Proofs.Source.Bytes
import ThriftIdl.Text.Letter

/-!
# Scanning by bytes

What the rules read in one piece — gaps, words, paths and quoted texts — is here read by a scanner,
which looks at single bytes and counts in bytes. Some of its loops pass over bytes of longer
characters one by one: the search for the end of a comment, and the search for a closing quote,
which takes two bytes for a backslash and what it hides. At a place within a source text every
such loop finds what the reading of characters finds, and stops between two characters
(`Within.piece?_eq`, `Within.skip_eq`, `Within.quoted?_eq`, `Within.path_eq`).
-/

namespace ThriftIdl.Source

namespace Scanner

/-- The bytes from a number of bytes ahead on. -/
def ahead (scanner : Scanner) (count : Nat) : List UInt8 :=
  scanner.bytes.data.toList.drop (scanner.cursor.offset + count)

/-- How many bytes are left. -/
def left (scanner : Scanner) : Nat :=
  scanner.bytes.size - scanner.cursor.offset

/-- How many bytes stand before the first comment end. -/
def commentEnd? : List UInt8 → Option Nat
  | [] => none
  | byte :: rest =>
    if byte = 0x2a ∧ rest.head? = some 0x2f then some 0
    else (commentEnd? rest).map (· + 1)

/-- How many bytes stand before the closing quote. With escapes in force, a backslash takes the next
byte out of consideration. -/
def closing? (quote : UInt8) (escapes : Bool) : List UInt8 → Option Nat
  | [] => none
  | byte :: rest =>
    if byte = quote then some 0
    else if escapes && byte == 0x5c then (closing? quote escapes (rest.drop 1)).map (· + 2)
    else (closing? quote escapes rest).map (· + 1)
termination_by bytes => bytes.length
decreasing_by all_goals grind

/-- The block comment at the place, and the place behind it. -/
def blockComment? (scanner : Scanner) : Option (Piece × Scanner) :=
  if scanner.startsWith "/*" then
    (commentEnd? (scanner.ahead 2)).map fun index =>
      let first := scanner.cursor.offset
      (.block (scanner.slice first (first + (index + 4))).toList, scanner.advance (index + 4))
  else none

/-- The line comment at the place, and the place behind it. -/
def lineComment? (scanner : Scanner) : Option (Piece × Scanner) :=
  if scanner.startsWith "//" || scanner.startsWith "#" then
    let (text, next) := scanner.takeWhile fun byte => !byteTest isLineBreak byte
    some (.line text.toList, next)
  else none

/-- The piece of a gap at the place, and the place behind it. -/
def piece? (scanner : Scanner) : Option (Piece × Scanner) :=
  match scanner.peek with
  | none => none
  | some byte =>
    if byteTest isLineBreak byte then
      some (.lineBreak (Char.ofNat byte.toNat), scanner.advance 1)
    else if byteTest isSpace byte then
      some (.space (Char.ofNat byte.toNat), scanner.advance 1)
    else scanner.blockComment?.or scanner.lineComment?

/-! ### Each piece takes bytes -/

private theorem left_advance (scanner : Scanner) (count : Nat) :
    (scanner.advance count).left = scanner.left - count := by
  have size : (scanner.advance count).bytes.size = scanner.bytes.size := rfl
  have offset : (scanner.advance count).cursor.offset =
      min (scanner.cursor.offset + count) scanner.bytes.size := rfl
  rw [left, left, size, offset]
  omega

private theorem left_advance_lt {scanner : Scanner} {count : Nat} (positive : 0 < count)
    (inside : scanner.cursor.offset < scanner.bytes.size) :
    (scanner.advance count).left < scanner.left := by
  rw [left_advance]
  exact Nat.sub_lt (Nat.sub_pos_of_lt inside) positive

private theorem left_advance_le (scanner : Scanner) (count : Nat) :
    (scanner.advance count).left ≤ scanner.left := by
  rw [left_advance]
  exact Nat.sub_le _ _

/-- A text that is left is the text of the bytes from the place on. -/
theorem encode_rest {scanner : Scanner} (left : scanner.rest ≠ "") :
    encode scanner.rest.toList = scanner.bytes.data.toList.drop scanner.cursor.offset := by
  unfold rest textFrom slice slice? at left ⊢
  split at left
  · next inside =>
    unfold String.fromUTF8? at left ⊢
    split at left
    · next valid =>
      rw [if_pos inside, dif_pos valid, Option.getD_some, ← bytes_eq]
      have bytes : (String.fromUTF8 (scanner.bytes.extract scanner.cursor.offset
          scanner.bytes.size) valid).toUTF8 =
            scanner.bytes.extract scanner.cursor.offset scanner.bytes.size := rfl
      have size : scanner.bytes.size = scanner.bytes.data.toList.length := by
        rw [Array.length_toList]
        rfl
      rw [bytes, ByteArray.data_extract, Array.toList_extract, List.extract_eq_take_drop, size,
        ← List.length_drop, List.take_length]
    · exact absurd rfl left
  · exact absurd rfl left

/-- Where a word stands, its first byte stands. -/
theorem peek_of_startsWith {scanner : Scanner} {first : Char} {others : List Char} {word : String}
    (spelled : word.toList = first :: others) (ascii : first.toNat < 128)
    (starts : scanner.startsWith word) :
    scanner.bytes.data.toList.drop scanner.cursor.offset =
      UInt8.ofNat first.toNat :: encode (scanner.rest.toList.drop 1) := by
  rw [startsWith, spelled, List.isPrefixOf_iff_prefix] at starts
  obtain ⟨more, text⟩ := starts
  have left : scanner.rest ≠ "" := by
    intro empty
    rw [empty] at text
    cases text
  rw [← encode_rest left, ← text, List.cons_append, encode_cons, utf8EncodeChar_of_ascii ascii]
  rfl

private theorem inside_of_drop {scanner : Scanner} {byte : UInt8} {rest : List UInt8}
    (bytes : scanner.bytes.data.toList.drop scanner.cursor.offset = byte :: rest) :
    scanner.cursor.offset < scanner.bytes.size := by
  have size : scanner.bytes.size = scanner.bytes.data.toList.length := by
    rw [Array.length_toList]
    rfl
  have length := congrArg List.length bytes
  rw [List.length_drop, List.length_cons] at length
  omega

private theorem left_lt_of_blockComment? {scanner next : Scanner} {piece : Piece}
    (found : scanner.blockComment? = some (piece, next)) : next.left < scanner.left := by
  unfold blockComment? at found
  split at found
  · next opened =>
    obtain ⟨index, -, same⟩ := Option.map_eq_some_iff.mp found
    cases same
    have bytes := peek_of_startsWith rfl (by decide) opened
    exact left_advance_lt (by omega) (inside_of_drop bytes)
  · cases found

private theorem left_lt_of_lineComment? {scanner next : Scanner} {piece : Piece}
    (found : scanner.lineComment? = some (piece, next)) : next.left < scanner.left := by
  -- A line comment begins with a byte that is no line break, so its run is not empty.
  have runs {first : Char} {others : List Char} {word : String}
      (spelled : word.toList = first :: others) (ascii : first.toNat < 128)
      (plain : isLineBreak first = false) (starts : scanner.startsWith word) :
      (scanner.advance (scanner.runLength fun byte => !byteTest isLineBreak byte)).left <
        scanner.left := by
    have bytes := peek_of_startsWith spelled ascii starts
    refine left_advance_lt ?_ (inside_of_drop bytes)
    have passes : (!byteTest isLineBreak (UInt8.ofNat first.toNat)) = true := by
      rw [byteTest_of_ascii isLineBreak ascii, plain]
      rfl
    rw [runLength, bytes, List.takeWhile_cons, if_pos passes]
    exact Nat.succ_pos _
  unfold lineComment? at found
  split at found
  · next opened =>
    cases found
    rcases Bool.or_eq_true_iff.mp opened with slashes | sign
    · exact runs rfl (by decide) rfl slashes
    · exact runs rfl (by decide) rfl sign
  · cases found

/-- No piece is empty. -/
theorem left_lt_of_piece? {scanner next : Scanner} {piece : Piece}
    (found : scanner.piece? = some (piece, next)) : next.left < scanner.left := by
  unfold piece? at found
  split at found
  · cases found
  · next byte peeked =>
    have inside : scanner.cursor.offset < scanner.bytes.size := by
      obtain ⟨within, -⟩ := Array.getElem?_eq_some_iff.mp peeked
      exact within
    split at found
    · cases found
      exact left_advance_lt (by omega) inside
    · split at found
      · cases found
        exact left_advance_lt (by omega) inside
      · rcases Option.or_eq_some_iff.mp found with block | ⟨-, line⟩
        · exact left_lt_of_blockComment? block
        · exact left_lt_of_lineComment? line

/-! ### Whole gaps, words, paths and quoted texts -/

/-- Pass a gap up to the end of the line, with the comments on the way. -/
def skipLine (scanner : Scanner) : List String × Scanner :=
  match _found : scanner.piece? with
  | none => ([], scanner)
  | some (piece, next) =>
    if piece.isBreak then ([], next)
    else (piece.comment?.toList ++ next.skipLine.1, next.skipLine.2)
termination_by scanner.left
decreasing_by all_goals exact left_lt_of_piece? _found

/-- Pass a gap to its end, with the comments on the way. -/
def skipLines (scanner : Scanner) : List String × Scanner :=
  match _found : scanner.piece? with
  | none => ([], scanner)
  | some (piece, next) => (piece.comment?.toList ++ next.skipLines.1, next.skipLines.2)
termination_by scanner.left
decreasing_by all_goals exact left_lt_of_piece? _found

/-- The segments of a dotted path, and the place behind it. -/
def path (scanner : Scanner) : List String × Scanner :=
  let run := scanner.takeWhile (byteTest Parser.isIdentChar)
  if _dot : run.2.peek = some 0x2e ∧ (run.2.peekAt 1).any (byteTest Parser.isIdentStart) then
    (run.1 :: (run.2.advance 1).path.1, (run.2.advance 1).path.2)
  else ([run.1], run.2)
termination_by scanner.left
decreasing_by all_goals
  obtain ⟨within, -⟩ := Array.getElem?_eq_some_iff.mp _dot.1
  exact Nat.lt_of_lt_of_le (left_advance_lt Nat.one_pos within) (left_advance_le _ _)

/-- The raw text between two quotes of the same kind, and the place behind the closing one. -/
def quoted? (scanner : Scanner) (escapes : Bool) : Option (String × Scanner) :=
  match scanner.peek with
  | none => none
  | some quote =>
    if byteTest Parser.isQuote quote then
      (closing? quote escapes (scanner.ahead 1)).map fun index =>
        let first := scanner.cursor.offset + 1
        (scanner.slice first (first + index), scanner.advance (index + 2))
    else none

end Scanner

/-! ## Searches among the bytes of a text -/

private theorem head?_encode_eq_iff (char : Char) (ascii : char.toNat < 128) (text : List Char) :
    (encode text).head? = some (UInt8.ofNat char.toNat) ↔ text.head? = some char := by
  cases text with
  | nil => simp
  | cons first rest =>
      by_cases small : first.toNat < 128
      · rw [encode_cons, utf8EncodeChar_of_ascii small, List.singleton_append, List.head?_cons,
          List.head?_cons, Option.some_inj, Option.some_inj, ofNat_toNat_eq_iff _ _ small ascii]
      · obtain ⟨byte, others, spelled⟩ :=
          List.exists_cons_of_ne_nil (String.utf8EncodeChar_ne_nil (c := first))
        have apart : byte ≠ UInt8.ofNat char.toNat :=
          ne_of_wide (le_toNat_of_mem_utf8EncodeChar (Nat.le_of_not_lt small) (by simp [spelled]))
            char ascii
        have other : first ≠ char := by
          rintro rfl
          exact small ascii
        rw [encode_cons, spelled, List.cons_append, List.head?_cons, List.head?_cons]
        simp [apart, other]

namespace Scanner

private theorem commentEnd?_of_wide {bytes : List UInt8} (wide : ∀ byte ∈ bytes, 128 ≤ byte.toNat)
    (rest : List UInt8) :
    commentEnd? (bytes ++ rest) = (commentEnd? rest).map (· + bytes.length) := by
  induction bytes with
  | nil => simp
  | cons byte others ih =>
      have noStar : byte ≠ 0x2a := ne_of_wide (wide byte (by simp)) '*' (by decide)
      rw [List.cons_append, commentEnd?, if_neg fun both => noStar both.1,
        ih fun later member => wide later (by simp [member]), Option.map_map]
      rfl

/-- The search for a comment end passes a character that begins none as a whole. -/
theorem commentEnd?_char {char : Char} {rest : List Char}
    (noEnd : ¬(char = '*' ∧ rest.head? = some '/')) :
    commentEnd? (encode (char :: rest)) =
      (commentEnd? (encode rest)).map (· + (String.utf8EncodeChar char).length) := by
  rw [encode_cons]
  by_cases ascii : char.toNat < 128
  · have other : ¬(UInt8.ofNat char.toNat = 0x2a ∧ (encode rest).head? = some 0x2f) := by
      rintro ⟨star, slash⟩
      exact noEnd ⟨(ofNat_toNat_eq_iff char '*' ascii (by decide)).mp star,
        (head?_encode_eq_iff '/' (by decide) rest).mp slash⟩
    rw [utf8EncodeChar_of_ascii ascii, List.singleton_append, commentEnd?, if_neg other]
    rfl
  · exact commentEnd?_of_wide (fun byte member =>
      le_toNat_of_mem_utf8EncodeChar (Nat.le_of_not_lt ascii) member) _

/-- The first comment end among the bytes of a text is the first one of the text. -/
theorem commentEnd?_encode (text : List Char) :
    (commentEnd? (encode text)).map (· + 2) =
      (throughCommentEnd? text).map fun body => (encode body).length := by
  fun_induction throughCommentEnd? text with
  | case1 rest => rfl
  | case2 char rest noEnd ih =>
      have other : ¬(char = '*' ∧ rest.head? = some '/') := by
        rintro ⟨star, slash⟩
        obtain ⟨more, rfl⟩ := List.head?_eq_some_iff.mp slash
        exact noEnd more star rfl
      rw [commentEnd?_char other]
      cases found : throughCommentEnd? rest with
      | none =>
          rw [found] at ih
          rw [Option.map_eq_none_iff.mp ih]
          rfl
      | some body =>
          rw [found] at ih
          obtain ⟨index, indexFound, size⟩ := Option.map_eq_some_iff.mp ih
          simp only [indexFound, Option.map_some, encode_cons, List.length_append, Option.some_inj,
            ← size]
          omega
  | case3 => rfl

private theorem closing?_of_wide {quote : Char} (ascii : quote.toNat < 128) (escapes : Bool)
    {bytes : List UInt8} (wide : ∀ byte ∈ bytes, 128 ≤ byte.toNat) (rest : List UInt8) :
    closing? (UInt8.ofNat quote.toNat) escapes (bytes ++ rest) =
      (closing? (UInt8.ofNat quote.toNat) escapes rest).map (· + bytes.length) := by
  induction bytes with
  | nil => simp
  | cons byte others ih =>
      have here : 128 ≤ byte.toNat := wide byte (by simp)
      have noQuote : byte ≠ UInt8.ofNat quote.toNat := ne_of_wide here quote ascii
      have noEscape : (escapes && byte == 0x5c) = false := by
        have noBackslash : byte ≠ 0x5c := ne_of_wide here '\\' (by decide)
        simp [noBackslash]
      rw [List.cons_append, closing?, if_neg noQuote, noEscape, if_neg Bool.false_ne_true,
        ih fun later member => wide later (by simp [member]), Option.map_map]
      rfl

/-- The search for a closing quote passes a character that neither closes nor hides as a whole. -/
theorem closing?_char {quote char : Char} {escapes : Bool} (ascii : quote.toNat < 128)
    (other : char ≠ quote) (plain : (escapes && char == '\\') = false) (rest : List UInt8) :
    closing? (UInt8.ofNat quote.toNat) escapes (String.utf8EncodeChar char ++ rest) =
      (closing? (UInt8.ofNat quote.toNat) escapes rest).map
        (· + (String.utf8EncodeChar char).length) := by
  by_cases small : char.toNat < 128
  · have noQuote : UInt8.ofNat char.toNat ≠ UInt8.ofNat quote.toNat :=
      fun same => other ((ofNat_toNat_eq_iff char quote small ascii).mp same)
    have backslash : (UInt8.ofNat char.toNat == 0x5c) = (char == '\\') := by
      rw [Bool.eq_iff_iff, beq_iff_eq, beq_iff_eq]
      exact ofNat_toNat_eq_iff char '\\' small (by decide)
    rw [utf8EncodeChar_of_ascii small, List.singleton_append, closing?, if_neg noQuote, backslash,
      plain, if_neg Bool.false_ne_true]
    rfl
  · exact closing?_of_wide ascii escapes (fun byte member =>
      le_toNat_of_mem_utf8EncodeChar (Nat.le_of_not_lt small) member) rest

private theorem closing?_backslash {quote : Char} (ascii : quote.toNat < 128)
    (noEscape : '\\' ≠ quote)
    (rest : List UInt8) :
    closing? (UInt8.ofNat quote.toNat) true (encode ['\\'] ++ rest) =
      (closing? (UInt8.ofNat quote.toNat) true (rest.drop 1)).map (· + 2) := by
  have apart : (0x5c : UInt8) ≠ UInt8.ofNat quote.toNat :=
    fun same => noEscape ((ofNat_toNat_eq_iff '\\' quote (by decide) ascii).mp same)
  have hides : (true && (0x5c : UInt8) == 0x5c) = true := rfl
  have bytes : encode ['\\'] ++ rest = 0x5c :: rest := rfl
  rw [bytes, closing?, if_neg apart, if_pos hides]

/-- Two bytes behind a backslash the search goes on among the bytes of the character it hides. None
of them closes, so the search is as good as behind that character. -/
theorem closing?_hidden {quote : Char} (ascii : quote.toNat < 128) (noEscape : '\\' ≠ quote)
    (hidden : Char) (rest : List UInt8) :
    closing? (UInt8.ofNat quote.toNat) true
        (encode ['\\'] ++ (String.utf8EncodeChar hidden ++ rest)) =
      (closing? (UInt8.ofNat quote.toNat) true rest).map
        (· + (1 + (String.utf8EncodeChar hidden).length)) := by
  obtain ⟨byte, others, spelled⟩ :=
    List.exists_cons_of_ne_nil (String.utf8EncodeChar_ne_nil (c := hidden))
  have wide : ∀ later ∈ others, 128 ≤ later.toNat := by
    intro later member
    by_cases small : hidden.toNat < 128
    · rw [utf8EncodeChar_of_ascii small] at spelled
      cases spelled
      cases member
    · exact le_toNat_of_mem_utf8EncodeChar (Nat.le_of_not_lt small) (by simp [spelled, member])
  rw [closing?_backslash ascii noEscape, spelled, List.cons_append, List.drop_one, List.tail_cons,
    closing?_of_wide ascii true wide, Option.map_map]
  congr 1
  funext index
  simp only [Function.comp_apply, List.length_cons]
  omega

/-- The closing quote among the bytes of a text is the one of the text. -/
theorem closing?_encode {quote : Char} (ascii : quote.toNat < 128) (noEscape : '\\' ≠ quote)
    (escapes : Bool) (text : List Char) :
    closing? (UInt8.ofNat quote.toNat) escapes (encode text) =
      (Text.throughQuote? quote escapes text).map fun raw => (encode raw).length := by
  fun_induction Text.throughQuote? quote escapes text with
  | case1 =>
      rw [encode_nil, closing?]
      rfl
  | case2 rest =>
      rw [encode_cons, utf8EncodeChar_of_ascii ascii, List.singleton_append, closing?, if_pos rfl]
      rfl
  | case3 char noQuote hides =>
      obtain ⟨rfl, backslash⟩ := Bool.and_eq_true_iff.mp hides
      have ended := closing?_backslash ascii noEscape []
      rw [List.append_nil, List.drop_nil, closing?] at ended
      rw [beq_iff_eq.mp backslash, ended]
      rfl
  | case4 char noQuote hides hidden others ih =>
      obtain ⟨rfl, backslash⟩ := Bool.and_eq_true_iff.mp hides
      have single : encode ['\\'] = String.utf8EncodeChar '\\' := rfl
      rw [beq_iff_eq.mp backslash, encode_cons, encode_cons, ← single,
        closing?_hidden ascii noEscape, ih, Option.map_map, Option.map_map]
      congr 1
      funext raw
      have size : (String.utf8EncodeChar '\\').length = 1 := rfl
      simp only [Function.comp_apply, encode_cons, List.length_append, size]
      omega
  | case5 char rest noQuote plain ih =>
      rw [encode_cons, closing?_char ascii noQuote (Bool.eq_false_iff.mpr plain), ih,
        Option.map_map, Option.map_map]
      congr 1
      funext raw
      simp only [Function.comp_apply, encode_cons, List.length_append]
      omega

end Scanner

/-! ## Scanning at a place within a source text -/

namespace Ascii

/-! The tests that the rules make of single characters pass characters of one byte only. -/

private theorem or {left right : Char → Bool} (leftAscii : Ascii left) (rightAscii : Ascii right) :
    Ascii fun char => left char || right char := by
  intro char passes
  exact (Bool.or_eq_true_iff.mp passes).elim (leftAscii char) (rightAscii char)

private theorem beq {mark : Char} (ascii : mark.toNat < 128) : Ascii (· == mark) := by
  intro char same
  rw [beq_iff_eq.mp same]
  exact ascii

private theorem isLineBreak : Ascii isLineBreak :=
  (beq (by decide)).or (beq (by decide))

private theorem isSpace : Ascii isSpace :=
  (beq (by decide)).or (beq (by decide))

theorem isDigit : Ascii Char.isDigit := by
  intro char digit
  exact Text.toNat_lt_of_isDigit digit

private theorem isAlpha : Ascii Char.isAlpha := by
  intro char letter
  exact Text.toNat_lt_of_isAlpha letter

theorem isIdentStart : Ascii Parser.isIdentStart :=
  isAlpha.or (beq (by decide))

theorem isIdentChar : Ascii Parser.isIdentChar :=
  (isAlpha.or isDigit).or (beq (by decide))

theorem isNameChar : Ascii Parser.isNameChar :=
  isIdentChar.or (beq (by decide))

theorem isScopeChar : Ascii Parser.isScopeChar :=
  isIdentChar.or (beq (by decide))

theorem isHexDigit : Ascii Parser.isHexDigit := by
  intro char digit
  exact isIdentChar char (Grammar.isHexDigit_isIdentChar digit)

theorem isDecimalChar : Ascii Parser.isDecimalChar :=
  isDigit.or (beq (by decide))

theorem isSign : Ascii Parser.isSign :=
  (beq (by decide)).or (beq (by decide))

theorem isSeparator : Ascii Parser.isSeparator :=
  (beq (by decide)).or (beq (by decide))

theorem isQuote : Ascii Parser.isQuote :=
  (beq (by decide)).or (beq (by decide))

end Ascii

namespace Input.Within

variable {input : Input} {source : String}

private theorem peek_eq (within : input.Within source) :
    (input.scanner source).peek = (encode input.rest).head? := by
  rw [Scanner.peek, within.peekAt_eq, List.head?_eq_getElem?]

private theorem ahead_eq (within : input.Within source) (count : Nat) :
    (input.scanner source).ahead count = (encode input.rest).drop count := by
  rw [Scanner.ahead, ← List.drop_drop]
  exact congrArg (List.drop count) within.drop_bytes

private theorem slice_bytes (within : input.Within source) (count : Nat) :
    (input.scanner source).slice input.cursor.offset
        (input.cursor.offset + (encode (input.rest.take count)).length) =
      String.ofList (input.rest.take count) := by
  have cut := within.slice?_advance count
  rw [Input.advance, Cursor.offset_pass] at cut
  rw [Scanner.slice, cut, Option.getD_some]

private theorem startsWith_iff (within : input.Within source) (word : String) :
    (input.scanner source).startsWith word ↔ word.toList <+: input.rest := by
  rw [within.startsWith_eq, Input.startsWith, List.isPrefixOf_iff_prefix]

private theorem advance_one (within : input.Within source) {char : Char} {rest : List Char}
    (text : input.rest = char :: rest) (ascii : char.toNat < 128) :
    (input.scanner source).advance 1 = (input.advance 1).scanner source := by
  have size : (encode (input.rest.take 1)).length = 1 := by
    rw [text]
    simp [utf8EncodeChar_of_ascii ascii]
  rw [← within.advance_bytes, size]

/-- A block comment is found at the place where it stands. -/
theorem blockComment?_eq (within : input.Within source) {rest : List Char}
    (text : input.rest = '/' :: '*' :: rest) :
    (input.scanner source).blockComment? = (throughCommentEnd? rest).map fun body =>
      (.block ('/' :: '*' :: body), (input.advance (body.length + 2)).scanner source) := by
  have starts : (input.scanner source).startsWith "/*" :=
    (within.startsWith_iff _).mpr (text ▸ ⟨rest, rfl⟩)
  have later : (input.scanner source).ahead 2 = encode rest := by
    rw [within.ahead_eq, text]
    rfl
  have ends := Scanner.commentEnd?_encode rest
  rw [Scanner.blockComment?, if_pos starts, later]
  cases found : throughCommentEnd? rest with
  | none =>
      rw [found] at ends
      rw [Option.map_eq_none_iff.mp ends]
      rfl
  | some body =>
      rw [found] at ends
      obtain ⟨index, indexFound, (size : index + 2 = (encode body).length)⟩ :=
        Option.map_eq_some_iff.mp ends
      have taken : input.rest.take (body.length + 2) = '/' :: '*' :: body := by
        rw [text, List.take_succ_cons, List.take_succ_cons,
          ← List.prefix_iff_eq_take.mp (isPrefix_of_throughCommentEnd? found)]
      have bytes : index + 4 = (encode ('/' :: '*' :: body)).length := by
        have opening : (encode ['/', '*']).length = 2 := rfl
        rw [show '/' :: '*' :: body = ['/', '*'] ++ body from rfl, encode_append,
          List.length_append, opening, ← size]
        omega
      have cut := within.slice_bytes (body.length + 2)
      have moved := within.advance_bytes (body.length + 2)
      rw [taken] at cut moved
      have place : (input.scanner source).cursor = input.cursor := rfl
      rw [indexFound, Option.map_some, Option.map_some]
      simp only [place, bytes, cut, moved, String.toList_ofList]

/-- A line comment is found at the place where it stands. -/
theorem lineComment?_eq (within : input.Within source)
    (opens : ['/', '/'] <+: input.rest ∨ ['#'] <+: input.rest) :
    (input.scanner source).lineComment? =
      some (.line (input.rest.takeWhile fun char => !isLineBreak char),
        (input.advance (input.rest.takeWhile fun char => !isLineBreak char).length).scanner
          source) := by
  have starts : ((input.scanner source).startsWith "//" || (input.scanner source).startsWith "#") =
      true := by
    rw [Bool.or_eq_true]
    exact opens.imp (within.startsWith_iff _).mpr (within.startsWith_iff _).mpr
  rw [Scanner.lineComment?, if_pos starts]
  simp only [within.takeWhile_eq (Tells.not_byteTest Ascii.isLineBreak), String.toList_ofList]

private theorem blockComment?_eq_none (within : input.Within source)
    (other : ¬['/', '*'] <+: input.rest) : (input.scanner source).blockComment? = none := by
  rw [Scanner.blockComment?, if_neg fun starts => other ((within.startsWith_iff "/*").mp starts)]

private theorem lineComment?_eq_none (within : input.Within source)
    (noSlashes : ¬['/', '/'] <+: input.rest)
    (noSign : ¬['#'] <+: input.rest) : (input.scanner source).lineComment? = none := by
  rw [Scanner.lineComment?, if_neg]
  rw [Bool.or_eq_true]
  rintro (slashes | sign)
  · exact noSlashes ((within.startsWith_iff "//").mp slashes)
  · exact noSign ((within.startsWith_iff "#").mp sign)

/-- A comment is found at a place that begins neither with a line break nor with a space. -/
theorem comment?_eq (within : input.Within source)
    (plain : ∀ char ∈ input.rest.head?, isLineBreak char = false ∧ isSpace char = false) :
    (input.scanner source).blockComment?.or (input.scanner source).lineComment? =
      (Piece.next? input.rest).map fun piece =>
        (piece, (input.advance piece.chars.length).scanner source) := by
  unfold Piece.next?
  split
  · next text =>
    rw [within.blockComment?_eq_none (by simp [text]),
      within.lineComment?_eq_none (by simp [text]) (by simp [text])]
    rfl
  · next rest text =>
    rw [within.blockComment?_eq text,
      within.lineComment?_eq_none (by simp [text]) (by simp [text]), Option.or_none,
      Option.map_map]
    rfl
  · next rest text =>
    rw [within.blockComment?_eq_none (by simp [text]),
      within.lineComment?_eq (.inl (text ▸ ⟨rest, rfl⟩)), text]
    rfl
  · next char rest noBlock noSlashes text =>
    obtain ⟨noBreak, noSpace⟩ := plain char (by simp [text])
    -- No block comment and no line comment after slashes begins here; a sign may.
    have other : ¬['/', '*'] <+: input.rest := by
      rw [text]
      rintro ⟨more, same⟩
      cases same
      exact noBlock more rfl rfl
    have alone : ¬['/', '/'] <+: input.rest := by
      rw [text]
      rintro ⟨more, same⟩
      cases same
      exact noSlashes more rfl rfl
    rw [noSpace, noBreak, if_neg Bool.false_ne_true, if_neg Bool.false_ne_true,
      within.blockComment?_eq_none other, Option.none_or]
    by_cases sign : char = '#'
    · subst sign
      rw [if_pos rfl, within.lineComment?_eq (.inr (text ▸ ⟨rest, rfl⟩)), text]
      rfl
    · have noSign : ¬['#'] <+: input.rest := by
        rw [text]
        rintro ⟨more, same⟩
        cases same
        exact sign rfl
      rw [if_neg sign, within.lineComment?_eq_none alone noSign]
      rfl

/-- **The piece of a gap** that a scanner finds is the piece that the text begins with. -/
theorem piece?_eq (within : input.Within source) :
    (input.scanner source).piece? = (Piece.next? input.rest).map fun piece =>
      (piece, (input.advance piece.chars.length).scanner source) := by
  cases text : input.rest with
  | nil =>
      rw [Scanner.piece?, within.peek_eq, text]
      rfl
  | cons char rest =>
      have breaks := within.peek_any (Tells.byteTest Ascii.isLineBreak)
      have spaces := within.peek_any (Tells.byteTest Ascii.isSpace)
      obtain ⟨byte, others, spelled⟩ :=
        List.exists_cons_of_ne_nil (String.utf8EncodeChar_ne_nil (c := char))
      have peeked : (input.scanner source).peek = some byte := by
        rw [within.peek_eq, text, encode_cons, spelled]
        rfl
      rw [peeked, Input.peek, text, List.head?_cons, Option.any_some, Option.any_some]
        at breaks spaces
      rw [Scanner.piece?, peeked]
      dsimp only
      rw [breaks, spaces]
      -- A blank or a line break is one byte.
      have single (ascii : char.toNat < 128) : Char.ofNat byte.toNat = char ∧
          (input.scanner source).advance 1 = (input.advance 1).scanner source := by
        rw [utf8EncodeChar_of_ascii ascii] at spelled
        cases spelled
        rw [UInt8.toNat_ofNat', Nat.mod_eq_of_lt (by omega), Char.ofNat_toNat]
        exact ⟨rfl, within.advance_one text ascii⟩
      split
      · next isBreak =>
        obtain ⟨same, moved⟩ := single (Ascii.isLineBreak char isBreak)
        have found : Piece.next? (char :: rest) = some (.lineBreak char) := by
          simp only [isLineBreak, Bool.or_eq_true, beq_iff_eq] at isBreak
          rcases isBreak with rfl | rfl <;> rfl
        rw [same, moved, found]
        rfl
      · next noBreak =>
        split
        · next isSpace =>
          obtain ⟨same, moved⟩ := single (Ascii.isSpace char isSpace)
          have found : Piece.next? (char :: rest) = some (.space char) := by
            simp only [Source.isSpace, Bool.or_eq_true, beq_iff_eq] at isSpace
            rcases isSpace with rfl | rfl <;> rfl
          rw [same, moved, found]
          rfl
        · next noSpace =>
          rw [within.comment?_eq, text]
          intro first head
          rw [text, List.head?_cons, Option.mem_some_iff] at head
          subst head
          exact ⟨Bool.eq_false_iff.mpr noBreak, Bool.eq_false_iff.mpr noSpace⟩

private theorem advance_gapChars (input : Input) (piece : Piece) (pieces : List Piece) :
    input.advance (gapChars (piece :: pieces)).length =
      (input.advance piece.chars.length).advance (gapChars pieces).length := by
  rw [Input.advance_advance]
  simp [gapChars]

/-- Passing a gap by bytes is passing its pieces. -/
theorem skipLines_eq (within : input.Within source) :
    (input.scanner source).skipLines =
      (gapComments (gap input.rest),
        (input.advance (gapChars (gap input.rest)).length).scanner source) := by
  generalize text : input.rest = chars
  fun_induction gap chars generalizing input with
  | case1 chars none =>
      rw [Scanner.skipLines.eq_def, within.piece?_eq, text, none]
      rfl
  | case2 chars piece found ih =>
      have later := ih (within.advance piece.chars.length) (by rw [← text]; rfl)
      rw [Scanner.skipLines.eq_def, within.piece?_eq, text, found]
      simp only [Option.map_some, later, ← advance_gapChars, Prod.mk.injEq, and_true]
      cases comment : piece.comment? <;> simp [gapComments, comment]

/-- **A gap by bytes.** What a scanner passes to the end of the line, and then to the end of the
gap, are the comments of the first line and of the later lines of the gap. -/
theorem skip_eq (within : input.Within source) :
    (input.scanner source).skipLine.1 = gapComments (firstLine (gap input.rest)) ∧
      (input.scanner source).skipLine.2.skipLines =
        (gapComments (laterLines (gap input.rest)),
          (input.advance (gapChars (gap input.rest)).length).scanner source) := by
  generalize text : input.rest = chars
  fun_induction gap chars generalizing input with
  | case1 chars none =>
      have ended : (input.scanner source).skipLine = ([], input.scanner source) := by
        rw [Scanner.skipLine.eq_def, within.piece?_eq, text, none]
        rfl
      rw [ended, within.skipLines_eq, text, gap_of_none none]
      exact ⟨rfl, rfl⟩
  | case2 chars piece found ih =>
      have next := within.advance piece.chars.length
      have later : (input.advance piece.chars.length).rest = chars.drop piece.chars.length := by
        rw [← text]
        rfl
      have turn := Scanner.skipLine.eq_def (input.scanner source)
      rw [within.piece?_eq, text, found] at turn
      simp only [Option.map_some] at turn
      rw [advance_gapChars]
      cases breaks : piece.isBreak with
      | true =>
          rw [breaks, if_pos rfl] at turn
          have noComment : piece.comment? = none := by
            cases piece <;> first | rfl | cases breaks
          rw [turn, next.skipLines_eq, later]
          simp [firstLine, laterLines, gapComments, breaks, noComment]
      | false =>
          rw [breaks, if_neg Bool.false_ne_true] at turn
          obtain ⟨line, rest⟩ := ih next later
          rw [turn, line, rest]
          cases comment : piece.comment? <;>
            simp [firstLine, laterLines, gapComments, breaks, comment]

/-- **A quoted text by bytes** is a quoted text, however many bytes its characters have. -/
theorem quoted?_eq (within : input.Within source) (escapes : Bool) {quote : Char} {rest : List Char}
    (text : input.rest = quote :: rest) (opens : Parser.isQuote quote) :
    (input.scanner source).quoted? escapes = (Text.throughQuote? quote escapes rest).map fun raw =>
      (String.ofList raw, (input.advance (raw.length + 2)).scanner source) := by
  have ascii : quote.toNat < 128 := Ascii.isQuote quote opens
  have noEscape : '\\' ≠ quote := by
    rintro rfl
    cases opens
  have peeked : (input.scanner source).peek = some (UInt8.ofNat quote.toNat) := by
    rw [within.peek_eq, text, encode_cons, utf8EncodeChar_of_ascii ascii]
    rfl
  have later : (input.scanner source).ahead 1 = encode rest := by
    rw [within.ahead_eq, text, encode_cons, utf8EncodeChar_of_ascii ascii]
    rfl
  rw [Scanner.quoted?, peeked]
  dsimp only
  rw [byteTest_of_ascii _ ascii, if_pos opens, later,
    Scanner.closing?_encode ascii noEscape escapes rest, Option.map_map]
  refine Option.map_congr fun raw found => ?_
  obtain ⟨more, split⟩ := Text.append_quote_of_throughQuote? found
  have inner : (input.advance 1).rest = raw ++ quote :: more := by
    rw [Input.advance, text, ← split, List.append_assoc]
    rfl
  -- What lies between the quotes is cut out of the bytes at character boundaries.
  have cut := (within.advance 1).slice_bytes raw.length
  rw [inner, List.take_left] at cut
  have place : (input.advance 1).cursor.offset = input.cursor.offset + 1 := by
    rw [Input.advance, Cursor.offset_pass, text]
    simp [utf8EncodeChar_of_ascii ascii]
  have taken : input.rest.take (raw.length + 2) = quote :: (raw ++ [quote]) := by
    rw [text, ← split, List.take_succ_cons,
      show raw.length + 1 = (raw ++ [quote]).length by simp, List.take_left]
  have moved := within.advance_bytes (raw.length + 2)
  rw [taken, encode_cons, encode_append, encode_cons, utf8EncodeChar_of_ascii ascii, encode_nil]
    at moved
  rw [place] at cut
  have size : (encode raw).length + 2 =
      ([UInt8.ofNat quote.toNat] ++ (encode raw ++ ([UInt8.ofNat quote.toNat] ++ []))).length := by
    simp only [List.length_append, List.length_singleton, List.length_nil]
    omega
  simp only [Function.comp_apply, Prod.mk.injEq]
  exact ⟨cut, by rw [size, moved]⟩

end Input.Within

end ThriftIdl.Source
