import ThriftIdl.Proofs.Source.Gap
import ThriftIdl.Source.Input
import ThriftIdl.Source.Scanner

/-!
# The bytes of a text

A source text is read character by character, but its places are counted in bytes, and a scanner
addresses it by bytes. An input that lies *within* a source text stands behind a number of whole
characters, so its place is a boundary between characters. At such a place the scanner sees the
bytes of the characters that are left (`Within.drop_bytes`), cuts the texts that lie between such
places (`Within.slice?_advance`) and moves as the input moves (`Within.advance_bytes`).
-/

namespace ThriftIdl.Source

/-! ## Encoding -/

/-- The bytes of a text. -/
def encode (chars : List Char) : List UInt8 :=
  chars.flatMap String.utf8EncodeChar

@[simp] theorem encode_nil : encode [] = [] := rfl

@[simp] theorem encode_cons (char : Char) (rest : List Char) :
    encode (char :: rest) = String.utf8EncodeChar char ++ encode rest := rfl

/-- The bytes of two texts in a row are those of the one and then those of the other. -/
@[simp] theorem encode_append (front back : List Char) :
    encode (front ++ back) = encode front ++ encode back :=
  List.flatMap_append

/-- Only the empty text has no bytes. -/
theorem encode_eq_nil {chars : List Char} : encode chars = [] ↔ chars = [] := by
  cases chars with
  | nil => simp
  | cons char rest => simp [String.utf8EncodeChar_ne_nil]

private theorem toByteArray_encode (chars : List Char) :
    (encode chars).toByteArray = (String.ofList chars).toByteArray := by
  rw [String.toByteArray_ofList]
  rfl

/-- The bytes of a source text are the bytes of its characters. -/
theorem bytes_eq (source : String) : source.toUTF8.data.toList = encode source.toList := by
  have spelled : source.toUTF8 = (encode source.toList).toByteArray := by
    rw [toByteArray_encode, String.ofList_toList]
    rfl
  rw [spelled]
  exact List.toList_data_toByteArray

/-- The bytes of a text are counted by its size in UTF-8. -/
theorem length_encode (chars : List Char) :
    (encode chars).length = (String.ofList chars).utf8ByteSize := by
  rw [← String.size_toByteArray, ← toByteArray_encode]
  simp

/-- A character of the first half of the byte range is one byte. -/
theorem utf8EncodeChar_of_ascii {char : Char} (ascii : char.toNat < 128) :
    String.utf8EncodeChar char = [UInt8.ofNat char.toNat] := by
  have small : char.val.toNat ≤ 127 := Nat.le_of_lt_succ ascii
  unfold String.utf8EncodeChar
  rw [if_pos small]
  rfl

/-- The bytes of any other character lie in the second half of the byte range. -/
theorem le_toNat_of_mem_utf8EncodeChar {char : Char} (wide : 128 ≤ char.toNat) {byte : UInt8}
    (member : byte ∈ String.utf8EncodeChar char) : 128 ≤ byte.toNat := by
  have large : ¬char.val.toNat ≤ 127 := Nat.not_le_of_lt wide
  unfold String.utf8EncodeChar at member
  dsimp only at member
  rw [if_neg large] at member
  split at member
  · simp only [List.mem_cons, List.not_mem_nil, or_false] at member
    rcases member with rfl | rfl <;> simp only [UInt8.toNat_ofNat'] <;> omega
  · split at member
    · simp only [List.mem_cons, List.not_mem_nil, or_false] at member
      rcases member with rfl | rfl | rfl <;> simp only [UInt8.toNat_ofNat'] <;> omega
    · simp only [List.mem_cons, List.not_mem_nil, or_false] at member
      rcases member with rfl | rfl | rfl | rfl <;> simp only [UInt8.toNat_ofNat'] <;> omega

/-- A one-byte character is told by its byte. -/
theorem ofNat_toNat_eq_iff (char other : Char) (ascii : char.toNat < 128)
    (otherAscii : other.toNat < 128) :
    UInt8.ofNat char.toNat = UInt8.ofNat other.toNat ↔ char = other := by
  rw [← UInt8.toNat_inj, UInt8.toNat_ofNat', UInt8.toNat_ofNat', Nat.mod_eq_of_lt (by omega),
    Nat.mod_eq_of_lt (by omega), Char.toNat_inj]

/-- A byte of a longer character is the byte of no one-byte character. -/
theorem ne_of_wide {byte : UInt8} (wide : 128 ≤ byte.toNat) (char : Char)
    (ascii : char.toNat < 128) : byte ≠ UInt8.ofNat char.toNat := by
  rintro rfl
  rw [UInt8.toNat_ofNat', Nat.mod_eq_of_lt (by omega)] at wide
  omega

/-! ## Tallies -/

namespace Cursor

/-- Bytes of the second half of the byte range are no line breaks. -/
theorem foldl_stepByte_of_wide {bytes : List UInt8} (wide : ∀ byte ∈ bytes, 128 ≤ byte.toNat)
    (cursor : Cursor) :
    bytes.foldl stepByte cursor = { cursor with offset := cursor.offset + bytes.length } := by
  induction bytes generalizing cursor with
  | nil => rfl
  | cons byte rest ih =>
      have here : 128 ≤ byte.toNat := wide byte (by simp)
      have noFeed : byte ≠ 0x0a := ne_of_wide here '\n' (by decide)
      have noReturn : byte ≠ 0x0d := ne_of_wide here '\r' (by decide)
      rw [List.foldl_cons, ih fun later member => wide later (by simp [member])]
      simp [stepByte, noFeed, noReturn, Nat.add_comm, Nat.add_left_comm]

/-- Passing the bytes of a character is passing the character. -/
theorem foldl_stepByte_char (char : Char) (cursor : Cursor) :
    (String.utf8EncodeChar char).foldl stepByte cursor = cursor.step char := by
  by_cases ascii : char.toNat < 128
  · have size : char.utf8Size = 1 := by
      rw [← String.length_utf8EncodeChar, utf8EncodeChar_of_ascii ascii]
      rfl
    have feed : UInt8.ofNat char.toNat = 0x0a ↔ char = '\n' :=
      ofNat_toNat_eq_iff char '\n' ascii (by decide)
    have back : UInt8.ofNat char.toNat = 0x0d ↔ char = '\r' :=
      ofNat_toNat_eq_iff char '\r' ascii (by decide)
    rw [utf8EncodeChar_of_ascii ascii]
    simp only [List.foldl_cons, List.foldl_nil, stepByte, step, size, feed, back]
  · have wide : 128 ≤ char.toNat := Nat.le_of_not_lt ascii
    have noFeed : char ≠ '\n' := by
      rintro rfl
      exact absurd wide (by decide)
    have noReturn : char ≠ '\r' := by
      rintro rfl
      exact absurd wide (by decide)
    rw [foldl_stepByte_of_wide fun byte member => le_toNat_of_mem_utf8EncodeChar wide member]
    simp [step, noFeed, noReturn]

/-- Passing the bytes of a text is passing the text. -/
theorem foldl_stepByte (chars : List Char) (cursor : Cursor) :
    (encode chars).foldl stepByte cursor = cursor.pass chars := by
  induction chars generalizing cursor with
  | nil => rfl
  | cons char rest ih =>
      rw [encode_cons, List.foldl_append, foldl_stepByte_char, ih, pass_cons]

/-- Passing characters moves the offset on by the number of their bytes. -/
theorem offset_pass (cursor : Cursor) (chars : List Char) :
    (cursor.pass chars).offset = cursor.offset + (encode chars).length := by
  rw [pass_eq, length_encode]

/-- Passing characters never leads back to an earlier line. -/
theorem line_le_pass (cursor : Cursor) (chars : List Char) :
    cursor.line ≤ (cursor.pass chars).line := by
  rw [pass_eq]
  simp only [line]
  omega

/-- Passing bytes adds their number and the numbers of the two line breaks among them. -/
theorem foldl_stepByte_eq (bytes : List UInt8) (cursor : Cursor) :
    bytes.foldl stepByte cursor =
      { offset := cursor.offset + bytes.length
        newlines := cursor.newlines + bytes.count 0x0a
        returns := cursor.returns + bytes.count 0x0d } := by
  induction bytes generalizing cursor with
  | nil => rfl
  | cons byte rest ih =>
      rw [List.foldl_cons, ih]
      simp only [stepByte, List.length_cons, List.count_cons, beq_iff_eq, Cursor.mk.injEq]
      refine ⟨by omega, ?_, ?_⟩
      · split <;> omega
      · split <;> omega

end Cursor

/-! ## Places within a source text -/

/-- A place is sound in a source text: it lies between two characters of it, and its tallies count
the line breaks among the bytes before it. -/
structure Cursor.Sound (source : String) (cursor : Cursor) : Prop where
  le_size : cursor.offset ≤ source.utf8ByteSize
  isBoundary : (String.Pos.Raw.mk cursor.offset).IsValid source
  newlines : cursor.newlines = (source.toUTF8.data.toList.take cursor.offset).count 0x0a
  returns : cursor.returns = (source.toUTF8.data.toList.take cursor.offset).count 0x0d

namespace Input

/-- An input lies within a source text if what it holds is what is left of the text behind some
beginning, and its place is the place behind that beginning. -/
def Within (input : Input) (source : String) : Prop :=
  ∃ before, source.toList = before ++ input.rest ∧ input.cursor = Cursor.start.pass before

/-- The scanner of a source text that stands where an input stands. -/
def scanner (input : Input) (source : String) : Scanner where
  source := source
  cursor := input.cursor

/-- The beginning of a text stands inside it. -/
theorem within_ofString (source : String) : (ofString source).Within source :=
  ⟨[], rfl, rfl⟩

namespace Within

variable {input : Input} {source : String}

/-- Going on stays inside the text. -/
theorem advance (within : input.Within source) (count : Nat) :
    (input.advance count).Within source := by
  obtain ⟨before, text, cursor⟩ := within
  refine ⟨before ++ input.rest.take count, ?_, ?_⟩
  · rw [text, List.append_assoc]
    simp [Input.advance]
  · simp only [Input.advance, cursor, Cursor.pass_append]

private theorem bytes_split (within : input.Within source) :
    ∃ before, source.toList = before ++ input.rest ∧
      source.toUTF8.data.toList = encode before ++ encode input.rest ∧
      input.cursor.offset = (encode before).length := by
  obtain ⟨before, text, cursor⟩ := within
  refine ⟨before, text, ?_, ?_⟩
  · rw [bytes_eq, text, encode_append]
  · rw [cursor, Cursor.offset_pass]
    simp [Cursor.start]

/-- From its place on, the scanner sees the bytes of the characters that are left. -/
theorem drop_bytes (within : input.Within source) :
    (input.scanner source).bytes.data.toList.drop input.cursor.offset = encode input.rest := by
  obtain ⟨before, -, bytes, offset⟩ := within.bytes_split
  have same : (input.scanner source).bytes.data.toList = encode before ++ encode input.rest := bytes
  rw [same, offset, List.drop_left]

private theorem size_bytes (within : input.Within source) :
    (input.scanner source).bytes.size = input.cursor.offset + (encode input.rest).length := by
  obtain ⟨before, -, bytes, offset⟩ := within.bytes_split
  have size : (input.scanner source).bytes.size = source.toUTF8.data.toList.length := by
    rw [Array.length_toList]
    rfl
  rw [size, bytes, List.length_append, offset]

private theorem offset_le (within : input.Within source) :
    input.cursor.offset ≤ (input.scanner source).bytes.size := by
  rw [within.size_bytes]
  omega

/-- The place of an input is a boundary between characters. -/
theorem isValid (within : input.Within source) :
    (String.Pos.Raw.mk input.cursor.offset).IsValid source := by
  obtain ⟨before, text, -, offset⟩ := within.bytes_split
  rw [String.Pos.Raw.isValid_iff_exists_take_toList]
  refine ⟨before.length, ?_⟩
  rw [text, List.take_left, ← length_encode]
  exact offset

/-- **The place of an input** is sound in the source text. -/
theorem sound (within : input.Within source) : input.cursor.Sound source := by
  obtain ⟨before, text, bytes, offset⟩ := within.bytes_split
  have front : source.toUTF8.data.toList.take input.cursor.offset = encode before := by
    rw [bytes, offset, List.take_left]
  have counted : input.cursor = (encode before).foldl Cursor.stepByte .start := by
    obtain ⟨before', text', cursor⟩ := within
    have same : before' = before := List.append_cancel_right (text'.symm.trans text)
    rw [cursor, same, Cursor.foldl_stepByte]
  rw [Cursor.foldl_stepByte_eq] at counted
  refine ⟨within.isValid.le_utf8ByteSize, within.isValid, ?_, ?_⟩
  · rw [front]
    exact (congrArg Cursor.newlines counted).trans (Nat.zero_add _)
  · rw [front]
    exact (congrArg Cursor.returns counted).trans (Nat.zero_add _)

/-- The text between two places of an input is cut out whole. -/
theorem slice?_advance (within : input.Within source) (count : Nat) :
    (input.scanner source).slice? input.cursor.offset (input.advance count).cursor.offset =
      some (String.ofList (input.rest.take count)) := by
  obtain ⟨before, -, bytes, offset⟩ := within.bytes_split
  have last : (input.advance count).cursor.offset =
      (encode before).length + (encode (input.rest.take count)).length := by
    rw [Input.advance, Cursor.offset_pass, offset]
  have inside := (within.advance count).offset_le
  have cut : (input.scanner source).bytes.extract input.cursor.offset
      (input.advance count).cursor.offset =
        (String.ofList (input.rest.take count)).toByteArray := by
    rw [← toByteArray_encode]
    apply ByteArray.ext
    apply Array.toList_inj.mp
    have whole : (input.scanner source).bytes.data.toList =
        encode before ++ (encode (input.rest.take count) ++ encode (input.rest.drop count)) := by
      rw [← encode_append, List.take_append_drop]
      exact bytes
    rw [ByteArray.data_extract, Array.toList_extract, whole, List.toList_data_toByteArray, offset,
      last]
    simp [List.extract_eq_take_drop]
  unfold Scanner.slice?
  rw [if_pos ⟨by omega, inside⟩, cut]
  unfold String.fromUTF8?
  rw [dif_pos (String.isValidUTF8 _)]
  rfl

/-- The text that is left is cut out whole. -/
theorem slice?_rest (within : input.Within source) :
    (input.scanner source).slice? input.cursor.offset (input.scanner source).bytes.size =
      some (String.ofList input.rest) := by
  have cut := within.slice?_advance input.rest.length
  rw [List.take_length] at cut
  rw [within.size_bytes, ← cut, Input.advance, Cursor.offset_pass, List.take_length]

private theorem textFrom_offset (within : input.Within source) :
    (input.scanner source).textFrom input.cursor.offset = String.ofList input.rest := by
  simp only [Scanner.textFrom, Scanner.slice, within.slice?_rest, Option.getD_some]

private theorem toList_rest (within : input.Within source) :
    (input.scanner source).rest.toList = input.rest := by
  rw [Scanner.rest, show (input.scanner source).cursor.offset = input.cursor.offset from rfl,
    within.textFrom_offset, String.toList_ofList]

/-- Comparing bytes with those of a word is comparing characters with the word. -/
theorem startsWith_eq (within : input.Within source) (word : String) :
    (input.scanner source).startsWith word = input.startsWith word.toList := by
  rw [Scanner.startsWith, within.toList_rest, Input.startsWith]

/-- The scanner sees the bytes of the characters that are left. -/
theorem peekAt_eq (within : input.Within source) (ahead : Nat) :
    (input.scanner source).peekAt ahead = (encode input.rest)[ahead]? := by
  rw [← within.drop_bytes, List.getElem?_drop, Array.getElem?_toList]
  rfl

/-- Moving over the bytes of the next characters is moving over the characters. -/
theorem advance_bytes (within : input.Within source) (count : Nat) :
    (input.scanner source).advance (encode (input.rest.take count)).length =
      (input.advance count).scanner source := by
  have last : (input.advance count).cursor.offset =
      input.cursor.offset + (encode (input.rest.take count)).length := by
    rw [Input.advance, Cursor.offset_pass]
  have inside : (input.advance count).cursor.offset ≤ (input.scanner source).bytes.size :=
    (within.advance count).offset_le
  have passed : ((input.scanner source).bytes.extract input.cursor.offset
      (input.advance count).cursor.offset).data.toList = encode (input.rest.take count) := by
    have whole : encode input.rest =
        encode (input.rest.take count) ++ encode (input.rest.drop count) := by
      rw [← encode_append, List.take_append_drop]
    rw [ByteArray.data_extract, Array.toList_extract, List.extract_eq_take_drop, within.drop_bytes,
      whole, last, Nat.add_sub_cancel_left, List.take_left]
  have clamped : min (input.cursor.offset + (encode (input.rest.take count)).length)
      (input.scanner source).bytes.size = (input.advance count).cursor.offset := by
    rw [← last]
    exact Nat.min_eq_left inside
  have place : (input.scanner source).cursor = input.cursor := rfl
  unfold Scanner.advance
  simp only [place, clamped, ← Array.foldl_toList, passed, Cursor.foldl_stepByte]
  rfl

end Within

end Input

/-! ## Tests of bytes -/

/-- A test that only characters of the first half of the byte range pass. -/
def Ascii (test : Char → Bool) : Prop :=
  ∀ char, test char → char.toNat < 128

/-- The test of bytes that the one-byte characters of a test pass. -/
def byteTest (test : Char → Bool) (byte : UInt8) : Bool :=
  byte.toNat < 128 && test (Char.ofNat byte.toNat)

/-- A test of bytes tells characters apart as a test of characters does: all bytes of a character
pass, or already its first byte fails. -/
structure Tells (bytes : UInt8 → Bool) (chars : Char → Bool) : Prop where
  inside : ∀ char, chars char → ∀ byte ∈ String.utf8EncodeChar char, bytes byte
  outside : ∀ char, chars char = false → ∀ byte ∈ (String.utf8EncodeChar char).head?,
    bytes byte = false

/-- A character of one byte passes the test for bytes if it passes that for characters. -/
theorem byteTest_of_ascii (test : Char → Bool) {char : Char} (ascii : char.toNat < 128) :
    byteTest test (UInt8.ofNat char.toNat) = test char := by
  have same : (UInt8.ofNat char.toNat).toNat = char.toNat := by
    rw [UInt8.toNat_ofNat', Nat.mod_eq_of_lt (by omega)]
  rw [byteTest, same, Char.ofNat_toNat, decide_eq_true ascii, Bool.true_and]

private theorem byteTest_of_wide (test : Char → Bool) {byte : UInt8} (wide : 128 ≤ byte.toNat) :
    byteTest test byte = false := by
  rw [byteTest, decide_eq_false (by omega), Bool.false_and]

namespace Tells

variable {test : Char → Bool}

/-- A test that only characters of one byte pass may be made on the next byte alone. -/
theorem byteTest (ascii : Ascii test) : Tells (byteTest test) test where
  inside char passes byte member := by
    rw [utf8EncodeChar_of_ascii (ascii char passes), List.mem_singleton] at member
    rw [member, byteTest_of_ascii test (ascii char passes)]
    exact passes
  outside char fails byte first := by
    by_cases small : char.toNat < 128
    · rw [utf8EncodeChar_of_ascii small, List.head?_cons, Option.mem_some_iff] at first
      rw [← first, byteTest_of_ascii test small]
      exact fails
    · exact byteTest_of_wide test
        (le_toNat_of_mem_utf8EncodeChar (Nat.le_of_not_lt small) (List.mem_of_mem_head? first))

/-- The other characters are told apart as well. -/
theorem not_byteTest (ascii : Ascii test) :
    Tells (fun byte => !Source.byteTest test byte) (fun char => !test char) where
  inside char passes byte member := by
    by_cases small : char.toNat < 128
    · rw [utf8EncodeChar_of_ascii small, List.mem_singleton] at member
      rw [member, byteTest_of_ascii test small]
      exact passes
    · rw [byteTest_of_wide test
        (le_toNat_of_mem_utf8EncodeChar (Nat.le_of_not_lt small) member)]
      rfl
  outside char fails byte first := by
    have passes : test char := by simpa using fails
    rw [utf8EncodeChar_of_ascii (ascii char passes), List.head?_cons, Option.mem_some_iff] at first
    rw [← first, byteTest_of_ascii test (ascii char passes), passes]
    rfl

variable {bytes : UInt8 → Bool} {chars : Char → Bool}

/-- The first byte of a text tells what its first character is. -/
theorem head?_any (tells : Tells bytes chars) (text : List Char) :
    (encode text).head?.any bytes = text.head?.any chars := by
  cases text with
  | nil => rfl
  | cons char rest =>
      obtain ⟨byte, others, spelled⟩ :=
        List.exists_cons_of_ne_nil (String.utf8EncodeChar_ne_nil (c := char))
      rw [encode_cons, spelled, List.cons_append, List.head?_cons, List.head?_cons,
        Option.any_some, Option.any_some]
      cases passes : chars char with
      | true => exact tells.inside char passes byte (by simp [spelled])
      | false => exact tells.outside char passes byte (by simp [spelled])

/-- A run of bytes is the bytes of a run of characters. -/
theorem takeWhile_encode (tells : Tells bytes chars) (text : List Char) :
    (encode text).takeWhile bytes = encode (text.takeWhile chars) := by
  induction text with
  | nil => rfl
  | cons char rest ih =>
      cases passes : chars char with
      | true =>
          rw [encode_cons, List.takeWhile_append_of_pos (tells.inside char passes), ih,
            List.takeWhile_cons_of_pos passes, encode_cons]
      | false =>
          obtain ⟨byte, others, spelled⟩ :=
            List.exists_cons_of_ne_nil (String.utf8EncodeChar_ne_nil (c := char))
          have fails : bytes byte = false := tells.outside char passes byte (by simp [spelled])
          rw [encode_cons, spelled, List.cons_append, List.takeWhile_cons_of_neg (by simp [fails]),
            List.takeWhile_cons_of_neg (by simp [passes]), encode_nil]

end Tells

namespace Input.Within

variable {input : Input} {source : String} {bytes : UInt8 → Bool} {chars : Char → Bool}

/-- A test on the next byte has the answer of the test it stands for on the next character. -/
theorem peek_any (within : input.Within source) (tells : Tells bytes chars) :
    (input.scanner source).peek.any bytes = input.peek.any chars := by
  rw [Scanner.peek, within.peekAt_eq, ← List.head?_eq_getElem?, tells.head?_any]
  rfl

/-- A scanner moves over a run of bytes as an input moves over the run of characters, and cuts out
the text of the run. -/
theorem takeWhile_eq (within : input.Within source) (tells : Tells bytes chars) :
    (input.scanner source).takeWhile bytes =
      (String.ofList (input.rest.takeWhile chars),
        (input.advance (input.rest.takeWhile chars).length).scanner source) := by
  have taken : input.rest.take (input.rest.takeWhile chars).length =
      input.rest.takeWhile chars :=
    (List.prefix_iff_eq_take.mp (List.takeWhile_prefix _)).symm
  have run : (input.scanner source).runLength bytes =
      (encode (input.rest.take (input.rest.takeWhile chars).length)).length := by
    have place : (input.scanner source).cursor = input.cursor := rfl
    rw [Scanner.runLength, place, within.drop_bytes, tells.takeWhile_encode, taken]
  have cut := within.slice?_advance (input.rest.takeWhile chars).length
  rw [taken] at cut
  rw [Scanner.takeWhile, run, within.advance_bytes]
  have place : (input.scanner source).cursor = input.cursor := rfl
  have next (count : Nat) : ((input.advance count).scanner source).cursor =
      (input.advance count).cursor := rfl
  simp only [place, next, Scanner.slice, cut, Option.getD_some]

end Input.Within

end ThriftIdl.Source
