import ThriftIdl.Source.Cursor

/-!
# Byte-wise access to a source text

A scanner addresses a source text by byte offsets, whatever characters the bytes belong to. A range
of bytes that does not begin and end between characters has no text.
-/

namespace ThriftIdl.Source

namespace Cursor

/-- The place after one more byte. -/
def stepByte (cursor : Cursor) (byte : UInt8) : Cursor where
  offset := cursor.offset + 1
  newlines := if byte = 0x0a then cursor.newlines + 1 else cursor.newlines
  returns := if byte = 0x0d then cursor.returns + 1 else cursor.returns

end Cursor

/-- A source text with a place in it. -/
structure Scanner where
  /-- The whole source text. -/
  source : String
  /-- The place. -/
  cursor : Cursor := .start

namespace Scanner

/-- A scanner at the start of a source text. -/
def ofString (source : String) : Scanner where
  source := source

/-- The bytes of the source text. -/
def bytes (scanner : Scanner) : ByteArray :=
  scanner.source.toUTF8

/-- Whether no byte is left. -/
def atEnd (scanner : Scanner) : Bool :=
  scanner.bytes.size ≤ scanner.cursor.offset

/-- The byte that lies a number of bytes ahead. -/
def peekAt (scanner : Scanner) (ahead : Nat) : Option UInt8 :=
  scanner.bytes.data[scanner.cursor.offset + ahead]?

/-- The next byte. -/
def peek (scanner : Scanner) : Option UInt8 :=
  scanner.peekAt 0

/-- The text between two byte offsets, if they are in order, within the source and between
characters. -/
def slice? (scanner : Scanner) (first last : Nat) : Option String :=
  if first ≤ last ∧ last ≤ scanner.bytes.size then
    String.fromUTF8? (scanner.bytes.extract first last)
  else none

/-- The text between two byte offsets, empty where there is none. -/
def slice (scanner : Scanner) (first last : Nat) : String :=
  (scanner.slice? first last).getD ""

/-- The text from a byte offset on, empty where there is none. -/
def textFrom (scanner : Scanner) (offset : Nat) : String :=
  scanner.slice offset scanner.bytes.size

/-- The text that is left. -/
def rest (scanner : Scanner) : String :=
  scanner.textFrom scanner.cursor.offset

/-- Whether the text that is left begins with a given one. -/
def startsWith (scanner : Scanner) (text : String) : Bool :=
  text.toList.isPrefixOf scanner.rest.toList

/-- A number of characters from a byte offset on, or as many as there are. -/
def excerpt (scanner : Scanner) (offset width : Nat) : String :=
  String.ofList ((scanner.textFrom offset).toList.take width)

/-- Move over a number of bytes, but not past the end. -/
def advance (scanner : Scanner) (count : Nat) : Scanner :=
  let first := scanner.cursor.offset
  let last := min (first + count) scanner.bytes.size
  let passed := (scanner.bytes.extract first last).data.foldl Cursor.stepByte scanner.cursor
  { scanner with cursor := { passed with offset := last } }

/-- How many bytes from the place on satisfy a test. -/
def runLength (scanner : Scanner) (test : UInt8 → Bool) : Nat :=
  ((scanner.bytes.data.toList.drop scanner.cursor.offset).takeWhile test).length

/-- Move over the bytes that satisfy a test, and the text of those bytes. -/
def takeWhile (scanner : Scanner) (test : UInt8 → Bool) : String × Scanner :=
  let next := scanner.advance (scanner.runLength test)
  (scanner.slice scanner.cursor.offset next.cursor.offset, next)

/-- Go to a place, wherever it lies. -/
def reset (scanner : Scanner) (cursor : Cursor) : Scanner :=
  { scanner with cursor := cursor }

/-- No move goes past the end. -/
theorem offset_advance_le (scanner : Scanner) (count : Nat) :
    (scanner.advance count).cursor.offset ≤ scanner.bytes.size :=
  Nat.min_le_right _ _

end Scanner

end ThriftIdl.Source
