import ThriftIdl.Document
import ThriftIdl.Error.SyntaxError
import ThriftIdl.Parser.Declaration

/-!
# Reading a source text

A source text is read declaration by declaration until it ends or a declaration cannot be read. A
reading records each declaration with the line on which it begins, and the syntax error if there is
one; the document and the report of a reading are both made from it.
-/

namespace ThriftIdl

/-- What comes of reading a source text. -/
structure Reading where
  /-- The declarations in the order of the text, each with the line on which it begins. -/
  declared : List (Nat × Declaration)
  /-- Why the text could not be read to its end. -/
  failure : Option SyntaxError

namespace Parser

/-- The error for a declaration that cannot be read: what is reported of the misses since it began,
with the place where it begins. -/
def State.syntaxError (state : State) (width : Nat) (last : Miss) : SyntaxError where
  message := (Miss.reported state.misses last).message
  context := state.input.excerpt width
  line := state.input.cursor.line

/-- Read declarations from a state on. Misses of earlier declarations are forgotten. A declaration
begins with a keyword, so each one makes the text shorter. -/
def declarations (options : Options) (state : State) : Reading :=
  if state.input.atEnd then ⟨[], none⟩
  else
    match declaration options.duplicates { state with misses := [] } with
    | .error miss failed => ⟨[], some (failed.syntaxError options.contextWidth miss)⟩
    | .ok declared next =>
      let entry := (state.input.cursor.line, declared)
      if next.input.rest.length < state.input.rest.length then
        let later := declarations options next
        ⟨entry :: later.declared, later.failure⟩
      else ⟨[entry], none⟩
termination_by state.input.rest.length

/-- A source text without the byte order mark that may stand before it. -/
def skipByteOrderMark (state : State) : State :=
  if state.input.peek = some '\ufeff' then { state with input := state.input.advance 1 } else state

end Parser

namespace Reading

/-- Read a source text. -/
def ofSource (options : Options) (source : String) : Reading :=
  Parser.declarations options
    (Parser.skipByteOrderMark (Parser.State.ofString source)).skipLeading

/-- The document of a reading that came to the end of its text, or else the error. -/
def document (reading : Reading) : Except SyntaxError Document :=
  match reading.failure with
  | none => .ok (.ofList (reading.declared.map Prod.snd))
  | some error => .error error

end Reading

/-- The document of a source text, or why it cannot be read. -/
def Document.parse (source : String) (options : Options := {}) : Except SyntaxError Document :=
  (Reading.ofSource options source).document

end ThriftIdl
