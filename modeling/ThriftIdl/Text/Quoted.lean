import ThriftIdl.Number.Digits
import ThriftIdl.Text.Invisible

/-!
# Quoted text for display

A text between double quotes in which every character can be seen: quotes and backslashes are
escaped, the common controls have a letter, and every other invisible character is written by its
code point.
-/

namespace ThriftIdl.Text

/-- An escape by code point: its hexadecimal numeral in braces. -/
def pointEscape (char : Char) : List Char :=
  ['\\', 'u', '\x7b'] ++ Number.hexDigits char.toNat ++ ['\x7d']

/-- One character inside display quotes. -/
def displayChar (char : Char) : List Char :=
  match char with
  | '"' => ['\\', '"']
  | '\\' => ['\\', '\\']
  | '\n' => ['\\', 'n']
  | '\r' => ['\\', 'r']
  | '\t' => ['\\', 't']
  | '\x00' => ['\\', '0']
  | _ => if isInvisible char then pointEscape char else [char]

/-- A text between display quotes. -/
def displayQuoted (text : String) : String :=
  String.ofList ('"' :: text.toList.flatMap displayChar ++ ['"'])

end ThriftIdl.Text
