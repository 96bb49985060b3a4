import ThriftIdl.Parser.Rule

/-!
# Tokens

Keywords, punctuation, names and dotted paths. Each token is read together with the gap after it.
-/

namespace ThriftIdl.Parser

/-- Whether an identifier may begin with a character: an ASCII letter or an underscore. -/
def isIdentStart (char : Char) : Bool :=
  char.isAlpha || char == '_'

/-- Whether an identifier may go on with a character: an ASCII letter, a figure or an underscore. -/
def isIdentChar (char : Char) : Bool :=
  char.isAlphanum || char == '_'

/-- Whether a name may go on with a character. A dot separates the module of a name from what it
names there. -/
def isNameChar (char : Char) : Bool :=
  isIdentChar char || char == '.'

/-- Whether a text begins with a word that no further identifier character makes longer. -/
def startsWithWord (word text : List Char) : Bool :=
  word.isPrefixOf text && !(text.drop word.length).head?.any isIdentChar

/-- A keyword. -/
def keyword (word : String) : Rule Unit := do
  if startsWithWord word.toList (← get).input.rest then
    advance word.toList.length
    skip
  else
    expected (.keyword word)

/-- A punctuation mark. -/
def mark (char : Char) : Rule Unit := do
  if (← peek) = some char then
    advance 1
    skip
  else
    expected (.mark char)

/-- The mark that closes a block. Comments before it that no item has taken belong to nothing. -/
def close (char : Char) : Rule Unit := do
  discardHead
  mark char

/-- Whether a character may separate items. -/
def isSeparator (char : Char) : Bool :=
  char == ',' || char == ';'

/-- A separator after an item, if there is one. -/
def separator : Rule Unit := do
  if (← peek).any isSeparator then
    advance 1
    skip

/-- A name, dots included. -/
def name : Rule String := do
  if (← peek).any isIdentStart then
    let chars ← takeWhile isNameChar
    skip
    return String.ofList chars
  else
    expected .identifier

/-- The segments of a dotted path at the start of a text. A dot that no identifier follows ends the
path before it. -/
def pathSegments (text : List Char) : List (List Char) :=
  match _after : text.dropWhile isIdentChar with
  | '.' :: start :: rest =>
    if isIdentStart start then text.takeWhile isIdentChar :: pathSegments (start :: rest)
    else [text.takeWhile isIdentChar]
  | _ => [text.takeWhile isIdentChar]
termination_by text.length
decreasing_by
  have within := (List.dropWhile_suffix (l := text) isIdentChar).length_le
  rw [_after] at within
  simp only [List.length_cons] at within ⊢
  omega

/-- A dotted path by its segments. -/
def path : Rule (List String) := do
  if (← peek).any isIdentStart then
    let segments := pathSegments (← get).input.rest
    advance (['.'].intercalate segments).length
    skip
    return segments.map String.ofList
  else
    expected .identifier

/-- A path in one piece, its segments with dots between them. -/
def dotted (segments : List String) : String :=
  ".".intercalate segments

end ThriftIdl.Parser
