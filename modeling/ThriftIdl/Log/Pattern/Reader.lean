import ThriftIdl.Log.Pattern.Tree
import ThriftIdl.Number.Digits
import ThriftIdl.Text.Alphanumeric
import ThriftIdl.Text.Blank

/-!
# Reading patterns

The signs of a pattern are parentheses around groups, bars between alternatives, brackets around
sets, the marks of repetition `*`, `+` and `?`, the edges `^` and `$`, the dot for any character
and the backslash for escapes. A repetition by counts ends with a closing brace, which also ends
the pattern in a filter, so an opening brace is always an error.
-/

namespace ThriftIdl.Log

/-- The mode of a letter. -/
def Mode.ofLetter? : Char → Option Mode
  | 'i' => some anyCase
  | 'm' => some lineEdges
  | 's' => some lineFeeds
  | 'U' => some little
  | 'u' => some characters
  | 'R' => some carriageReturns
  | 'x' => some spaced
  | _ => none

/-- The change of modes that letters stand for: those to be put on and, after a hyphen, at least one
to be put off, and none of them twice. -/
def ModeChange.ofLetters? (letters : List Char) : Option ModeChange := do
  let on ← (letters.takeWhile (· != '-')).mapM Mode.ofLetter?
  let off ← match letters.dropWhile (· != '-') with
    | [] => some []
    | [_] => none
    | _ :: letters => letters.mapM Mode.ofLetter?
  guard (on ++ off).Nodup
  return ⟨on, off⟩

namespace Pattern

/-- The text after white space and comments, which go from a number sign to the end of the line. -/
def afterSpace (inComment : Bool) : List Char → List Char
  | [] => []
  | char :: rest =>
    if inComment then afterSpace (char != '\n') rest
    else if Text.isBlank char then afterSpace false rest
    else if char = '#' then afterSpace true rest
    else char :: rest

/-- The text from the next character that stands for something. -/
def skip (modes : Modes) (text : List Char) : List Char :=
  if modes.contains .spaced then afterSpace false text else text

/-- The character after a hyphen that tells whether it makes a range: the next one or, in a spaced
pattern, the next one after white space and a number sign. -/
def afterHyphen (modes : Modes) (text : List Char) : Option Char :=
  if modes.contains .spaced then
    match text.dropWhile Text.isBlank with
    | '#' :: rest => (rest.dropWhile Text.isBlank).head?
    | rest => rest.head?
  else text.head?

/-- A number of hexadecimal digits and the text after them. -/
def readDigits? (modes : Modes) : Nat → List Char → Option (List Char × List Char)
  | 0, text => some ([], text)
  | count + 1, text =>
    match skip modes text with
    | [] => none
    | char :: rest =>
      if (Number.digit? 16 char).isSome then
        (readDigits? modes count rest).map fun (digits, rest) => (char :: digits, rest)
      else none

/-- The character of a number of hexadecimal digits. -/
def readPoint? (modes : Modes) (count : Nat) (text : List Char) :
    Option (Pattern × List Char) := do
  let (digits, rest) ← readDigits? modes count text
  let point ← Number.ofDigits? 16 digits
  guard point.isValidChar
  return (.single (Char.ofNat point) (count == 2 && 0x80 ≤ point), rest)

/-- What an escape stands for and the text after it, given the text after its backslash. ASCII
punctuation stands for itself, apart from angle brackets, which are edges of words. -/
def readEscape? (modes : Modes) : List Char → Option (Pattern × List Char)
  | [] => none
  | char :: rest =>
    match char with
    | 'x' => readPoint? modes 2 rest
    | 'u' => readPoint? modes 4 rest
    | 'U' => readPoint? modes 8 rest
    | 'a' => some (.single '\x07' false, rest)
    | 'f' => some (.single '\x0c' false, rest)
    | 't' => some (.single '\t' false, rest)
    | 'n' => some (.single '\n' false, rest)
    | 'r' => some (.single '\r' false, rest)
    | 'v' => some (.single '\x0b' false, rest)
    | 'd' | 's' | 'w' => some (.letter false, rest)
    | 'D' | 'S' | 'W' => some (.letter true, rest)
    | 'A' | 'z' => some (.edge, rest)
    | 'b' | 'B' | '<' | '>' => some (.wordEdge, rest)
    | _ =>
      if char.toNat < 0x80 && !char.isAlphanum then some (.single char false, rest) else none

/-- A character or a class inside brackets and the text after it. -/
def readMember? (modes : Modes) : List Char → Option (CharSet × List Char)
  | [] => none
  | '\\' :: rest =>
    match readEscape? modes rest with
    | some (.single value _, rest) => some (.single value, rest)
    | some (.letter negated, rest) => some (.letter negated, rest)
    | _ => none
  | char :: rest => some (.single char, rest)

/-- A member of a set or a range of them and the text after it. A hyphen before the closing bracket
or before another hyphen makes no range. -/
def readMembers? (modes : Modes) (text : List Char) : Option (CharSet × List Char) := do
  let (first, rest) ← readMember? modes text
  match skip modes rest with
  | '-' :: later =>
    if [some ']', some '-'].contains (afterHyphen modes later) then return (first, '-' :: later)
    else
      let (last, rest) ← readMember? modes (skip modes later)
      match first, last with
      | .single first, .single last =>
        guard (first ≤ last)
        return (.range first last, rest)
      | _, _ => none
  | rest => return (first, rest)

/-- The names of the ASCII classes. -/
def asciiClasses : List String :=
  ["alnum", "alpha", "ascii", "blank", "cntrl", "digit", "graph", "lower", "print", "punct",
   "space", "upper", "word", "xdigit"]

/-- An ASCII class and the text after it, given the text after its opening bracket: its name between
colons, after a caret for the complement. -/
def readAscii? : List Char → Option (CharSet × List Char)
  | ':' :: rest =>
    let negated := rest.head? == some '^'
    let text := if negated then rest.drop 1 else rest
    let name := text.takeWhile (· != ':')
    match text.drop name.length with
    | ':' :: ']' :: rest =>
      if asciiClasses.contains (String.ofList name) then some (.ascii negated, rest) else none
    | _ => none
  | _ => none

/-- Whether a set is a complement, and the text after the caret that says so. -/
def readCaret (modes : Modes) (text : List Char) : Bool × List Char :=
  match skip modes text with
  | '^' :: rest => (true, rest)
  | rest => (false, rest)

/-- A set and the text after its closing bracket, given the set before the last sign that combines
sets and the members after it, latest first. As long as it is `opening`, hyphens and one closing
bracket before all others stand for themselves. -/
def readSet? : Nat → Modes → Bool → Option CharSet → List CharSet → List Char →
    Option (CharSet × List Char)
  | 0, _, _, _, _, _ => none
  | fuel + 1, modes, opening, before, members, text =>
    let all := CharSet.ofList members.reverse
    let set := before.elim all (CharSet.combined · all)
    match skip modes text with
    | [] => none
    | ']' :: rest =>
      if opening && members.isEmpty then readSet? fuel modes false before [.single ']'] rest
      else some (set, rest)
    | '[' :: rest =>
      match readAscii? rest with
      | some (ascii, rest) => readSet? fuel modes false before (ascii :: members) rest
      | none => do
        let (negated, rest) := readCaret modes rest
        let (inner, rest) ← readSet? fuel modes true none [] rest
        readSet? fuel modes false before (.nested negated inner :: members) rest
    | char :: rest =>
      if opening && char == '-' then readSet? fuel modes true before (.single '-' :: members) rest
      else if ['&', '-', '~'].contains char && rest.head? == some char then
        readSet? fuel modes false (some set) [] (rest.drop 1)
      else do
        let (member, rest) ← readMembers? modes (char :: rest)
        readSet? fuel modes false before (member :: members) rest

/-- What an opening parenthesis begins. -/
inductive Opening
  | group (name : Option String) (change : ModeChange)
  /-- Nothing but a change of modes, which ends with a closing parenthesis. -/
  | switch (change : ModeChange)

/-- A name up to a closing angle bracket, and the text after that. A name begins with a letter or an
underscore; numbers, dots and brackets may follow. -/
def readName? (text : List Char) : Option (Opening × List Char) := do
  let name := text.takeWhile (· != '>')
  let first ← name.head?
  guard (first == '_' || Text.isAlphabetic first)
  guard (name.all fun char => Text.isAlphanumeric char || ['_', '.', '[', ']'].contains char)
  match text.drop name.length with
  | _ :: rest => return (.group (some (String.ofList name)) {}, rest)
  | [] => none

/-- What an opening parenthesis begins and the text after that. -/
def readOpening? : List Char → Option (Opening × List Char)
  | '?' :: 'P' :: '<' :: rest => readName? rest
  | '?' :: '<' :: rest => readName? rest
  | '?' :: rest => do
    let letters := rest.takeWhile fun char => char != ':' && char != ')'
    let change ← ModeChange.ofLetters? letters
    match rest.drop letters.length with
    | ':' :: rest => return (.group none change, rest)
    | ')' :: rest =>
      guard !letters.isEmpty
      return (.switch change, rest)
    | _ => none
  | text => some (.group none {}, text)

/-- A pattern up to a closing parenthesis or the end of the text, and the text from there on, given
the alternatives and the parts of the current one that stand before, latest first. -/
def readFrom? :
    Nat → Modes → List Pattern → List Pattern → List Char → Option (Pattern × List Char)
  | 0, _, _, _, _ => none
  | fuel + 1, modes, alternatives, parts, text =>
    let alternative := ofParts parts.reverse
    let whole := ofAlternatives (alternative :: alternatives).reverse
    match skip modes text with
    | [] => some (whole, [])
    | char :: rest =>
      match char with
      | ')' => some (whole, ')' :: rest)
      | '|' => readFrom? fuel modes (alternative :: alternatives) [] rest
      | '(' => do
        match ← readOpening? (skip modes rest) with
        | (.switch change, rest) =>
          readFrom? fuel (change.applyTo modes) alternatives (.switch change :: parts) rest
        | (.group name change, rest) =>
          let (inner, rest) ← readFrom? fuel (change.applyTo modes) [] [] rest
          match rest with
          | ')' :: rest =>
            readFrom? fuel modes alternatives (.group name change inner :: parts) rest
          | _ => none
      | '[' => do
        let (negated, rest) := readCaret modes rest
        let (members, rest) ← readSet? fuel modes true none [] rest
        readFrom? fuel modes alternatives (.set negated members :: parts) rest
      | '*' | '+' | '?' =>
        match parts with
        | [] => none
        | .switch _ :: _ => none
        | part :: parts =>
          let rest := if rest.head? == some '?' then rest.drop 1 else rest
          readFrom? fuel modes alternatives (.repeated part :: parts) rest
      | '\x7b' => none
      | '\\' => do
        let (part, rest) ← readEscape? modes rest
        readFrom? fuel modes alternatives (part :: parts) rest
      | '.' => readFrom? fuel modes alternatives (.anyChar :: parts) rest
      | '^' | '$' => readFrom? fuel modes alternatives (.edge :: parts) rest
      | _ => readFrom? fuel modes alternatives (.single char false :: parts) rest

/-- A pattern from its text. Each step of the reading takes at least one character, so that the
fuel is enough. -/
def ofText? (text : String) : Option Pattern :=
  match readFrom? (text.toList.length + 1) initialModes [] [] text.toList with
  | some (pattern, []) => some pattern
  | _ => none

end Pattern

/-- Whether a text is a pattern that can be used. -/
def isPattern (text : String) : Bool :=
  (Pattern.ofText? text).any Pattern.isUsable

end ThriftIdl.Log
