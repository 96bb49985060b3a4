import Mathlib.Data.List.Forall2
import ThriftIdl.Proofs.Layout.Written
import ThriftIdl.Proofs.Rule.View

/-!
# Documents in rows

The usual layout of a document with comments. Each item has a row: its tokens on one line, the
comments before it on the lines above, and the comments after it behind its tokens. A block has a
row for what comes up to its opening brace and one for its closing brace, and the rows of its items
between them. The comments of a block behind its opening brace and those behind its closing brace
are the comments after it. What stands above a closing brace or at the end of the text belongs to
nothing.
-/

namespace ThriftIdl

open ThriftIdl.Source (EndsLine isSpace isLineBreak)

namespace Layout

/-! ## Texts in rows -/

/-- Comments behind the tokens of an item, up to the end of the line: any block comments, and then
at most one line comment. White space at the end of a line comment is no part of it. -/
inductive Behind : List String → List Char → Prop
  | nil : Behind [] []
  | space {char : Char} {tails : List String} {rest : List Char} : isSpace char →
      Behind tails rest → Behind tails (char :: rest)
  | block {body rest : List Char} {tails : List String} : IsInside body → Behind tails rest →
      Behind (String.ofList ('/' :: '*' :: (body ++ ['*', '/'])) :: tails)
        ('/' :: '*' :: (body ++ ['*', '/']) ++ rest)
  | line {mark body : List Char} : IsLineMark mark → (∀ char ∈ body, ¬isLineBreak char) →
      Behind [String.ofList (Text.trimEnd (mark ++ body))] (mark ++ body)

/-- Comments on the lines above an item, with any blanks and empty lines around them. -/
inductive Above : List String → List Char → Prop
  | nil : Above [] []
  | blank {char : Char} {heads : List String} {rest : List Char} : isSpace char ∨ isLineBreak char →
      Above heads rest → Above heads (char :: rest)
  | block {body rest : List Char} {heads : List String} : IsInside body → Above heads rest →
      Above (String.ofList ('/' :: '*' :: (body ++ ['*', '/'])) :: heads)
        ('/' :: '*' :: (body ++ ['*', '/']) ++ rest)
  | line {mark body rest : List Char} {char : Char} {heads : List String} : IsLineMark mark →
      (∀ char ∈ body, ¬isLineBreak char) → isLineBreak char → Above heads rest →
      Above (String.ofList (Text.trimEnd (mark ++ body)) :: heads) (mark ++ body ++ char :: rest)

/-- Tokens with the comments above them and the comments behind them. -/
structure Row where
  heads : List String
  tokens : List Token
  tails : List String

/-- The comments of an item that has a row of its own. -/
def Row.comments (row : Row) : Comments where
  head := Comment.Queue.together row.heads
  tail := Comment.Queue.together row.tails

/-- Tokens on one line with blanks between them, and the comments behind the last of them. -/
inductive OnLine (tails : List String) : List Token → List Char → Prop
  | last {token : Token} {line : List Char} : Behind tails line →
      OnLine tails [token] (token ++ line)
  | next {token second : Token} {tokens : List Token} {spaces rest : List Char} :
      (∀ char ∈ spaces, isSpace char) → ¬GrowsInto token (spaces ++ rest) →
      OnLine tails (second :: tokens) rest →
      OnLine tails (token :: second :: tokens) (token ++ (spaces ++ rest))

/-- Texts in rows. -/
inductive InRows : List Row → List Char → Prop
  | nil {strays : List String} {lines : List Char} : Above strays lines → InRows [] lines
  | cons {row : Row} {rows : List Row} {lines line rest : List Char} : Above row.heads lines →
      OnLine row.tails row.tokens line → EndsLine rest → InRows rows rest →
      InRows (row :: rows) (lines ++ (line ++ rest))

/-! ## Documents in rows -/

/-- Whether a row is that of a field. -/
def IsFieldRow (field : Field) (row : Row) : Prop :=
  WritesField field row.tokens ∧ field.comments = row.comments

/-- Whether a row is that of a function. Its fields are on its line and have no comments. -/
def IsFunctionRow (function : Function) (row : Row) : Prop :=
  WritesFunction function row.tokens ∧ function.comments = row.comments ∧
    ∀ field ∈ function.arguments ++ function.throws, field.comments = {}

/-- Whether rows are those of the items of an enumeration, given the value that the first of them
has if none is written for it. -/
def AreEnumRows : Option Int64 → List EnumItem → List Row → Prop
  | _, [], rows => rows = []
  | next, item :: rest, rows => ∃ row others, WritesEnumItems next [item] row.tokens ∧
      item.comments = row.comments ∧ AreEnumRows (nextValue? item.value) rest others ∧
      rows = row :: others

/-- Whether rows are those of a block, given its tokens up to the opening brace, its comments and
the rows in it. -/
def AreBlock (header : List Token) (comments : Comments) (inner rows : List Row) : Prop :=
  ∃ opening closing separator, opening.tokens = header ∧ closing.tokens = ['\x7d'] :: separator ∧
    IsSeparator separator ∧
    comments = ⟨Comment.Queue.together opening.heads,
      Comment.Queue.together (opening.tails ++ closing.tails)⟩ ∧
    rows = opening :: (inner ++ [closing])

/-- Whether rows are those of a declaration. -/
def AreRows : Declaration → List Row → Prop
  | .enumeration declared, rows => ∃ inner, AreEnumRows (some 0) declared.items inner ∧
      AreBlock ["enum".toList, declared.name.toList, ['\x7b']] declared.comments inner rows
  | .record kind declared, rows => ∃ inner, List.Forall₂ IsFieldRow declared.fields inner ∧
      AreBlock [kind.keyword.toList, declared.name.toList, ['\x7b']] declared.comments inner rows
  | .service declared, rows => ∃ clause inner, WritesParent declared.parent clause ∧
      List.Forall₂ IsFunctionRow declared.functions.items inner ∧
      AreBlock ("service".toList :: declared.name.toList :: (clause ++ [['\x7b']]))
        declared.comments inner rows
  | declared, rows => ∃ row, WritesDeclaration declared row.tokens ∧
      declared.comments = row.comments ∧ rows = [row]

/-- Whether a text is a document in rows, declaration by declaration. Declarations of different
kinds may come in any order, and there may be a byte order mark before all. -/
def IsInRows (document : Document) (text : List Char) : Prop :=
  ∃ mark rest declared parts, (mark = [] ∨ mark = ['\ufeff']) ∧ text = mark ++ rest ∧
    (∀ kind, declared.filter (fun declaration => declaration.kind = kind) = document.ofKind kind) ∧
    List.Forall₂ AreRows declared parts ∧ InRows parts.flatten rest

end Layout
end ThriftIdl
