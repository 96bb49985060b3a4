/-!
# Reading options

The two choices that a reader of interface files leaves to its caller.
-/

namespace ThriftIdl

/-- What happens when two fields of one list have the same number. -/
inductive DuplicateIds
  /-- The declaration cannot be read. -/
  | reject
  /-- Both fields are kept. -/
  | keep
deriving DecidableEq

/-- The word for a choice. -/
def DuplicateIds.word : DuplicateIds → String
  | reject => "reject"
  | keep => "keep"

/-- How a source text is read. -/
structure Options where
  /-- What happens when two fields of one list have the same number. -/
  duplicates : DuplicateIds := .reject
  /-- How many characters of the source a syntax error shows. -/
  contextWidth : Nat := 100
deriving DecidableEq

end ThriftIdl
