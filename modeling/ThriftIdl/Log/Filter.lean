import ThriftIdl.Log.Directive

/-!
# Selecting events

A filter is a list of directives with commas between them. Of the directives that are about an
event the most specific one decides, and it admits the event up to its level.
-/

namespace ThriftIdl.Log

/-- A filter. -/
structure Filter where
  directives : List Directive
deriving DecidableEq

namespace Filter

/-- The filter that admits the events of every topic up to a level. -/
def upTo (level : Level) : Filter where
  directives := [⟨"", .always, level.detail⟩]

/-- A filter from its text, unless one of its directives is malformed. A text without directives
admits errors. -/
def ofText? (text : String) : Option Filter :=
  match ((text.splitOn ",").filter (· != "")).mapM Directive.ofText? with
  | none => none
  | some [] => some (upTo .error)
  | some directives => some ⟨directives⟩

/-- The directive that decides about an event: the most specific one, and of equal ones the
last. -/
def deciding? (filter : Filter) (event : Event) : Option Directive :=
  (filter.directives.filter (·.covers event)).foldl
    (fun earlier directive =>
      match earlier with
      | some earlier => some (if directive.overrides earlier then directive else earlier)
      | none => some directive)
    none

/-- Whether an event is admitted. -/
def admits (filter : Filter) (event : Event) : Bool :=
  match filter.deciding? event with
  | some directive => event.level.detail ≤ directive.detail
  | none => false

end Filter

end ThriftIdl.Log
