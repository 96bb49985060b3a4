/-!
# Patterns for values

A pattern describes a set of texts. A filter may name one for the value of a field, but nothing
that is reported is compared with it, so only the form of a pattern matters: whether it is nested
too deep, gives one name to two groups, or has a part that is not offered in the modes of its
place. Letters in either case, classes by letter and edges of words are offered only for patterns
that are about bytes, and those must not reach beyond ASCII by anything but single characters.
-/

namespace ThriftIdl.Log

/-- A way to read a pattern that can be on or off. -/
inductive Mode
  /-- Letters stand for either case. -/
  | anyCase
  /-- Lines have edges, not only the whole text. -/
  | lineEdges
  /-- The sign for any character stands for line feeds too. -/
  | lineFeeds
  /-- Repetitions take as little as they can. -/
  | little
  /-- The pattern is about characters and not about bytes. -/
  | characters
  /-- Carriage returns end lines too. -/
  | carriageReturns
  /-- White space and comments in the pattern stand for nothing. -/
  | spaced
deriving DecidableEq

/-- The modes that are on. -/
abbrev Modes := List Mode

/-- Modes to be put on and modes to be put off. -/
structure ModeChange where
  on : List Mode := []
  off : List Mode := []
deriving DecidableEq

/-- The modes after a change. -/
def ModeChange.applyTo (change : ModeChange) (modes : Modes) : Modes :=
  change.on ++ modes.filter (!change.off.contains ·)

/-- A set of characters inside brackets. -/
inductive CharSet
  | empty
  | single (value : Char)
  | range (first last : Char)
  /-- An ASCII class by its name, or the complement of one. -/
  | ascii (negated : Bool)
  /-- A class by its letter, or the complement of one. -/
  | letter (negated : Bool)
  | nested (negated : Bool) (members : CharSet)
  | union (sets : List CharSet)
  /-- Two sets that are intersected or subtracted. -/
  | combined (left right : CharSet)

/-- A pattern. -/
inductive Pattern
  | empty
  /-- A character, and whether it is one beyond ASCII that is given by two digits. -/
  | single (value : Char) (octet : Bool)
  | anyChar
  /-- The beginning or the end of a line or of the text. -/
  | edge
  /-- The beginning or the end of a word, or a place that is neither. -/
  | wordEdge
  /-- A class by its letter, or the complement of one. -/
  | letter (negated : Bool)
  | set (negated : Bool) (members : CharSet)
  /-- A change of modes up to the end of the group around it. -/
  | switch (change : ModeChange)
  | repeated (inner : Pattern)
  /-- A group with its own change of modes. -/
  | group (name : Option String) (change : ModeChange) (inner : Pattern)
  | sequence (parts : List Pattern)
  | choice (parts : List Pattern)

namespace CharSet

/-- The set of what is in one of the given sets. -/
def ofList : List CharSet → CharSet
  | [] => empty
  | [set] => set
  | sets => union sets

mutual

/-- How deep a set is nested. -/
def depth : CharSet → Nat
  | nested _ members => members.depth + 1
  | union sets => greatestDepth sets + 1
  | combined left right => max left.depth right.depth + 1
  | _ => 0

/-- How deep the deepest of some sets is nested. -/
def greatestDepth : List CharSet → Nat
  | [] => 0
  | set :: sets => max set.depth (greatestDepth sets)

end

/-- Whether a complement is offered: bytes have none that is ASCII only. -/
def offersComplement (modes : Modes) (negated : Bool) : Bool :=
  modes.contains .characters || !negated

/-- Whether members are offered: characters have no either case. -/
def offersMembers (modes : Modes) : Bool :=
  !(modes.contains .characters && modes.contains .anyCase)

/-- Whether a character is offered as a member. -/
def offersChar (modes : Modes) (char : Char) : Bool :=
  offersMembers modes && (modes.contains .characters || char.toNat < 0x80)

mutual

/-- Whether a set is offered in some modes. -/
def isOffered (modes : Modes) : CharSet → Bool
  | empty => true
  | single value => offersChar modes value
  | range first last => offersChar modes first && offersChar modes last
  | ascii negated => offersMembers modes && offersComplement modes negated
  | letter negated => !modes.contains .characters && !negated
  | nested negated members => offersComplement modes negated && members.isOffered modes
  | union sets => areOffered modes sets
  | combined left right => left.isOffered modes && right.isOffered modes

/-- Whether all of some sets are offered in some modes. -/
def areOffered (modes : Modes) : List CharSet → Bool
  | [] => true
  | set :: sets => set.isOffered modes && areOffered modes sets

end

end CharSet

namespace Pattern

/-- The pattern of one part after the other. -/
def ofParts : List Pattern → Pattern
  | [] => empty
  | [part] => part
  | parts => sequence parts

/-- The pattern of one part or another. -/
def ofAlternatives : List Pattern → Pattern
  | [part] => part
  | parts => choice parts

mutual

/-- How deep a pattern is nested. -/
def depth : Pattern → Nat
  | set _ members => members.depth + 1
  | repeated inner => inner.depth + 1
  | group _ _ inner => inner.depth + 1
  | sequence parts => greatestDepth parts + 1
  | choice parts => greatestDepth parts + 1
  | _ => 0

/-- How deep the deepest of some patterns is nested. -/
def greatestDepth : List Pattern → Nat
  | [] => 0
  | part :: parts => max part.depth (greatestDepth parts)

end

mutual

/-- The names of the groups in a pattern. -/
def names : Pattern → List String
  | repeated inner => inner.names
  | group name _ inner => name.toList ++ inner.names
  | sequence parts => allNames parts
  | choice parts => allNames parts
  | _ => []

/-- The names of the groups in some patterns. -/
def allNames : List Pattern → List String
  | [] => []
  | part :: parts => part.names ++ allNames parts

end

mutual

/-- The modes after a pattern, if all of it is offered where it stands. A change of modes holds for
what follows in the same group, also in later alternatives. -/
def modesAfter? (modes : Modes) : Pattern → Option Modes
  | empty => some modes
  | single _ octet =>
    if CharSet.offersMembers modes && (modes.contains .characters || !octet) then some modes
    else none
  | anyChar => if modes.contains .characters then some modes else none
  | edge => some modes
  | wordEdge => if modes.contains .characters then none else some modes
  | letter negated => if modes.contains .characters || negated then none else some modes
  | set negated members =>
    if CharSet.offersComplement modes negated && members.isOffered modes then some modes else none
  | switch change => some (change.applyTo modes)
  | repeated inner => inner.modesAfter? modes
  | group _ change inner => (inner.modesAfter? (change.applyTo modes)).map fun _ => modes
  | sequence parts => modesAfterAll? modes parts
  | choice parts => modesAfterAll? modes parts

/-- The modes after some patterns in turn, if all of them are offered where they stand. -/
def modesAfterAll? (modes : Modes) : List Pattern → Option Modes
  | [] => some modes
  | part :: parts =>
    match part.modesAfter? modes with
    | some modes => modesAfterAll? modes parts
    | none => none

end

/-- The modes at the start of a pattern. -/
def initialModes : Modes := [.characters]

/-- The greatest depth of a pattern. -/
def depthLimit : Nat := 250

/-- Whether a pattern can be used. -/
def isUsable (pattern : Pattern) : Bool :=
  pattern.depth ≤ depthLimit && pattern.names.Nodup && (pattern.modesAfter? initialModes).isSome

end Pattern

end ThriftIdl.Log
