import ThriftIdl.Proofs.Document.Keeping
import ThriftIdl.Proofs.Layout.RoundTrip
import ThriftIdl.Proofs.Reading.Kinds
import ThriftIdl.Proofs.Reading.Rejection
import ThriftIdl.Proofs.Syntax.Numbering

/-!
# Enumerations and their values

Where a reading comes to an enumeration that is written in full, with values for some of its items
and not for others, it is read up to its closing brace and the separator behind that in any case
(`EnumerationAt.exists_enumStart`). What follows depends on the values alone: the items are numbered
one after the other, or else the enumeration is rejected for the first item that there is no value
for. Main statement: `enum_numbering`.
-/

namespace ThriftIdl

open ThriftIdl.Grammar (Phrase leadingWord)
open ThriftIdl.Grammar.Phrase (Repeated)
open ThriftIdl.Parser (EnumStart)

/-! ## How enumerations are written -/

namespace Layout

/-- The tokens of the value that is written for an item, or none when no value is. -/
def WritesEnumValue : Option Int64 → List Token → Prop
  | none, tokens => tokens = []
  | some value, tokens => ∃ token, WritesNumber value token ∧ tokens = [['='], token]

/-- The tokens of an item as it is written. -/
def WritesEnumItem (item : WrittenItem) (tokens : List Token) : Prop :=
  ∃ value separator, WritesEnumValue item.value value ∧ IsSeparator separator ∧
    tokens = item.name.toList :: (value ++ separator)

/-- The tokens of an enumeration as it is written. -/
def WritesEnumeration (name : String) (items : List WrittenItem) (tokens : List Token) : Prop :=
  ∃ inner separator, WritesEach WritesEnumItem items inner ∧ IsSeparator separator ∧
    tokens = block "enum" name [] inner ++ separator

namespace Yields

private theorem enumItem {item : WrittenItem} (isName : IsName item.name) {tokens : List Token}
    (writes : WritesEnumItem item tokens) :
    Yields Grammar.enumItem (fun found => found.entry = item.entry) unknown Plain tokens := by
  obtain ⟨value, separator, writesValue, isSeparator, rfl⟩ := writes
  have known : ∃ written, Grammar.enumValue? written = some item.value ∧
      Takes Grammar.initializer.optional written anywhere value := by
    cases given : item.value with
    | none =>
        rw [given] at writesValue
        obtain rfl := writesValue
        exact ⟨none, rfl, absent⟩
    | some number =>
        rw [given] at writesValue
        obtain ⟨token, writes, rfl⟩ := writesValue
        obtain ⟨literal, integer, inner⟩ := exists_literal writes
        exact ⟨some literal, by simp [Grammar.enumValue?, integer],
          present ((mark rfl).bind inner)⟩
  obtain ⟨written, known, inner⟩ := known
  refine (Attributes.enumItem isName inner known isSeparator).yields.mono ?_ id fun _ => id
  rintro found ⟨named, valued⟩
  rw [WrittenItem.entry, named, valued, WrittenItem.entry]

/-- An enumeration is read up to its values, whatever these are. -/
theorem enumStart {name : String} {items : List WrittenItem} (isName : IsName name)
    (areNames : ∀ item ∈ items, IsName item.name) {tokens : List Token}
    (writes : WritesEnumeration name items tokens) :
    Yields Grammar.enumStart (fun start => start.2.1.1 = name ∧
      start.2.2.map WrittenItem.entry = items.map WrittenItem.entry) unknown Plain tokens := by
  obtain ⟨inner, separator, writes, isSeparator, rfl⟩ := writes
  have written : Yields (Repeated Grammar.enumItem)
      (fun found => found.map WrittenItem.entry = items.map WrittenItem.entry) unknown Plain
      inner :=
    each WrittenItem.entry (starts_plain Grammar.starts_enumItem)
      (fun item member _ writes => enumItem (areNames item member) writes) writes
  rw [block_append]
  refine bindSilent drainHead fun _ => afterHeader isName fun headerTail =>
    written.bindLoose items rfl (fun found same => ?_) fun _ _ _ => plain_cons rfl _ _
  exact (close rfl).bind <| separatorLast isSeparator <| forget <| .pure ⟨rfl, same⟩

end Yields

end Layout

namespace Parser

open ThriftIdl.Layout

variable {options : Options} {source : String} {state : State} {start : EnumStart} {view : View}

/-! ## From the items to their values -/

/-- What begins as an enumeration is read as one. -/
theorem reads_declaration_of_enumStart (duplicates : DuplicateIds) {before : View}
    (begins : reads enumStart before = some (start, view)) :
    reads (declaration duplicates) before = reads (enumEnd start) view := by
  have form : reads (formOfKind duplicates .enumeration) before = reads (enumEnd start) view := by
    rw [formOfKind, enumerationForm_eq, reads_bind_of Grammar.agrees_enumStart.formed
      (fun start => (Grammar.agrees_enumEnd start).formed) begins]
  exact (reads_declaration_of_leadingWord duplicates .enumeration
    (Grammar.leadingWord_of_enumStart begins)).trans form

/-- Items that can be numbered make an enumeration. -/
theorem reads_enumEnd {items : List EnumItem}
    (numbered : numberItems (some 0) start.2.2 = .ok items) (view : View) :
    ∃ comments, reads (enumEnd start) view =
      some (.enumeration { name := start.2.1.1, items, comments }, { view with tail := [] }) := by
  have values : enumValues start.2.1.1 start.2.2 = pure items := by rw [enumValues, numbered]
  rw [enumEnd, values, pure_bind,
    reads_bind_of .drainTail (fun _ => .pure _) (reads_drainTail view), reads_pure]
  exact ⟨_, rfl⟩

/-- An item that there is no value for is what an enumeration is rejected for. -/
theorem rejects_enumEnd {item : String} (overflows : numberItems (some 0) start.2.2 = .error item)
    (view : View) : Rejects (· = .enumOverflow start.2.1.1 item) (enumEnd start) view := by
  refine Rejects.bind _ ?_
  rw [enumValues, overflows]
  exact .rejected rfl

/-! ## Enumerations where a reading comes to them -/

variable {name : String} {items : List WrittenItem} {later : List Declaration}

/-- A reading comes to an enumeration as it is written, and behind it to other declarations that
end the text. -/
structure EnumerationAt (options : Options) (source : String) (state : State) (name : String)
    (items : List WrittenItem) (later : List Declaration) : Prop where
  reached : TopLevel options source state
  isName : IsName name
  areNames : ∀ item ∈ items, IsName item.name
  wellFormed : ∀ declared ∈ later, IsWellFormed declared
  laid : ∃ tokens more, WritesEnumeration name items tokens ∧
    WritesEach WritesDeclaration later more ∧ Laid (tokens ++ more) state.view.rest

/-- What a document says of an enumeration that is written in its text, between what has been read
before and the other declarations behind it: its items have the names that are written, and they are
numbered one after the other. If no enumeration of its name comes after it, it is the one that the
document has under this name. -/
def HasEnumeration (options : Options) (source : String) (state : State) (name : String)
    (items : List WrittenItem) (later : List Declaration) (document : Document) : Prop :=
  ∃ earlier enumeration found, Declares options (openingState source) earlier state ∧
    document = .ofList (earlier.map Prod.snd ++ .enumeration enumeration :: found) ∧
    found.map Declaration.bare = later.map Declaration.bare ∧ enumeration.name = name ∧
    enumeration.items.map EnumItem.name = items.map WrittenItem.name ∧
    Numbered none (items.map WrittenItem.value) (enumeration.items.map EnumItem.value) ∧
    ((∀ declared ∈ later, declared.key ≠ (.enumeration, name)) →
      document.enumeration? name = some enumeration)

/-- The last enumeration of its name is the one that a document has. -/
theorem enumeration?_ofList (earlier : List Declaration) {last : Enumeration}
    {later : List Declaration}
    (apart : ∀ declared ∈ later, declared.key ≠ (.enumeration, last.name)) :
    (Document.ofList (earlier ++ .enumeration last :: later)).enumeration? last.name =
      some last := by
  have found : (Document.ofList (earlier ++ .enumeration last :: later)).find? .enumeration
      last.name = some (.enumeration last) := Document.find?_ofList_append_cons earlier apart
  rw [Document.enumeration?, found]

private theorem map_name_of_entries {written : List WrittenItem}
    (same : written.map WrittenItem.entry = items.map WrittenItem.entry) :
    written.map WrittenItem.name = items.map WrittenItem.name := by
  have names := congrArg (List.map Prod.fst) same
  rwa [List.map_map, List.map_map] at names

private theorem map_value_of_entries {written : List WrittenItem}
    (same : written.map WrittenItem.entry = items.map WrittenItem.entry) :
    written.map WrittenItem.value = items.map WrittenItem.value := by
  have values := congrArg (List.map Prod.snd) same
  rwa [List.map_map, List.map_map] at values

namespace EnumerationAt

/-- The reading of a text comes to the enumeration that the text begins with. -/
theorem of_layout {options : Options} {text : String} {name : String} {items : List WrittenItem}
    {later : List Declaration} {tokens more : List Token} (isName : IsName name)
    (areNames : ∀ item ∈ items, IsName item.name)
    (wellFormed : ∀ declared ∈ later, IsWellFormed declared)
    (writes : WritesEnumeration name items tokens)
    (writesLater : WritesEach WritesDeclaration later more)
    (layout : IsLayout (tokens ++ more) text.toList) :
    EnumerationAt options text (openingState text) name items later := by
  have first := Yields.enumStart isName areNames writes
  have others := yields_declarations options.duplicates wellFormed writesLater
  refine ⟨.start, isName, areNames, wellFormed, tokens, more, writes, writesLater, ?_⟩
  rw [view_openingState]
  refine laid_opening layout (first.areTokens.append others.areTokens) fun rest laid => ?_
  obtain ⟨inner, separator, -, -, rfl⟩ := writes
  cases laid
  simp

/-- An enumeration is read up to its values in any case. -/
theorem exists_enumStart (here : EnumerationAt options source state name items later) :
    ∃ start view more, reads enumStart state.view = some (start, view) ∧ start.2.1.1 = name ∧
      start.2.2.map WrittenItem.entry = items.map WrittenItem.entry ∧
      WritesEach WritesDeclaration later more ∧ Laid more view.rest := by
  obtain ⟨tokens, more, writes, writesLater, laid⟩ := here.laid
  have others := yields_declarations options.duplicates here.wellFormed writesLater
  have plain : Plain (more ++ []) := Yields.plainRepeated
    (starts_plain (Grammar.starts_declaration _)) others (by simp [AreTokens]) plain_nil
  rw [List.append_nil] at plain
  obtain ⟨start, view, read, ⟨named, same⟩, laidLater, -⟩ :=
    (Yields.enumStart here.isName here.areNames writes).found others.areTokens plain laid
  exact ⟨start, view, more, Grammar.agrees_enumStart.always.mpr read, named, same, writesLater,
    laidLater⟩

variable {more : List Token}

/-- Where there is a value for each item, the text has a document with the enumeration in it. -/
theorem exists_document (here : EnumerationAt options source state name items later)
    (begins : reads enumStart state.view = some (start, view)) (named : start.2.1.1 = name)
    (same : start.2.2.map WrittenItem.entry = items.map WrittenItem.entry)
    (writes : WritesEach WritesDeclaration later more) (laid : Laid more view.rest)
    {numbered : List EnumItem} (found : numberItems (some 0) start.2.2 = .ok numbered) :
    ∃ document, Document.parse source options = .ok document ∧
      HasEnumeration options source state name items later document := by
  obtain ⟨comments, read⟩ := reads_enumEnd found view
  rw [← reads_declaration_of_enumStart options.duplicates begins] at read
  have first := (Grammar.agrees_declaration options.duplicates).always.mp read
  have laid : Laid (more ++ []) { view with tail := [] }.rest := by rwa [List.append_nil]
  obtain ⟨others, last, repeated, bare, ended, -⟩ :=
    (yields_declarations options.duplicates here.wellFormed writes).found (by simp [AreTokens])
      plain_nil laid
  obtain ⟨earlier, declares, parsed⟩ :=
    here.reached.exists_parse_eq_ok (.next first repeated) ended.text_eq_nil
  refine ⟨_, parsed, earlier, _, others, declares, rfl, bare, named,
    (names_of_numberItems found).trans (map_name_of_entries same),
    map_value_of_entries same ▸ @numbered_of_numberItems none _ _ found, fun apart => ?_⟩
  subst named
  refine enumeration?_ofList _ fun declared member => ?_
  have keys : others.map Declaration.key = later.map Declaration.key := by
    rw [← key_map_bare, bare, key_map_bare]
  have inside : declared.key ∈ later.map Declaration.key := keys ▸ List.mem_map_of_mem member
  obtain ⟨other, member, equal⟩ := List.mem_map.mp inside
  exact equal ▸ apart other member

/-- Where there is no value for an item, the text has no document, and the error says so. -/
theorem exists_error (here : EnumerationAt options source state name items later)
    (begins : reads enumStart state.view = some (start, view)) (named : start.2.1.1 = name)
    {item : String} (overflows : numberItems (some 0) start.2.2 = .error item) :
    ∃ error, Document.parse source options = .error error ∧
      error.message = "enum " ++ name ++ " overflows at " ++ item := by
  have leads := Grammar.leadingWord_of_enumStart begins
  have unread : state.input.atEnd = false := unread_of_leadingWord .enumeration leads
  have form : Rejects (· = .enumOverflow name item) enumerationForm state.view := by
    rw [enumerationForm_eq, ← named]
    exact .afterCandid Grammar.candid_enumStart begins (rejects_enumEnd overflows view)
  exact here.reached.exists_error_of_rejects unread (.declaration _ .enumeration leads form)

end EnumerationAt

/-- **Enumerations are numbered one item after the other.** Let a reading come to an enumeration
with any items, each with or without a numeral for its value, in decimal notation or, for magnitudes
below `2 ^ 63`, in hexadecimal notation, and let well-formed declarations follow.

* The text has a document just if no item without a written value comes directly after one with the
  greatest value.
* Then the enumeration is in the document, in its place and with its items in their order, repeated
  names and values included. Each item has the value that is written for it, or else the value of
  the item before it plus one, and the first has zero; nothing wraps around.
* Otherwise the error names the enumeration and the first item that there is no value for. -/
theorem enum_numbering (here : EnumerationAt options source state name items later) :
    ((∃ document, Document.parse source options = .ok document) ↔
      ¬∃ item, OverflowsAt none (items.map WrittenItem.entry) item) ∧
    (∀ document, Document.parse source options = .ok document →
      HasEnumeration options source state name items later document) ∧
    ∀ item, OverflowsAt none (items.map WrittenItem.entry) item →
      ∃ error, Document.parse source options = .error error ∧
        error.message = "enum " ++ name ++ " overflows at " ++ item := by
  obtain ⟨start, view, more, begins, named, same, writes, laid⟩ := here.exists_enumStart
  have overflows (item : String) : OverflowsAt none (items.map WrittenItem.entry) item ↔
      numberItems (some 0) start.2.2 = .error item := by
    rw [← same]
    exact numberItems_eq_error_iff.symm
  simp only [overflows]
  cases found : numberItems (some 0) start.2.2 with
  | ok numbered =>
      obtain ⟨document, parsed, has⟩ := here.exists_document begins named same writes laid found
      refine ⟨⟨fun _ => by simp, fun _ => ⟨document, parsed⟩⟩, ?_, ?_⟩
      · intro other parsedOther
        obtain rfl : document = other := Except.ok.inj (parsed.symm.trans parsedOther)
        exact has
      · intro item impossible
        cases impossible
  | error item =>
      obtain ⟨error, failed, message⟩ := here.exists_error begins named found
      have noDocument (document : Document) : Document.parse source options ≠ .ok document :=
        fun parsed => nomatch failed.symm.trans parsed
      refine ⟨⟨?_, ?_⟩, ?_, ?_⟩
      · rintro ⟨document, parsed⟩
        exact absurd parsed (noDocument document)
      · exact fun allNumbered => absurd ⟨item, rfl⟩ allNumbered
      · exact fun document parsed => absurd parsed (noDocument document)
      · intro other equal
        obtain rfl : item = other := Except.error.inj equal
        exact ⟨error, failed, message⟩

/-- Behind the greatest value, written in hexadecimal notation, there is no other. -/
theorem enum_numbering_greatest :
    ∃ error, Document.parse "enum E\x7bA=0x7FFFffffFFFFffff B\x7d" = .error error ∧
      error.message = "enum E overflows at B" := by
  let items : List WrittenItem := [⟨"A", some Int64.maxValue, {}⟩, ⟨"B", none, {}⟩]
  let numeral : Token := "0x7FFFffffFFFFffff".toList
  have hexadecimal : WritesHex Int64.maxValue.toInt numeral :=
    ⟨[], 'x', "7FFFffffFFFFffff".toList, .inr ⟨rfl, by decide⟩, .inl rfl,
      ⟨[], by simp, by decide +kernel⟩, rfl⟩
  have writes : WritesEnumeration "E" items
      (["enum".toList, ['E'], ['\x7b'], ['A'], ['='], numeral, ['B'], ['\x7d']]) := by
    refine ⟨[['A'], ['='], numeral, ['B']], [], ?_, .inl rfl, rfl⟩
    exact ⟨[['A'], ['='], numeral], [['B']],
      ⟨[['='], numeral], [], ⟨numeral, .inr ⟨by decide, hexadecimal⟩, rfl⟩, .inl rfl, rfl⟩,
      ⟨[['B']], [], ⟨[], [], rfl, .inl rfl, rfl⟩, rfl, rfl⟩, rfl⟩
  have layout : IsLayout
      (["enum".toList, ['E'], ['\x7b'], ['A'], ['='], numeral, ['B'], ['\x7d']] ++ [])
      "enum E\x7bA=0x7FFFffffFFFFffff B\x7d".toList := by
    have text : "enum E\x7bA=0x7FFFffffFFFFffff B\x7d".toList = "enum".toList ++ ' ' ::
        (['E'] ++ (['\x7b'] ++ (['A'] ++ (['='] ++ (numeral ++ ' ' ::
        (['B'] ++ (['\x7d'] ++ []))))))) := by decide +kernel
    refine ⟨[], [], _, .inl rfl, text, .nil, .spaced _ ?_⟩
    iterate 4 refine .tight (by decide +kernel) ?_
    refine .spaced _ ?_
    iterate 2 refine .tight (by decide +kernel) ?_
    exact .nil
  have here : EnumerationAt {} "enum E\x7bA=0x7FFFffffFFFFffff B\x7d"
      (openingState "enum E\x7bA=0x7FFFffffFFFFffff B\x7d") "E" items [] :=
    .of_layout ⟨rfl, rfl⟩ (by simp [items, IsName]; decide) (by simp) writes rfl layout
  exact (enum_numbering here).2.2 "B"
    ⟨[("A", some Int64.maxValue)], [], [Int64.maxValue], rfl, .cons (.written _) .nil, rfl⟩

end Parser
end ThriftIdl
