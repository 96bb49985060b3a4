import Mathlib.Data.List.Nodup
import ThriftIdl.Command.Result
import ThriftIdl.Proofs.Reading.Kinds
import ThriftIdl.Proofs.Reading.Rejection
import ThriftIdl.Proofs.Source.Bytes

/-!
# Which includes are kept

An include goes by its module name, the last part of its path without the suffix, and of the
declarations of one name a document keeps the last. So an include that is written is in the document
unless one with another path and the same module name is written after it, and the `includes` action
lists what is in the document (`includes_kept`).
-/

namespace ThriftIdl

open Source (Stops gap gapChars)
open ThriftIdl.Parser (View isQuote isIdentChar)

/-- A text that begins with the inclusion of a file: with the keyword, a gap, and the path between
two quotes of one kind. -/
def BeginsInclude (path : String) (text : List Char) : Prop :=
  ∃ between quote more, isQuote quote ∧ quote ∉ path.toList ∧
    gapChars (gap (between ++ quote :: (path.toList ++ quote :: more))) = between ∧
    text = "include".toList ++ (between ++ quote :: (path.toList ++ quote :: more))

namespace Grammar

variable {path : String} {before after : View}

/-- A gap begins with no identifier character. -/
theorem stops_isIdentChar_of_gapChars {between more : List Char}
    (whole : gapChars (gap (between ++ more)) = between) (plain : Stops isIdentChar more) :
    Stops isIdentChar (between ++ more) := by
  cases between with
  | nil => exact plain
  | cons char rest =>
      refine Source.stops_cons.mpr ?_
      by_contra ident
      have closed := opensGap_of_isIdentChar (by simpa using ident)
      rw [Source.gap_eq_nil (by simpa using closed)] at whole
      cases whole

private theorem leadingWord_of_beginsInclude {text : List Char} (begins : BeginsInclude path text) :
    leadingWord text = "include".toList := by
  obtain ⟨between, quote, more, quotes, -, whole, rfl⟩ := begins
  refine leadingWord_append (by decide) (stops_isIdentChar_of_gapChars whole ?_)
  refine Source.stops_cons.mpr ?_
  simp only [isQuote, Bool.or_eq_true, beq_iff_eq] at quotes
  rcases quotes with rfl | rfl <;> rfl

/-- What stands behind the keyword of an include and the gap after it. -/
theorem rest_of_includeForm {declared : Include}
    (here : includeForm before (.inclusion declared) after) :
    ∃ behind quote raw more, isQuote quote ∧ quote ∉ raw ∧ declared.path = String.ofList raw ∧
      before.rest = "include".toList ++ behind ∧
      behind.drop (gapChars (gap behind)).length = quote :: (raw ++ quote :: more) := by
  obtain ⟨_, opened, ⟨-, rfl⟩, _, middle, keyed, found, _, quoted, _, _, -, _, _, -, same, -⟩ :=
    here
  obtain ⟨leads, rfl⟩ := keyword_iff.mp keyed
  obtain ⟨_, more, rest, ⟨quote, raw, quotes, rfl, closes, means⟩, -, -⟩ := quoted
  cases same
  cases means
  refine ⟨before.rest.drop "include".toList.length, quote, raw, more, quotes,
    not_mem_of_throughQuote? closes, rfl, ?_, ?_⟩
  · have leads : leadingWord before.rest = "include".toList := leads
    rw [← leads, leadingWord, Source.drop_takeWhile, List.takeWhile_append_dropWhile]
  · exact rest.trans (by simp)

/-- An include that is read is written. -/
theorem beginsInclude_of_includeForm {declared : Include}
    (here : includeForm before (.inclusion declared) after) :
    BeginsInclude declared.path before.rest := by
  obtain ⟨behind, quote, raw, more, quotes, absent, same, text, rest⟩ := rest_of_includeForm here
  have split := Source.gap_append behind
  rw [rest] at split
  have path : declared.path.toList = raw := by rw [same, String.toList_ofList]
  refine ⟨gapChars (gap behind), quote, more, quotes, ?_, ?_, ?_⟩
  · rwa [path]
  · rw [path, split]
  · rw [path, split, text]

/-- What stands before the first quote of a text. -/
theorem takeWhile_until_quote {quote : Char} {raw : List Char} (absent : quote ∉ raw)
    (more : List Char) : (raw ++ quote :: more).takeWhile (· != quote) = raw := by
  refine Stops.takeWhile_append (Source.stops_cons.mpr (by simp)) fun char member => ?_
  exact bne_iff_ne.mpr fun same => absent (same ▸ member)

/-- An include that is written is read, if anything is. -/
theorem path_of_beginsInclude {duplicates : DuplicateIds} {value : Declaration}
    (here : declaration duplicates before value after) (begins : BeginsInclude path before.rest) :
    ∃ declared, value = .inclusion declared ∧ declared.path = path := by
  have kind : value.kind = .inclusion :=
    kind_of_leadingWord duplicates here (leadingWord_of_beginsInclude begins)
  cases value with
  | inclusion declared =>
      refine ⟨declared, rfl, ?_⟩
      obtain ⟨behind, quote, raw, more, -, absent, same, text, rest⟩ :=
        rest_of_includeForm ((declaration_iff duplicates).mp here)
      obtain ⟨between, quote', more', -, absent', whole, text'⟩ := begins
      rw [text'] at text
      rw [← List.append_cancel_left text, whole, List.drop_left] at rest
      obtain ⟨rfl, inner⟩ := List.cons.inj rest
      rw [same, ← String.toList_inj, String.toList_ofList, ← takeWhile_until_quote absent more,
        ← inner, takeWhile_until_quote absent']
  | _ => cases kind

end Grammar

namespace Parser

variable {options : Options} {source : String}

/-! ## The places of declarations -/

private theorem Declares.offset_le {before after : State} {declared : List (Nat × Declaration)}
    (declares : Declares options before declared after) :
    before.input.cursor.offset ≤ after.input.cursor.offset := by
  obtain ⟨count, moved⟩ := declares.input
  rw [moved, Source.Input.advance, Source.Cursor.offset_pass]
  exact Nat.le_add_right _ _

/-- A declaration that is read moves the place on. -/
theorem offset_lt_of_declaration {duplicates : DuplicateIds} {before after : State}
    {declared : Declaration} (sound : before.Sound)
    (matched : declaration duplicates (before.keeping []) = .ok declared after) :
    before.input.cursor.offset < after.input.cursor.offset := by
  have shorter := (declaration_of_ok sound matched).2.2
  have grown := (Formed.declaration duplicates).growing (before.keeping [])
  rw [matched] at grown
  obtain ⟨count, moved⟩ : ∃ count, after.input = before.input.advance count := grown.input
  have passed : before.input.rest.take count ≠ [] := by
    intro none
    have split := List.take_append_drop count before.input.rest
    rw [none, List.nil_append] at split
    rw [moved, Source.Input.advance, split] at shorter
    exact Nat.lt_irrefl _ shorter
  have nonempty : Source.encode (before.input.rest.take count) ≠ [] :=
    fun none => passed (Source.encode_eq_nil.mp none)
  have counted := List.length_pos_iff.mpr nonempty
  rw [moved, Source.Input.advance, Source.Cursor.offset_pass]
  omega

/-- **Where the declarations of a text begin**: each at an offset of its own, in their order, and
wherever the reading comes to a place before the end of the text. -/
theorem Declares.places {before last : State} {declared : List (Nat × Declaration)}
    (declares : Declares options before declared last) (sound : before.Sound)
    (ended : last.input.atEnd = true) :
    ∃ places : List (Nat × Declaration),
      places.map Prod.snd = declared.map Prod.snd ∧
      places.Pairwise (fun first second => first.1 < second.1) ∧
      (∀ place ∈ places, ∃ front state next, Declares options before front state ∧
        state.input.cursor.offset = place.1 ∧
        declaration options.duplicates (state.keeping []) = .ok place.2 next) ∧
      ∀ front state, Declares options before front state → state.input.atEnd = false →
        ∃ found next, (state.input.cursor.offset, found) ∈ places ∧
          declaration options.duplicates (state.keeping []) = .ok found next := by
  induction declares with
  | done state =>
      refine ⟨[], rfl, .nil, by simp, fun front other reaches unread => ?_⟩
      cases reaches with
      | done => simp [ended] at unread
      | next unread _ _ => simp [ended] at unread
  | @next before between last declared later unread matched rest ih =>
      obtain ⟨-, soundBetween, -⟩ := declaration_of_ok sound matched
      obtain ⟨places, same, ordered, stands, covers⟩ := ih soundBetween ended
      refine ⟨(before.input.cursor.offset, declared) :: places, ?_, ?_, ?_, ?_⟩
      · rw [List.map_cons, List.map_cons, same]
      · refine List.pairwise_cons.mpr ⟨fun place member => ?_, ordered⟩
        obtain ⟨front, state, next, reaches, offset, -⟩ := stands place member
        rw [← offset]
        -- A declaration uses up part of the text, so all later places lie behind this one.
        exact (offset_lt_of_declaration sound matched).trans_le reaches.offset_le
      · refine List.forall_mem_cons.mpr ⟨⟨[], before, between, .done _, rfl, matched⟩, ?_⟩
        intro place member
        obtain ⟨front, state, next, reaches, found⟩ := stands place member
        exact ⟨_, state, next, .next unread matched reaches, found⟩
      · intro front state reaches unreadThere
        cases reaches with
        | done => exact ⟨declared, between, List.mem_cons_self, matched⟩
        | next _ matched' reaches =>
            rw [matched] at matched'
            cases matched'
            obtain ⟨found, next, member, read⟩ := covers _ _ reaches unreadThere
            exact ⟨found, next, List.mem_cons_of_mem _ member, read⟩

/-! ## The includes of a document -/

/-- An include of a path stands at an offset of a source text, at which a declaration begins. -/
def IncludeAt (options : Options) (source : String) (offset : Nat) (path : String) : Prop :=
  ∃ state, TopLevel options source state ∧ state.input.cursor.offset = offset ∧
    BeginsInclude path state.input.rest

/-- The includes of a document are its declarations of that kind. -/
theorem mem_includes_iff {document : Document} {entry : Include} :
    entry ∈ document.includes ↔ .inclusion entry ∈ document.declarations.items := by
  unfold Document.includes Document.ofKind
  rw [List.mem_filterMap]
  constructor
  · rintro ⟨declared, member, same⟩
    cases declared with
    | inclusion other =>
        cases same
        exact List.mem_of_mem_filter member
    | _ => cases same
  · intro member
    exact ⟨.inclusion entry, List.mem_filter.mpr ⟨member, by simp [Declaration.kind]⟩, rfl⟩

/-- A declaration is in a document if no later one has its kind and name. -/
theorem mem_items_iff {places : List (Nat × Declaration)}
    (ordered : places.Pairwise fun first second => first.1 < second.1) {declared : Declaration} :
    declared ∈ (Document.ofList (places.map Prod.snd)).declarations.items ↔
      ∃ offset, (offset, declared) ∈ places ∧
        ∀ place ∈ places, offset < place.1 → place.2.key ≠ declared.key := by
  rw [Document.declarations_ofList, Keyed.mem_ofList_iff]
  constructor
  · rintro ⟨front, back, split, absent⟩
    obtain ⟨before, rest, rfl, rfl, same⟩ := List.map_eq_append_iff.mp split
    obtain ⟨⟨offset, found⟩, behind, rfl, rfl, rfl⟩ := List.map_eq_cons_iff.mp same
    refine ⟨offset, by simp, fun place member later same => absent ?_⟩
    have after : place ∈ behind := by
      rcases List.mem_append.mp member with earlier | here
      · have sooner := (List.pairwise_append.mp ordered).2.2 place earlier _ List.mem_cons_self
        exact absurd (sooner.trans later) (Nat.lt_irrefl _)
      · rcases List.mem_cons.mp here with rfl | after
        · exact absurd later (Nat.lt_irrefl _)
        · exact after
    exact same ▸ List.mem_map_of_mem (List.mem_map_of_mem after)
  · rintro ⟨offset, member, last⟩
    obtain ⟨before, behind, rfl⟩ := List.append_of_mem member
    refine ⟨before.map Prod.snd, behind.map Prod.snd, by simp, fun present => ?_⟩
    obtain ⟨_, inside, same⟩ := List.mem_map.mp present
    obtain ⟨place, after, rfl⟩ := List.mem_map.mp inside
    have later := (List.pairwise_cons.mp (List.pairwise_append.mp ordered).2.1).1 place after
    exact last place (by simp [after]) later same

variable {document : Document}

/-- **Where the includes of a document come from.** -/
theorem places_of_parse (parsed : Document.parse source options = .ok document) :
    ∃ places : List (Nat × Declaration),
      document = Document.ofList (places.map Prod.snd) ∧
      places.Pairwise (fun first second => first.1 < second.1) ∧
      (∀ offset entry, (offset, .inclusion entry) ∈ places →
        IncludeAt options source offset entry.path ∧ entry.moduleName = moduleName entry.path) ∧
      ∀ offset path, IncludeAt options source offset path →
        ∃ entry, (offset, .inclusion entry) ∈ places ∧ entry.path = path := by
  have sound := sound_openingState source
  obtain ⟨last, declares, ended, rfl⟩ := declares_of_parse parsed
  obtain ⟨places, same, ordered, stands, covers⟩ := declares.places sound ended
  refine ⟨places, by rw [same], ordered, ?_, ?_⟩
  · intro offset entry member
    obtain ⟨front, state, next, reaches, rfl, matched⟩ := stands _ member
    have here := (declaration_of_ok (reaches.sound sound) matched).1
    have form := (Grammar.declaration_iff _).mp here
    exact ⟨⟨state, reaches.topLevel .start, rfl, Grammar.beginsInclude_of_includeForm form⟩,
      (Grammar.ensures_declaration _ here).2.1⟩
  · rintro offset path ⟨state, reached, rfl, begins⟩
    obtain ⟨front, reaches⟩ := reached.declares
    have unread : state.input.atEnd = false := by
      obtain ⟨_, _, _, -, -, -, text⟩ := begins
      simp [Source.Input.atEnd, text]
    obtain ⟨found, next, member, matched⟩ := covers front state reaches unread
    have here := (declaration_of_ok (reaches.sound sound) matched).1
    obtain ⟨entry, rfl, path⟩ := Grammar.path_of_beginsInclude here begins
    exact ⟨entry, member, path⟩

/-- The lines in which the `includes` action lists includes as text, or else the array. -/
def listing (output : Command.Format) (includes : List Include) : String :=
  match output with
  | .text => String.join (includes.map fun entry =>
      entry.moduleName ++ "\t" ++ entry.path ++ "\n")
  | .json => (Json.arr (includes.map fun entry =>
      .obj [("module", .str entry.moduleName), ("path", .str entry.path)])).pretty ++ "\n"

/-- The `includes` action lists the includes of the document of its file. -/
theorem resultOn_includes {invocation : Command.Invocation} {filterText : Option String}
    (lists : invocation.action = .includes)
    (parsed : Document.parse source invocation.options = .ok document) :
    (invocation.resultOn filterText source).code = 0 ∧
      (invocation.resultOn filterText source).out =
        listing invocation.output document.includes := by
  have read : (Reading.ofSource invocation.options source).document = .ok document := parsed
  unfold Command.Invocation.resultOn
  simp only [read, true_and]
  unfold Command.Invocation.answer listing
  rw [lists]
  cases invocation.output <;> rfl

/-- No two declarations begin at one offset. -/
theorem eq_of_offset_eq {places : List (Nat × Declaration)}
    (ordered : places.Pairwise fun first second => first.1 < second.1) {offset : Nat}
    {declared other : Declaration} (member : (offset, declared) ∈ places)
    (member' : (offset, other) ∈ places) : declared = other := by
  have distinct : (places.map Prod.fst).Nodup :=
    List.pairwise_map.mpr (ordered.imp Nat.ne_of_lt)
  exact congrArg Prod.snd (List.inj_on_of_nodup_map distinct member member' rfl)

/-- **An include is lost only to a later one of its name.** If a source text can be read, a path is
among the includes of its document exactly if it is written in an include after which no include of
another path with the same module name is written. Each include is stored under the module name of
its path, and the `includes` action succeeds and lists just the includes of the document. -/
theorem includes_kept (parsed : Document.parse source options = .ok document) :
    (∀ path, path ∈ document.includes.map Include.path ↔
      ∃ offset, IncludeAt options source offset path ∧
        ∀ later other, offset < later → IncludeAt options source later other →
          moduleName other = moduleName path → other = path) ∧
    (∀ entry ∈ document.includes, entry.moduleName = moduleName entry.path) ∧
    ∀ (invocation : Command.Invocation) (filterText : Option String),
      invocation.action = .includes → invocation.options = options →
        (invocation.resultOn filterText source).code = 0 ∧
        (invocation.resultOn filterText source).out =
          listing invocation.output document.includes := by
  obtain ⟨places, rfl, ordered, stands, written⟩ := places_of_parse parsed
  refine ⟨fun path => ⟨fun kept => ?_, ?_⟩, fun entry member => ?_, ?_⟩
  · -- What is kept is written, and no include of its name after it is.
    obtain ⟨entry, member, rfl⟩ := List.mem_map.mp kept
    obtain ⟨offset, place, last⟩ := (mem_items_iff ordered).mp (mem_includes_iff.mp member)
    obtain ⟨stood, named⟩ := stands offset entry place
    refine ⟨offset, stood, fun later other after there same => ?_⟩
    obtain ⟨entry', place', rfl⟩ := written later other there
    have named' := (stands later entry' place').2
    refine absurd ?_ (last _ place' after)
    simp only [Declaration.key, Declaration.kind, Declaration.name, named, named', same]
  · -- The last include of the name of a path is kept, and by assumption it has this path.
    rintro ⟨offset, stood, last⟩
    obtain ⟨entry, place, rfl⟩ := written offset path stood
    obtain ⟨kept, member, same⟩ :
        ∃ kept ∈ (Document.ofList (places.map Prod.snd)).declarations.items,
          kept.key = (Declaration.inclusion entry).key := by
      rw [Document.declarations_ofList]
      exact Keyed.exists_mem_ofList (List.mem_map_of_mem place)
    cases kept with
    | inclusion kept =>
        obtain ⟨later, place', final⟩ := (mem_items_iff ordered).mp member
        obtain ⟨stood', named'⟩ := stands later kept place'
        have names : moduleName kept.path = moduleName entry.path := by
          rw [← named', ← (stands offset entry place).2]
          exact congrArg Prod.snd same
        refine List.mem_map.mpr ⟨kept, mem_includes_iff.mpr member, ?_⟩
        rcases Nat.lt_trichotomy offset later with after | rfl | before
        · exact last later kept.path after stood' names
        · cases eq_of_offset_eq ordered place place'
          rfl
        · exact absurd same.symm (final _ place before)
    | _ => cases congrArg Prod.fst same
  · obtain ⟨offset, place, -⟩ := (mem_items_iff ordered).mp (mem_includes_iff.mp member)
    exact (stands offset entry place).2
  · intro invocation filterText lists same
    exact resultOn_includes lists (same ▸ parsed)

/-- Two includes in directories of their own: the paths of both are kept. -/
theorem includes_kept_apart :
    ∃ document, Document.parse "include 'a/x.thrift'\ninclude \"y.thrift\"" = .ok document ∧
      document.includes.map Include.path = ["a/x.thrift", "y.thrift"] ∧
      ∃ offset, IncludeAt {} "include 'a/x.thrift'\ninclude \"y.thrift\"" offset "a/x.thrift" ∧
        ∀ later other, offset < later →
          IncludeAt {} "include 'a/x.thrift'\ninclude \"y.thrift\"" later other →
          moduleName other = moduleName "a/x.thrift" → other = "a/x.thrift" := by
  obtain ⟨document, parsed, paths⟩ := exists_of_map_parse {}
    "include 'a/x.thrift'\ninclude \"y.thrift\""
    (fun document => document.includes.map Include.path)
    ["a/x.thrift", "y.thrift"] (by decide +kernel)
  exact ⟨document, parsed, paths, ((includes_kept parsed).1 "a/x.thrift").mp (by simp [paths])⟩

/-- Two includes with one module name: the path of the first is lost. -/
theorem include_lost :
    ∃ document, Document.parse "include 'a/x.thrift'\ninclude 'b/x.thrift'" = .ok document ∧
      IncludeAt {} "include 'a/x.thrift'\ninclude 'b/x.thrift'" 0 "a/x.thrift" ∧
      "a/x.thrift" ∉ document.includes.map Include.path := by
  obtain ⟨document, parsed, paths⟩ := exists_of_map_parse {}
    "include 'a/x.thrift'\ninclude 'b/x.thrift'"
    (fun document => document.includes.map Include.path)
    ["b/x.thrift"] (by decide +kernel)
  refine ⟨document, parsed, ⟨_, .start, by decide +kernel, ?_⟩, by simp [paths]⟩
  exact ⟨[' '], '\'', "\ninclude 'b/x.thrift'".toList, by decide, by decide, by decide +kernel,
    by decide +kernel⟩

end Parser
end ThriftIdl
