import ThriftIdl.Proofs.Reading.Kinds

/-!
# Words at the start of dotted names

A name goes on over dots, but a word of the grammar ends at a dot. So a word is taken for itself
where it is the first segment of a dotted name, and there the name cannot be read in the places
where the word may stand: as a value that begins like a truth value, as the type of a field that
begins like a qualifier, and as the type of a function that begins with `oneway`. Everywhere else
dotted names are read whole (`reads_dotted_name`).
-/

namespace ThriftIdl

open Source (Stops)
open ThriftIdl.Grammar (IsIdentifier IsTruthValue leadingWord)

namespace Parser

variable {First Second Value : Type}

/-! ## Parts that never miss -/

private theorem exists_reads_name {view : View} (begins : view.rest.head?.any isIdentStart) :
    ∃ found after, reads name view = some (found, after) :=
  ⟨_, _, Grammar.agrees_name.always.mpr (Grammar.Lexeme.run_phrase_iff.mpr ⟨begins, rfl, rfl⟩)⟩

/-- What is read in sequence is read part by part. -/
theorem exists_reads_of_bind {rule : Rule First} {next : First → Rule Second} {view : View}
    (formed : Formed rule) (later : ∀ value, Formed (next value))
    (read : (reads (rule >>= next) view).isSome) :
    ∃ value middle found after, reads rule view = some (value, middle) ∧
      reads (next value) middle = some (found, after) := by
  obtain ⟨⟨found, after⟩, whole⟩ := Option.isSome_iff_exists.mp read
  obtain ⟨value, middle, first, second⟩ := (reads_bind_eq_some_iff view formed later).mp whole
  exact ⟨value, middle, found, after, first, second⟩

private theorem exists_reads_attempt {rule : Rule First} (formed : Formed rule) (view : View) :
    ∃ found after, reads (attempt rule) view = some (found, after) := by
  rw [reads_attempt view formed]
  exact ⟨_, _, rfl⟩

private theorem reads_separator_of_stops {view : View} (stops : Stops isSeparator view.rest) :
    reads separator view = some ((), view) :=
  Grammar.agrees_separator.always.mpr (.inr ⟨stops, rfl⟩)

private theorem exists_reads_separator (view : View) :
    ∃ after, reads separator view = some ((), after) := by
  cases rest : view.rest with
  | nil => exact ⟨view, reads_separator_of_stops (by rw [rest]; rfl)⟩
  | cons char more =>
      by_cases separates : isSeparator char
      · exact ⟨_, Grammar.agrees_separator.always.mpr
          (.inl ⟨[char], more, rest, ⟨char, separates, rfl⟩, rfl, rfl⟩)⟩
      · refine ⟨view, reads_separator_of_stops ?_⟩
        rw [rest]
        exact Source.stops_cons.mpr (by simpa using separates)

/-- What ends an item with a separator and its comments never misses. -/
theorem exists_reads_ending (make : Option String → Second) (view : View) :
    ∃ tail after, reads (separator >>= fun _ => drainTail >>= fun tail => pure (make tail)) view =
      some (make tail, after) := by
  obtain ⟨after, read⟩ := exists_reads_separator view
  rw [reads_bind_of .separator (fun _ => Formed.drainTail.bind fun _ => .pure _) read,
    reads_bind_of .drainTail (fun _ => .pure _) (reads_drainTail after)]
  exact ⟨_, _, rfl⟩

/-! ## Words -/

/-- A dotted name stands at the start of a text, and the name ends there. -/
structure DottedAt (segments : List String) (view : View) (more : List Char) : Prop where
  several : 2 ≤ segments.length
  identifiers : ∀ segment ∈ segments, IsIdentifier segment.toList
  text : view.rest = (dotted segments).toList ++ more
  ended : Stops isNameChar more

namespace DottedAt

variable {segments : List String} {view : View} {more : List Char}

/-- The name is a path. -/
theorem path (written : DottedAt segments view more) :
    Grammar.path view segments { view with rest := more }.skip := by
  have nonempty : segments ≠ [] := List.ne_nil_of_length_pos (Nat.zero_lt_of_lt written.several)
  exact ⟨_, more, written.text, Grammar.spells_dotted nonempty written.identifiers,
    Grammar.pathRunsOn_of_stops written.ended, rfl⟩

/-- The name is a name, dots included. -/
theorem name (written : DottedAt segments view more) :
    Grammar.name view (dotted segments) { view with rest := more }.skip := by
  have begins := Grammar.starts_path written.path
  have inside := Grammar.isNameChar_of_mem_dotted written.identifiers
  refine Grammar.Lexeme.run_phrase_iff.mpr ⟨begins, ?_, ?_⟩
  · rw [written.text, written.ended.takeWhile_append inside, String.ofList_toList]
  · rw [written.text, written.ended.dropWhile_append inside]

/-- The leading word of the name is its first segment. -/
theorem leadingWord_iff (written : DottedAt segments view more) {word : String} :
    leadingWord view.rest = word.toList ↔ segments.head? = some word := by
  rw [Grammar.head?_of_path written.path, Option.some.injEq, ← String.toList_inj,
    String.toList_ofList]

/-- Behind the first segment stands a dot. -/
theorem dot (written : DottedAt segments view more) {word : String}
    (first : segments.head? = some word) :
    ∃ rest, view.rest.drop word.toList.length = '.' :: rest := by
  obtain ⟨others, rfl⟩ := List.head?_eq_some_iff.mp first
  have several := written.several
  cases others with
  | nil => simp at several
  | cons second further =>
      refine ⟨['.'].intercalate ((second :: further).map String.toList) ++ more, ?_⟩
      rw [written.text, Grammar.toList_dotted]
      simp

end DottedAt

/-- A word is matched where it is the first segment of a dotted name. -/
theorem reads_keyword_dotted {segments : List String} {view : View} {more : List Char}
    (written : DottedAt segments view more) {word : String} (isWord : IsIdentifier word.toList) :
    reads (keyword word) view = if segments.head? = some word then
      some ((), { view with rest := view.rest.drop word.toList.length }) else none := by
  rw [Grammar.reads_keyword isWord]
  by_cases first : segments.head? = some word
  · obtain ⟨rest, dot⟩ := written.dot first
    rw [if_pos first, if_pos (written.leadingWord_iff.mpr first), View.skip_of_stops]
    rw [dot]
    rfl
  · rw [if_neg first, if_neg fun leads => first (written.leadingWord_iff.mp leads)]

/-! ## Values -/

/-- A constant up to its value. -/
def constantStart : Rule (Option String × TypeRef × String) := do
  let head ← drainHead
  keyword "const"
  let type ← typeRef
  let name ← name
  mark '='
  return (head, type, name)

/-- A constant from its value on. -/
def constantEnd (start : Option String × TypeRef × String) : Rule Declaration := do
  let value ← literal
  separator
  let tail ← drainTail
  return .constant
    { type := start.2.1, name := start.2.2, value, comments := { head := start.1, tail } }

/-- A constant falls into its part before the value and the rest. -/
theorem constantForm_eq : constantForm = constantStart >>= constantEnd := by
  simp only [constantForm, constantStart, constantEnd, bind_assoc, pure_bind]

/-- What comes before the value of a constant is read by the means of the rules. -/
theorem Formed.constantStart : Formed constantStart :=
  Formed.drainHead.bind fun _ => (Formed.keyword _).bind fun _ => Formed.typeRef.bind fun _ =>
    Formed.name.bind fun _ => (Formed.mark _).bind fun _ => .pure _

/-- The value of a constant and what follows it are read by the means of the rules. -/
theorem Formed.constantEnd (start : Option String × TypeRef × String) :
    Formed (constantEnd start) :=
  Formed.literal.bind fun _ => Formed.ending _

/-- A constant whose value is read is read. -/
theorem exists_reads_constantEnd {value : Literal} {behind : View}
    (read : reads literal view = some (value, behind))
    (start : Option String × TypeRef × String) :
    ∃ comments after, reads (constantEnd start) view =
      some (.constant { type := start.2.1, name := start.2.2, value, comments }, after) := by
  obtain ⟨tail, after, ended⟩ := exists_reads_ending (fun tail => Declaration.constant
    { type := start.2.1, name := start.2.2, value, comments := { head := start.1, tail } }) behind
  exact ⟨_, after, (reads_bind_of .literal (fun _ => .ending _) read).trans ended⟩

/-- A dotted name is read as a reference, unless its first segment is a truth value. -/
theorem reads_literal_dotted {segments : List String} {view : View} {more : List Char}
    (written : DottedAt segments view more) :
    (¬IsTruthValue segments →
      reads literal view = some (.ref segments, { view with rest := more }.skip)) ∧
    (IsTruthValue segments → ∃ truth rest,
      reads literal view = some (.bool truth, { view with rest := '.' :: rest })) := by
  refine ⟨fun apart => Grammar.agrees_literal.always.mpr ⟨1, Grammar.refLiteral, ?_, ?_⟩, ?_⟩
  · simp [Grammar.literalForms]
  · exact Grammar.Phrase.map_iff.mpr ⟨segments, ⟨written.path, apart⟩, rfl⟩
  · have word (word : String) (truth : Bool) (member : (word, Literal.bool truth) ∈
        [("true", Literal.bool true), ("false", Literal.bool false)])
        (first : segments.head? = some word) : ∃ truth rest,
          reads literal view = some (.bool truth, { view with rest := '.' :: rest }) := by
      obtain ⟨rest, dot⟩ := written.dot first
      refine ⟨truth, rest, Grammar.agrees_literal.always.mpr ⟨1, Grammar.boolLiteral, ?_, ?_⟩⟩
      · simp [Grammar.literalForms]
      · refine Grammar.Lexeme.words_phrase_iff.mpr
          ⟨word, member, written.leadingWord_iff.mpr first, ?_⟩
        rw [dot, View.skip_of_stops]
        rfl
    rintro (first | first)
    · exact word "true" true (by simp) first
    · exact word "false" false (by simp) first

/-- A constant whose value is a dotted name. -/
theorem reads_constantEnd_dotted {segments : List String} {view : View} {more : List Char}
    (written : DottedAt segments view more) (start : Option String × TypeRef × String) :
    (¬IsTruthValue segments → ∃ comments after, reads (constantEnd start) view =
      some (.constant { type := start.2.1, name := start.2.2, value := .ref segments, comments },
        after)) ∧
    (IsTruthValue segments → ∃ truth comments after, reads (constantEnd start) view =
      some (.constant { type := start.2.1, name := start.2.2, value := .bool truth, comments },
        after) ∧ after.rest.head? = some '.') := by
  obtain ⟨refers, isTruth⟩ := reads_literal_dotted written
  constructor
  · intro apart
    exact exists_reads_constantEnd (refers apart) start
  · intro begins
    obtain ⟨truth, rest, valueRead⟩ := isTruth begins
    have unseparated : reads separator { view with rest := '.' :: rest } =
        some ((), { view with rest := '.' :: rest }) := reads_separator_of_stops rfl
    refine ⟨truth, { head := start.1, tail := Comment.Queue.together view.tail },
      { view with rest := '.' :: rest, tail := [] }, ?_, rfl⟩
    rw [constantEnd, reads_bind_of .literal (fun _ => .ending _) valueRead,
      reads_bind_of .separator (fun _ => Formed.drainTail.bind fun _ => .pure _) unseparated,
      reads_bind_of .drainTail (fun _ => .pure _) (reads_drainTail _), reads_pure]

/-! ## Types behind an optional word -/

/-- A dotted name is read as a type, if a name follows. -/
theorem reads_typeRef_dotted {segments : List String} {view : View} {more : List Char}
    (written : DottedAt segments view more)
    (named : { view with rest := more }.skip.rest.head?.any isIdentStart) :
    reads typeRef view = some (.scalar (dotted segments), { view with rest := more }.skip) := by
  refine (Grammar.agrees_type.iff (Grammar.noBracket_of_isIdentStart named)).mpr ⟨1, ?_⟩
  refine ⟨Grammar.scalarType, by simp [Grammar.typeForms], ?_⟩
  exact Grammar.Phrase.map_iff.mpr ⟨_, written.name, rfl⟩

section WordThenType

variable {Result : Type} {segments : List String} {view : View} {more : List Char}
  {table : List (String × Value)} {areWords : ∀ entry ∈ table, IsIdentifier entry.1.toList}
  {opening : Rule Value} {next : Option Value → TypeRef → Rule Result}

/-- Where the first segment of a dotted name is no word of a table, the name is the type. -/
theorem reads_wordThenType_dotted
    (opens : Grammar.Agrees opening (Grammar.Lexeme.words table areWords).phrase Grammar.anything)
    (formed : ∀ found type, Formed (next found type)) (written : DottedAt segments view more)
    (named : { view with rest := more }.skip.rest.head?.any isIdentStart)
    (apart : ∀ entry ∈ table, segments.head? ≠ some entry.1) :
    reads (attempt opening >>= fun found => typeRef >>= next found) view =
      reads (next none (.scalar (dotted segments))) { view with rest := more }.skip := by
  have missed : reads (attempt opening) view = some (none, view) := by
    rw [reads_attempt view opens.formed, (Grammar.reads_words_eq_none opens).mpr]
    exact fun entry member leads => apart entry member (written.leadingWord_iff.mp leads)
  rw [reads_bind_of opens.formed.attempt (fun found => Formed.typeRef.bind (formed found)) missed,
    reads_bind_of .typeRef (formed none) (reads_typeRef_dotted written named)]

/-- Where it is one, the word is taken and no type begins with the dot that is left. -/
theorem reads_wordThenType_eq_none
    (opens : Grammar.Agrees opening (Grammar.Lexeme.words table areWords).phrase Grammar.anything)
    (formed : ∀ found type, Formed (next found type)) (written : DottedAt segments view more)
    {entry : String × Value} (member : entry ∈ table) (first : segments.head? = some entry.1) :
    reads (attempt opening >>= fun found => typeRef >>= next found) view = none := by
  obtain ⟨rest, dot⟩ := written.dot first
  have taken : reads (attempt opening) view =
      some (some entry.2, { view with rest := '.' :: rest }) := by
    have here := opens.always.mpr (Grammar.Lexeme.words_phrase_iff.mpr
      ⟨entry.1, member, written.leadingWord_iff.mpr first, rfl⟩)
    have stays : View.skip { view with rest := '.' :: rest } =
        { view with rest := '.' :: rest } := View.skip_of_stops rfl
    rw [dot, stays] at here
    rw [reads_attempt view opens.formed, here]
  have missed : reads typeRef { view with rest := '.' :: rest } = none :=
    Grammar.missed_typeRef rfl
  rw [reads_bind_of opens.formed.attempt (fun found => Formed.typeRef.bind (formed found)) taken,
    reads_bind _ _ .typeRef (formed _), missed, Option.bind_none]

end WordThenType

/-- Behind its type, a field needs nothing but a name. -/
theorem exists_reads_fieldEnd {view : View} (named : view.rest.head?.any isIdentStart)
    (start : Option String × Option Int64) (qualifier : Option Qualifier) (type : TypeRef) :
    ∃ field after, reads (fieldEnd start qualifier type) view = some (field, after) ∧
      field.id = start.2 ∧ field.qualifier = qualifier ∧ field.type = type := by
  obtain ⟨name, middle, nameRead⟩ := exists_reads_name named
  obtain ⟨value, behind, valueRead⟩ := exists_reads_attempt
    ((Formed.mark '=').bind fun _ => Formed.literal) middle
  obtain ⟨tail, after, read⟩ := exists_reads_ending (fun tail =>
    ({ id := start.2, qualifier, type, name, defaultValue := value,
       comments := { head := start.1, tail } } : Field)) behind
  refine ⟨{ id := start.2, qualifier, type, name, defaultValue := value,
            comments := { head := start.1, tail } }, after, ?_, rfl, rfl, rfl⟩
  rw [fieldEnd, reads_bind_of .name (fun _ => Formed.assignment.bind fun _ => .ending _) nameRead,
    reads_bind_of .assignment (fun _ => .ending _) valueRead, read]

/-- Behind its type, a function needs nothing but a name and a list of arguments. -/
theorem exists_reads_functionEnd {duplicates : DuplicateIds} {view : View}
    (followed : (reads (name >>= fun _ => fieldList duplicates) view).isSome)
    (head : Option String) (oneway : Option Unit) (returns : TypeRef) :
    ∃ function after, reads (functionEnd duplicates head oneway returns) view =
      some (function, after) ∧ function.oneway = oneway.isSome ∧ function.returns = returns := by
  obtain ⟨name, between, arguments, middle, nameRead, argumentsRead⟩ :=
    exists_reads_of_bind .name (fun _ => .fieldList duplicates) followed
  obtain ⟨throws, behind, throwsRead⟩ := exists_reads_attempt (.throwsClause duplicates) middle
  obtain ⟨tail, after, read⟩ := exists_reads_ending (fun tail =>
    ({ oneway := oneway.isSome, returns, name, arguments, throws := throws.getD [],
       comments := { head, tail } } : Function)) behind
  refine ⟨{ oneway := oneway.isSome, returns, name, arguments, throws := throws.getD [],
            comments := { head, tail } }, after, ?_, rfl, rfl⟩
  rw [functionEnd, reads_bind_of .name (fun _ => (Formed.fieldList duplicates).bind fun _ =>
      (Formed.throwsClause duplicates).attempt.bind fun _ => .ending _) nameRead,
    reads_bind_of (.fieldList duplicates) (fun _ =>
      (Formed.throwsClause duplicates).attempt.bind fun _ => .ending _) argumentsRead,
    reads_bind_of (Formed.throwsClause duplicates).attempt (fun _ => .ending _) throwsRead, read]

/-! ## Dotted names in their places -/

/-- **Where dotted names are read whole.** A word matches at a dotted name exactly if it is the
first segment. So a dotted name in the place of a constant's value is read as a reference unless it
begins with a truth value, which is then the value, with the dot left behind it. In the place of a
field's type or of a function's answer it is read as a type, and no word before it, unless it begins
with a qualifier or with `oneway`; then there is no field and no function. -/
theorem reads_dotted_name (duplicates : DuplicateIds) {segments : List String} {view : View}
    {more : List Char} (written : DottedAt segments view more) :
    (∀ word : String, IsIdentifier word.toList →
      ((reads (keyword word) view).isSome ↔ segments.head? = some word)) ∧
    (∀ before head type name, reads constantStart before = some ((head, type, name), view) →
      (¬IsTruthValue segments → ∃ comments after, reads (declaration duplicates) before =
        some (.constant { type, name, value := .ref segments, comments }, after)) ∧
      (IsTruthValue segments → ∃ truth comments after, reads (declaration duplicates) before =
        some (.constant { type, name, value := .bool truth, comments }, after) ∧
          after.rest.head? = some '.')) ∧
    (∀ before start, reads fieldStart before = some (start, view) →
      { view with rest := more }.skip.rest.head?.any isIdentStart →
      (segments.head? ≠ some "required" ∧ segments.head? ≠ some "optional" →
        ∃ found after, reads field before = some (found, after) ∧ found.id = start.2 ∧
          found.qualifier = none ∧ found.type = .scalar (dotted segments)) ∧
      (segments.head? = some "required" ∨ segments.head? = some "optional" →
        reads field before = none)) ∧
    ((reads (name >>= fun _ => fieldList duplicates)
        { view with rest := more, head := [] }.skip).isSome →
      (segments.head? ≠ some "oneway" →
        ∃ found after, reads (function duplicates) view = some (found, after) ∧
          found.oneway = false ∧ found.returns = .scalar (dotted segments)) ∧
      (segments.head? = some "oneway" → reads (function duplicates) view = none)) := by
  refine ⟨fun word isWord => ?word, fun before head type name start => ?constant,
    fun before start started named => ?field, fun followed => ?function⟩
  case word =>
    rw [reads_keyword_dotted written isWord]
    split <;> simp_all
  case constant =>
    obtain ⟨refers, isTruth⟩ := reads_constantEnd_dotted written (head, type, name)
    have whole : reads constantForm before = reads (constantEnd (head, type, name)) view := by
      rw [constantForm_eq, reads_bind_of .constantStart .constantEnd start]
    refine ⟨fun apart => ?_, fun begins => ?_⟩
    · obtain ⟨comments, after, read⟩ := refers apart
      exact ⟨comments, after, (reads_declaration_iff _).mpr (whole.trans read)⟩
    · obtain ⟨truth, comments, after, read, dot⟩ := isTruth begins
      exact ⟨truth, comments, after, (reads_declaration_iff _).mpr (whole.trans read), dot⟩
  case field =>
    have whole : reads field before = reads (attempt qualifier >>= fun qualifier =>
        typeRef >>= fieldEnd start qualifier) view := by
      rw [field_eq, reads_bind_of .fieldStart (fun start => Formed.qualifier.attempt.bind
        fun qualifier => Formed.typeRef.bind (.fieldEnd start qualifier)) started]
    refine ⟨fun apart => ?_, fun begins => ?_⟩
    · have read := reads_wordThenType_dotted Grammar.agrees_qualifier (.fieldEnd start) written
        named (by simpa [Grammar.qualifiers] using apart)
      obtain ⟨found, after, rest, id, unqualified, type⟩ :=
        exists_reads_fieldEnd named start none (.scalar (dotted segments))
      exact ⟨found, after, whole.trans (read.trans rest), id, unqualified, type⟩
    -- A qualifier takes the first segment, and no type begins with the dot behind it.
    · obtain ⟨entry, member, first⟩ :
          ∃ entry ∈ Grammar.qualifiers, segments.head? = some entry.1 := by
        simpa [Grammar.qualifiers] using begins
      exact whole.trans (reads_wordThenType_eq_none Grammar.agrees_qualifier (.fieldEnd start)
        written member first)
  case function =>
    -- Taking the comments before the function leaves the dotted name where it is.
    let drained : View := { view with head := [] }
    have written' : DottedAt segments drained more := { written with }
    have whole : reads (function duplicates) view = reads (attempt (keyword "oneway") >>=
        fun oneway => typeRef >>= functionEnd duplicates (Comment.Queue.together view.head) oneway)
        drained := by
      rw [function_eq, reads_bind_of .drainHead (fun head => (Formed.keyword _).attempt.bind
        fun oneway => Formed.typeRef.bind (.functionEnd duplicates head oneway))
        (reads_drainHead view)]
    obtain ⟨name, middle, _, _, nameRead, -⟩ :=
      exists_reads_of_bind .name (fun _ => .fieldList duplicates) followed
    have named := Grammar.starts_name (Grammar.agrees_name.always.mp nameRead)
    refine ⟨fun apart => ?_, fun first => ?_⟩
    · have read := reads_wordThenType_dotted Grammar.agrees_oneway
        (.functionEnd duplicates (Comment.Queue.together view.head)) written' named
        (by simpa [Grammar.onewayWords] using apart)
      obtain ⟨found, after, rest, waits, returns⟩ :=
        exists_reads_functionEnd followed (Comment.Queue.together view.head) none
          (.scalar (dotted segments))
      exact ⟨found, after, whole.trans (read.trans rest), waits, returns⟩
    · exact whole.trans (reads_wordThenType_eq_none Grammar.agrees_oneway
        (.functionEnd duplicates _) written' (List.mem_singleton_self _) first)

/-- A dotted type of a field that begins with no qualifier. -/
theorem reads_dotted_name_shared :
    ∃ found after, reads field (.ofText "1: shared.Kind kind".toList) = some (found, after) ∧
      found.id = some 1 ∧ found.qualifier = none ∧ found.type = .scalar "shared.Kind" := by
  have written : DottedAt ["shared", "Kind"] (.ofText "shared.Kind kind".toList) " kind".toList :=
    ⟨by decide, by decide, by decide, rfl⟩
  have start : reads fieldStart (.ofText "1: shared.Kind kind".toList) =
      some ((none, some 1), .ofText "shared.Kind kind".toList) := by decide +kernel
  exact ((reads_dotted_name .reject written).2.2.1 _ _ start (by decide +kernel)).1 (by decide)

/-- Three texts in which a dotted name begins with a word that may stand in its place. -/
theorem dotted_name_split :
    (∀ document, Document.parse "const bool a = true.x" ≠ .ok document) ∧
    (∀ document, Document.parse "struct S { 1: required.T x }" ≠ .ok document) ∧
    ∀ document, Document.parse "service S { oneway.T f() }" ≠ .ok document := by
  have unread (source : String) (fails : (Document.parse source).isOk = false) :
      ∀ document, Document.parse source ≠ .ok document := by
    intro document parsed
    rw [parsed] at fails
    cases fails
  exact ⟨unread _ (by decide +kernel), unread _ (by decide +kernel), unread _ (by decide +kernel)⟩

end Parser
end ThriftIdl
