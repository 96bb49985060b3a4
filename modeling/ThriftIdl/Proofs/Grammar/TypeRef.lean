import ThriftIdl.Proofs.Grammar.Lexeme

/-!
# The grammar of types

A type phrase is a map, a list or set, or a name. The keyword of a container is also a name, so a
type that is read to its end must not be followed by an opening bracket; with that condition the
rule for types reads exactly the type phrases (`agrees_type`), however deeply they are nested.
-/

namespace ThriftIdl

open Source (Stops opensGap)
open ThriftIdl.Parser (View Rule Formed reads isIdentStart isIdentChar isSeparator)

namespace Grammar

open Phrase

variable {Value : Type}

/-- A map type. -/
def mapType (inner : Phrase TypeRef) : Phrase TypeRef := do
  keyword "map" (by decide)
  mark '<' rfl
  let key ← inner
  separator
  let value ← inner
  mark '>' rfl
  return .map key value

/-- The containers with one parameter have words for names. -/
theorem areWords_sequence : ∀ entry ∈ [("list", TypeRef.list), ("set", TypeRef.set)],
    IsIdentifier entry.1.toList := by
  simp only [List.forall_mem_cons, List.not_mem_nil, false_implies, implies_true, and_true]
  decide

/-- The keyword of a list type or of a set type. -/
def sequenceKeyword : Phrase (TypeRef → TypeRef) :=
  (Lexeme.words [("list", TypeRef.list), ("set", TypeRef.set)] areWords_sequence).phrase

/-- A list type or a set type. -/
def sequenceType (inner : Phrase TypeRef) : Phrase TypeRef := do
  let container ← sequenceKeyword
  mark '<' rfl
  let item ← inner
  mark '>' rfl
  return container item

/-- A type by its name. -/
def scalarType : Phrase TypeRef :=
  TypeRef.scalar <$> name

/-- The forms of a type, given the phrases inside containers. -/
def typeForms (inner : Phrase TypeRef) : List (Phrase TypeRef) :=
  [mapType inner, sequenceType inner, scalarType]

/-- Whatever holds of the forms of a type, one by one, holds of all of them. -/
theorem forall_typeForms {motive : Phrase TypeRef → Prop} {inner : Phrase TypeRef}
    (map : motive (mapType inner)) (sequence : motive (sequenceType inner))
    (scalar : motive scalarType) : ∀ form ∈ typeForms inner, motive form := by
  simp only [typeForms, List.forall_mem_cons, List.not_mem_nil, false_implies, implies_true,
    and_true]
  exact ⟨map, sequence, scalar⟩

/-- A type that is nested less deeply than a bound. -/
def typeWithin : Nat → Phrase TypeRef
  | 0 => fun _ _ _ => False
  | depth + 1 => oneOf (typeForms (typeWithin depth))

/-- A type. -/
def type : Phrase TypeRef :=
  fun before value after => ∃ depth, typeWithin depth before value after

/-- What stands after a type: no opening bracket. -/
def NoBracket (text : List Char) : Prop :=
  Stops (· == '<') text

/-- Where a word begins there is no bracket. -/
theorem noBracket_of_isIdentStart {text : List Char} (begins : text.head?.any isIdentStart) :
    NoBracket text := by
  cases text with
  | nil => rfl
  | cons char others =>
      rw [List.head?_cons, Option.any_some] at begins
      refine Source.stops_cons.mpr (beq_eq_false_iff_ne.mpr ?_)
      rintro rfl
      cases begins

private theorem noBracket_of_closing {text : List Char} (closes : text.head? = some '>') :
    NoBracket text := by
  unfold NoBracket Stops
  rw [closes]
  rfl

private theorem noBracket_of_isSeparator {char : Char} {rest : List Char}
    (separates : isSeparator char) :
    NoBracket (char :: rest) := by
  refine Source.stops_cons.mpr (beq_eq_false_iff_ne.mpr ?_)
  rintro rfl
  cases separates

private theorem starts_typeForms (inner : Phrase TypeRef) :
    ∀ phrase ∈ typeForms inner, phrase.Starts fun text => text.head?.any isIdentStart :=
  forall_typeForms (Starts.bind Lexeme.starts_words) (Starts.bind Lexeme.starts_words)
    (Starts.map starts_name)

private theorem starts_typeWithin (depth : Nat) :
    (typeWithin depth).Starts fun text => text.head?.any isIdentStart := by
  cases depth with
  | zero => exact fun _ _ _ here => here.elim
  | succ depth => exact Starts.oneOf (starts_typeForms _)

/-- A type begins as identifiers do. -/
theorem starts_type : type.Starts fun text => text.head?.any isIdentStart :=
  fun _ _ _ here => starts_typeWithin here.choose here.choose_spec

private theorem advances_typeForms {inner : Phrase TypeRef} (narrows : inner.Narrows) :
    ∀ phrase ∈ typeForms inner, phrase.Advances := by
  refine forall_typeForms ?map ?sequence (Lexeme.advances_phrase _).map
  case map =>
    exact (Lexeme.advances_phrase _).bind fun _ => (Lexeme.narrows_phrase _).bind fun _ =>
      narrows.bind fun _ => narrows_separator.bind fun _ => narrows.bind fun _ =>
        (Lexeme.narrows_phrase _).bind fun _ => .pure _
  case sequence =>
    exact (Lexeme.advances_phrase _).bind fun _ => (Lexeme.narrows_phrase _).bind fun _ =>
      narrows.bind fun _ => (Lexeme.narrows_phrase _).bind fun _ => .pure _

private theorem advances_typeWithin (depth : Nat) : (typeWithin depth).Advances := by
  induction depth with
  | zero => exact fun _ _ _ here => here.elim
  | succ depth ih => exact Advances.oneOf (advances_typeForms ih.narrows)

/-- A type uses up its first word. -/
theorem advances_type : type.Advances :=
  fun _ _ _ here => advances_typeWithin here.choose here.choose_spec

/-- Containers take a character, so what is inside them may be compared on shorter texts. -/
theorem typeForms_entails {bound : Nat} {inner other : Phrase TypeRef}
    (entails : EntailsBelow bound inner other) (narrows : inner.Narrows) :
    EntailsBelow (bound + 1) (oneOf (typeForms inner)) (oneOf (typeForms other)) := by
  rintro before value after shorter ⟨form, member, here⟩
  simp only [typeForms, List.mem_cons, List.not_mem_nil, or_false] at member
  rcases member with rfl | rfl | rfl
  · refine ⟨mapType other, by simp [typeForms], ?_⟩
    refine EntailsBelow.step (Lexeme.advances_phrase _) (fun _ => ?_) shorter here
    exact (EntailsBelow.refl _).bind (Lexeme.narrows_phrase _) fun _ =>
      entails.bind narrows fun _ => (EntailsBelow.refl _).bind narrows_separator fun _ =>
        entails.bind narrows fun _ => .refl _
  · refine ⟨sequenceType other, by simp [typeForms], ?_⟩
    refine EntailsBelow.step (Lexeme.advances_phrase _) (fun _ => ?_) shorter here
    exact (EntailsBelow.refl _).bind (Lexeme.narrows_phrase _) fun _ =>
      entails.bind narrows fun _ => .refl _
  · exact ⟨scalarType, by simp [typeForms], here⟩

/-- Every level of nesting takes a character, so the length of a text bounds the nesting. -/
theorem typeWithin_entails (depth bound : Nat) :
    EntailsBelow (bound + 1) (typeWithin depth) (typeWithin bound) := by
  induction depth generalizing bound with
  | zero => exact fun _ _ _ _ here => here.elim
  | succ depth ih =>
      cases bound with
      | zero =>
          intro before value after shorter here
          have below := advances_typeWithin _ here
          omega
      | succ bound => exact typeForms_entails (ih bound) (advances_typeWithin depth).narrows

/-- The forms of a type, with types inside containers, are types. -/
theorem type_of_typeForms {before after : View} {value : TypeRef}
    (here : oneOf (typeForms type) before value after) : type before value after := by
  have entails : EntailsBelow (before.rest.length + 1) type (typeWithin before.rest.length) :=
    fun _ _ _ shorter here => typeWithin_entails _ _ shorter here.choose_spec
  exact ⟨before.rest.length + 1, typeForms_entails entails advances_type.narrows (by omega) here⟩

/-! ## Agreement with the rules -/

section Forms

variable {rule : Rule TypeRef} {inner : Phrase TypeRef}

private theorem agrees_mapType (agrees : Agrees rule inner fun _ after => NoBracket after.rest)
    (starts : inner.Starts fun text => text.head?.any isIdentStart) :
    Agrees (Parser.mapType rule) (mapType inner) anything := by
  refine (agrees_keyword _).bind fun _ => (agrees_mark _).bind fun _ =>
    agrees.bindFollow (fun key => agrees_separator.bind fun _ =>
      agrees.bindFollow (fun value => (agrees_mark _).bind fun _ => .pure _) ?_) ?_
  · intro value before found after there _
    exact noBracket_of_closing ((Starts.bind starts_mark) there)
  · intro key before found after there _
    refine starts_separator (fun _ _ => noBracket_of_isSeparator) ?_ there
    exact Starts.bind (starts.mono fun _ => noBracket_of_isIdentStart)

private theorem agrees_sequenceType
    (agrees : Agrees rule inner fun _ after => NoBracket after.rest) :
    Agrees (Parser.sequenceType rule) (sequenceType inner) anything := by
  refine (agrees_words (by decide) _).bind fun container => (agrees_mark _).bind fun _ =>
    agrees.bindFollow (fun item => (agrees_mark _).bind fun _ => .pure _) ?_
  intro item before found after there _
  exact noBracket_of_closing ((Starts.bind starts_mark) there)

private theorem agrees_scalarType : Agrees Parser.scalarType scalarType anything :=
  agrees_name.map _

/-- The rule of a container misses a name, even the name that its keyword is: no opening bracket
follows. -/
theorem missed_of_scalarType {table : List (String × Value)}
    {areWords : ∀ entry ∈ table, IsIdentifier entry.1.toList} {opening : Rule Value}
    {next : Value → Unit → Rule TypeRef} {before after : View} {found : TypeRef}
    (opens : Agrees opening (Lexeme.words table areWords).phrase anything)
    (formed : ∀ value opened, Formed (next value opened))
    (scalar : scalarType before found after) (ended : NoBracket after.rest) :
    reads (opening >>= fun value => Parser.mark '<' >>= next value) before = none := by
  obtain ⟨value, named, rfl⟩ := map_iff.mp scalar
  refine opens.missed_bind (fun value => (Formed.mark '<').bind (formed value)) ?_
  intro container past here
  obtain ⟨word, -, leads, same⟩ := Lexeme.words_phrase_iff.mp here
  refine (agrees_mark rfl).missed_bind (formed container) fun _ later bracket => ?_
  have bracket := starts_mark bracket
  rw [← leads] at same
  rcases past_leadingWord_of_name named same with rfl | dot
  · unfold NoBracket Stops at ended
    rw [bracket] at ended
    cases ended
  · rw [bracket] at dot
    cases dot

private theorem missed_mapType {before after : View} {found : TypeRef} (formed : Formed rule)
    (other : oneOf [sequenceType inner, scalarType] before found after)
    (ended : NoBracket after.rest) : reads (Parser.mapType rule) before = none := by
  have formedNext : ∀ _ : Unit, Formed (do
      let key ← rule
      Parser.separator
      let value ← rule
      Parser.mark '>'
      return TypeRef.map key value) :=
    fun _ => formed.bind fun _ => Formed.separator.bind fun _ => formed.bind fun _ =>
      (Formed.mark '>').bind fun _ => .pure _
  obtain ⟨phrase, member, here⟩ := other
  simp only [List.mem_cons, List.not_mem_nil, or_false] at member
  rcases member with rfl | rfl
  · obtain ⟨container, middle, opening, -⟩ := here
    obtain ⟨word, member, leads, -⟩ := Lexeme.words_phrase_iff.mp opening
    refine (agrees_keyword (by decide)).missed_bind
      (fun _ => (Formed.mark '<').bind formedNext) fun _ past keyed => ?_
    have leads' := (keyword_iff.mp keyed).1
    simp only [List.mem_cons, Prod.mk.injEq, List.not_mem_nil, or_false] at member
    rcases member with ⟨rfl, -⟩ | ⟨rfl, -⟩ <;> exact absurd (leads.symm.trans leads') (by decide)
  · exact missed_of_scalarType (agrees_keyword (by decide)) (fun _ => formedNext) here ended

private theorem missed_sequenceType {before after : View} {found : TypeRef} (formed : Formed rule)
    (other : oneOf [scalarType] before found after) (ended : NoBracket after.rest) :
    reads (Parser.sequenceType rule) before = none := by
  obtain ⟨phrase, member, here⟩ := other
  obtain rfl : phrase = scalarType := by simpa using member
  exact missed_of_scalarType (agrees_words (by decide) areWords_sequence)
    (fun _ _ => formed.bind fun _ => (Formed.mark '>').bind fun _ => .pure _) here ended

private theorem agrees_typeForms (agrees : Agrees rule inner fun _ after => NoBracket after.rest)
    (starts : inner.Starts fun text => text.head?.any isIdentStart) :
    Agrees (Parser.choice .type (Parser.typeForms rule)) (oneOf (typeForms inner))
      fun _ after => NoBracket after.rest := by
  have formed : ∀ form ∈ Parser.typeForms rule, Formed form := .typeForms agrees.formed
  refine ((agrees_mapType agrees starts).mono fun _ _ _ => trivial).choice_cons_apart
    (fun form member => formed form (List.mem_cons_of_mem _ member)) ?_
    fun there ended => missed_mapType agrees.formed there ended
  refine ((agrees_sequenceType agrees).mono fun _ _ _ => trivial).choice_cons_apart
    (fun form member => formed form (List.mem_cons_of_mem _ (List.mem_cons_of_mem _ member))) ?_
    fun there ended => missed_sequenceType agrees.formed there ended
  refine (agrees_scalarType.mono fun _ _ _ => trivial).choice_cons_apart
    (fun form member => by simp at member) (.choice_nil _) ?_
  rintro before found after ⟨phrase, member, -⟩ -
  simp at member

end Forms

private theorem agrees_typeWithin (depth : Nat) :
    Agrees (Parser.typeWithin depth) (typeWithin depth) fun _ after => NoBracket after.rest := by
  induction depth with
  | zero =>
      refine ⟨.typeWithin 0, fun {before found after} _ => ?_⟩
      rw [Parser.typeWithin, Parser.reads_expected]
      constructor
      · intro read
        cases read
      · exact False.elim
  | succ depth ih => exact agrees_typeForms ih (starts_typeWithin depth)

/-- **Types.** The rule for types reads exactly the type phrases that no opening bracket follows. -/
theorem agrees_type : Agrees Parser.typeRef type fun _ after => NoBracket after.rest := by
  refine ⟨.typeRef, fun {before value after} ended => ?_⟩
  have looked : Parser.typeRef =
      Parser.look fun text => Parser.typeWithin (text.length + 1) := rfl
  rw [looked, Parser.reads_look, (agrees_typeWithin _).iff ended]
  constructor
  · exact fun here => ⟨_, here⟩
  · rintro ⟨depth, here⟩
    exact typeWithin_entails depth _ (by omega) here

/-- The rule for types misses where no name begins, whatever follows. -/
theorem missed_typeRef {view : View} (plain : Stops isIdentStart view.rest) :
    reads Parser.typeRef view = none := by
  have looked : Parser.typeRef =
      Parser.look fun text => Parser.typeWithin (text.length + 1) := rfl
  have inner := agrees_typeWithin view.rest.length
  have starts := starts_typeWithin view.rest.length
  have noName : ¬view.rest.head?.any isIdentStart := by simpa [Stops] using plain
  rw [looked, Parser.reads_look, Parser.typeWithin,
    Parser.reads_choice view _ (.typeForms inner.formed), List.findSome?_eq_none_iff]
  exact Parser.forall_typeForms
    ((agrees_mapType inner starts).missed (Starts.bind Lexeme.starts_words) noName)
    ((agrees_sequenceType inner).missed (Starts.bind Lexeme.starts_words) noName)
    (agrees_scalarType.missed (Starts.map starts_name) noName)

/-! ## Types after a word -/

/-- The first word of a type: of its name, or the keyword of its container. -/
def firstWord (type : TypeRef) : List Char :=
  leadingWord type.name.toList

/-- A type is a container, which begins with its keyword, or a name. -/
theorem type_cases {before after : View} {found : TypeRef} (here : type before found after) :
    (found.name ∈ ["map", "list", "set"] ∧ leadingWord before.rest = found.name.toList) ∨
      ∃ value, name before value after ∧ found = .scalar value := by
  obtain ⟨depth, here⟩ := here
  cases depth with
  | zero => exact here.elim
  | succ depth =>
      obtain ⟨form, member, here⟩ := here
      simp only [typeForms, List.mem_cons, List.not_mem_nil, or_false] at member
      rcases member with rfl | rfl | rfl
      · obtain ⟨_, _, keyed, _, _, -, key, _, -, _, _, -, value, _, -, _, _, -, rfl, -⟩ := here
        exact .inl ⟨List.mem_cons_self, (keyword_iff.mp keyed).1⟩
      · obtain ⟨_, _, keyed, _, _, -, item, _, -, _, _, -, rfl, -⟩ := here
        rcases Lexeme.pair_phrase_iff.mp keyed with ⟨leads, rfl, -⟩ | ⟨leads, rfl, -⟩
        · exact .inl ⟨by simp [TypeRef.name], leads⟩
        · exact .inl ⟨by simp [TypeRef.name], leads⟩
      · obtain ⟨value, named, rfl⟩ := map_iff.mp here
        exact .inr ⟨value, named, rfl⟩

/-- A type begins with its first word. -/
theorem leadingWord_of_type {before after : View} {found : TypeRef}
    (here : type before found after) : leadingWord before.rest = firstWord found := by
  rcases type_cases here with ⟨keyword, leads⟩ | ⟨value, named, rfl⟩
  · have areWords : ∀ word ∈ ["map", "list", "set"], IsIdentifier word.toList := by decide
    exact leads.trans (leadingWord_of_isIdentifier (areWords _ keyword)).symm
  · exact leadingWord_of_name named

/-- A type that does not begin with a word of a table, unless such a word stands before it. -/
def typeAfter (table : List (String × Value)) (found : Option Value) : Phrase TypeRef :=
  type.only fun type => found = none → ∀ entry ∈ table, firstWord type ≠ entry.1.toList

/-- An optional word and then a type. A type that begins with such a word can only be read when the
word comes twice: the first time it is taken for itself. -/
theorem agrees_wordThenType {Result : Type} {table : List (String × Value)}
    {areWords : ∀ entry ∈ table, IsIdentifier entry.1.toList} {opening : Rule Value}
    {next : Option Value → TypeRef → Rule Result} {later : Option Value → TypeRef → Phrase Result}
    {follow : Result → View → Prop}
    (opens : Agrees opening (Lexeme.words table areWords).phrase anything)
    (rest : ∀ found type, Agrees (next found type) (later found type) follow)
    (meets : ∀ {found type before value after}, later found type before value after →
      follow value after → NoBracket before.rest) :
    Agrees (Parser.attempt opening >>= fun found => Parser.typeRef >>= next found)
      ((Lexeme.words table areWords).phrase.optional >>= fun found =>
        typeAfter table found >>= later found) follow := by
  have whole (found : Option Value) : Agrees (Parser.typeRef >>= next found)
      (type >>= later found) follow :=
    agrees_type.bindFollow (rest found) fun there met => meets there met
  refine opens.bindOptional (fun value => ?_) (fun _ _ => trivial) (whole none).formed ?_
  · refine ⟨(whole (some value)).formed, fun {before found after} met => ?_⟩
    rw [(whole (some value)).iff met]
    constructor
    · rintro ⟨type, middle, here, there⟩
      exact ⟨type, middle, ⟨here, fun absent => by cases absent⟩, there⟩
    · rintro ⟨type, middle, ⟨here, -⟩, there⟩
      exact ⟨type, middle, here, there⟩
  · intro before found after met
    rw [(whole none).iff met, reads_words_eq_none opens]
    constructor
    · rintro ⟨apart, type, middle, here, there⟩
      refine ⟨type, middle, ⟨here, fun _ entry member => ?_⟩, there⟩
      rw [← leadingWord_of_type here]
      exact apart entry member
    · rintro ⟨type, middle, ⟨here, apart⟩, there⟩
      refine ⟨fun entry member => ?_, type, middle, here, there⟩
      rw [leadingWord_of_type here]
      exact apart rfl entry member

end Grammar
end ThriftIdl
