import ThriftIdl.Proofs.Layout.Token

/-!
# Types and literals wherever they are laid out

The tokens that are written for a type or for a literal yield it, however deeply it is nested:
`Yields.type` and `yields_literal`.
-/

namespace ThriftIdl

open ThriftIdl.Source (Stops)
open ThriftIdl.Parser (isSeparator isIdentStart)
open ThriftIdl.Grammar (Phrase)
open ThriftIdl.Grammar.Phrase (Starts)

namespace Layout

/-! ## Types -/

private theorem starts_type_plain : Grammar.type.Starts (Stops isSeparator) :=
  Grammar.starts_type.mono fun _ => Grammar.stops_isSeparator_of_head rfl rfl

section Types

variable {item key value : TypeRef} {inner first separator second : List Token}

private theorem Yields.typeForm {phrase : Phrase TypeRef} {type : TypeRef} {tokens : List Token}
    (member : phrase ∈ Grammar.typeForms Grammar.type)
    (yields : Takes phrase type anywhere tokens) : Takes Grammar.type type anywhere tokens :=
  (oneOf member yields).imp Grammar.type_of_typeForms

/-- Lists and sets. -/
theorem Yields.sequenceType {word : String} {container : TypeRef → TypeRef}
    (member : (word, container) ∈ [("list", TypeRef.list), ("set", TypeRef.set)])
    (yields : Takes Grammar.type item anywhere inner) :
    Takes Grammar.type (container item) anywhere
      (word.toList :: ['<'] :: (inner ++ [['>']])) := by
  have opening : Takes Grammar.sequenceKeyword container anywhere [word.toList] :=
    words (word, container) member
  have form : Takes (Grammar.sequenceType Grammar.type) (container item) anywhere
      ([word.toList] ++ ([['<']] ++ (inner ++ ([['>']] ++ [])))) :=
    opening.bind <| (mark rfl).bind <| yields.bind <| (mark rfl).bind <| .pure rfl
  exact typeForm (by simp [Grammar.typeForms]) form

private theorem Yields.mapType (isSeparator : IsSeparator separator)
    (keys : Takes Grammar.type key anywhere first)
    (values : Takes Grammar.type value anywhere second) :
    Takes Grammar.type (.map key value) anywhere
      ("map".toList :: ['<'] :: (first ++ (separator ++ (second ++ [['>']])))) := by
  have ending : Takes (do
      let value ← Grammar.type
      Grammar.mark '>' rfl
      return TypeRef.map key value) (.map key value) anywhere (second ++ ([['>']] ++ [])) :=
    values.bind <| (mark rfl).bind <| .pure rfl
  have form : Takes (Grammar.mapType Grammar.type) (.map key value) anywhere
      (["map".toList] ++ ([['<']] ++ (first ++ (separator ++ (second ++ ([['>']] ++ [])))))) :=
    (keyword _).bind <| (mark rfl).bind <| keys.bind <|
      bindSeparator isSeparator ending fun _ areTokens met =>
        ending.plain (Starts.bind starts_type_plain) areTokens met
  exact typeForm (by simp [Grammar.typeForms]) form

end Types

/-- **Types** are yielded by their tokens. -/
theorem Yields.type {type : TypeRef} (wellFormed : IsWellFormedType type) {tokens : List Token}
    (writes : WritesType type tokens) : Takes Grammar.type type anywhere tokens := by
  induction type generalizing tokens with
  | scalar name =>
      obtain rfl := writes
      have form : Takes Grammar.scalarType (.scalar name) anywhere [name.toList] :=
        map (Yields.name wellFormed)
      exact typeForm (by simp [Grammar.typeForms]) form
  | list item ih =>
      obtain ⟨inner, writes, rfl⟩ := writes
      exact sequenceType (.head _) (ih wellFormed writes)
  | set item ih =>
      obtain ⟨inner, writes, rfl⟩ := writes
      exact sequenceType (.tail _ (.head _)) (ih wellFormed writes)
  | map key value ihKey ihValue =>
      obtain ⟨first, separator, second, writesKey, isSeparator, writesValue, rfl⟩ := writes
      exact mapType isSeparator (ihKey wellFormed.1 writesKey) (ihValue wellFormed.2 writesValue)

/-! ## Literals -/

private theorem stops_of_startsLiteral {text : List Char} (starts : Grammar.StartsLiteral text) :
    Stops isSeparator text := by
  refine Grammar.stops_isSeparator (fun same => ?_) fun same => ?_ <;>
    · obtain ⟨rest, rfl⟩ := List.head?_eq_some_iff.mp same
      exact starts rfl

private theorem starts_literal_plain : Grammar.literal.Starts (Stops isSeparator) :=
  Grammar.starts_literal.mono fun _ => stops_of_startsLiteral

section Literals

variable {key value : Literal} {items : List Literal} {entries : List (Literal × Literal)}
  {inner front middle separator : List Token}

private theorem Yields.literalForm {phrase : Phrase Literal} {literal : Literal}
    {tokens : List Token}
    (member : phrase ∈ Grammar.literalForms Grammar.literal)
    (yields : Takes phrase literal anywhere tokens) :
    Takes Grammar.literal literal anywhere tokens :=
  (oneOf member yields).imp Grammar.literal_of_literalForms

private theorem Yields.boolLiteral (value : Bool) : Takes Grammar.boolLiteral (.bool value) anywhere
    [(if value then "true" else "false").toList] := by
  cases value with
  | true => exact words ("true", Literal.bool true) (.head _)
  | false => exact words ("false", Literal.bool false) (.tail _ (.head _))

private theorem Yields.refLiteral {segments : List String} (arePath : ArePath segments)
    (noTruth : ¬Grammar.IsTruthValue segments) :
    Takes Grammar.refLiteral (.ref segments) anywhere [(Parser.dotted segments).toList] :=
  map ((Yields.path arePath).only fun _ same => same ▸ noTruth)

private theorem Yields.listLiteral
    (yields : Yields (Phrase.Repeated (Grammar.listItem Grammar.literal)) (· = items)
      (quietly items) Plain inner) :
    Takes (Grammar.listLiteral Grammar.literal) (.list items) anywhere
      (['['] :: (inner ++ [[']']])) := by
  have ending : Takes (do
      Grammar.close ']' rfl
      return Literal.list items) (.list items) anywhere [[']']] :=
    (close rfl).bind <| .pure rfl
  exact (mark rfl).bind <| yields.bindKnown ending (fun _ _ _ => plain_cons rfl _ _) (by simp)

private theorem Yields.mapLiteral
    (yields : Yields (Phrase.Repeated (Grammar.mapEntry Grammar.literal)) (· = entries)
      (quietly entries) Plain inner) :
    Takes (Grammar.mapLiteral Grammar.literal) (.map entries) anywhere
      (['\x7b'] :: (inner ++ [['\x7d']])) := by
  have ending : Takes (do
      Grammar.close '\x7d' rfl
      return Literal.map entries) (.map entries) anywhere [['\x7d']] :=
    (close rfl).bind <| .pure rfl
  exact (mark rfl).bind <| yields.bindKnown ending (fun _ _ _ => plain_cons rfl _ _) (by simp)

private theorem Yields.listItem (isSeparator : IsSeparator separator)
    (yields : Takes Grammar.literal value anywhere front) :
    Takes (Grammar.listItem Grammar.literal) value Plain (front ++ separator) :=
  yields.bind <| separatorLast isSeparator (.pure rfl)

private theorem Yields.mapEntry (isSeparator : IsSeparator separator)
    (keys : Takes Grammar.literal key anywhere front)
    (values : Takes Grammar.literal value anywhere middle) :
    Takes (Grammar.mapEntry Grammar.literal) (key, value) Plain
      (front ++ ([':'] :: (middle ++ separator))) :=
  keys.bind <| (mark rfl).bind <| values.bind <| separatorLast isSeparator (.pure rfl)

end Literals

mutual

/-- **Literals** are yielded by their tokens. -/
theorem yields_literal : ∀ literal : Literal, IsWellFormedLiteral literal → ∀ tokens,
    WritesLiteral literal tokens → Takes Grammar.literal literal anywhere tokens
  | .int _, _, _, ⟨_, writes, rfl⟩ =>
    .literalForm (.tail _ (.tail _ (.head _))) (.decimal writes)
  | .hex _, inRange, _, ⟨_, writes, rfl⟩ =>
    .literalForm (.head _) (.map (.hex writes inRange))
  | .bool value, _, _, rfl =>
    .literalForm (.tail _ (.tail _ (.tail _ (.head _)))) (.boolLiteral value)
  | .str _, _, _, ⟨_, writes, rfl⟩ =>
    .literalForm (.tail _ (.tail _ (.tail _ (.tail _ (.head _))))) (.string writes)
  | .list items, wellFormed, _, ⟨_, writes, rfl⟩ =>
    .literalForm (by simp [Grammar.literalForms])
      (.listLiteral (yields_items items wellFormed _ writes))
  | .map entries, wellFormed, _, ⟨_, writes, rfl⟩ =>
    .literalForm (by simp [Grammar.literalForms])
      (.mapLiteral (yields_entries entries wellFormed _ writes))
  | .ref _, ⟨arePath, noTrue, noFalse⟩, _, rfl =>
    .literalForm (by simp [Grammar.literalForms]) (.refLiteral arePath (by
      rintro (isTrue | isFalse)
      · exact noTrue isTrue
      · exact noFalse isFalse))

/-- The items of a list are yielded by their tokens. -/
theorem yields_items : ∀ items : List Literal, AreWellFormedItems items → ∀ tokens,
    WritesItems items tokens →
      Yields (Phrase.Repeated (Grammar.listItem Grammar.literal)) (· = items) (quietly items) Plain
        tokens
  | [], _, _, rfl => .quiet (.repeatedNil rfl)
  | item :: rest, ⟨here, there⟩, _, ⟨front, _, back, writes, isSeparator, writesRest, rfl⟩ =>
    .repeatedCons (Starts.bind starts_literal_plain)
      (.quiet <| .listItem isSeparator (yields_literal item here front writes))
      (yields_items rest there back writesRest) fun _ _ first others => first ▸ others ▸ rfl

/-- The entries of a map are yielded by their tokens. -/
theorem yields_entries : ∀ entries : List (Literal × Literal), AreWellFormedEntries entries →
    ∀ tokens, WritesEntries entries tokens →
      Yields (Phrase.Repeated (Grammar.mapEntry Grammar.literal)) (· = entries) (quietly entries)
        Plain tokens
  | [], _, _, rfl => .quiet (.repeatedNil rfl)
  | (key, value) :: rest, ⟨isKey, isValue, there⟩, _,
      ⟨front, middle, _, back, writesKey, writesValue, isSeparator, writesRest, rfl⟩ =>
    .repeatedCons (Starts.bind starts_literal_plain)
      (.quiet <| .mapEntry isSeparator (yields_literal key isKey front writesKey)
        (yields_literal value isValue middle writesValue))
      (yields_entries rest there back writesRest) fun _ _ first others => first ▸ others ▸ rfl

end

end Layout
end ThriftIdl
