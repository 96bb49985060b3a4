import ThriftIdl.Proofs.Document
import ThriftIdl.Proofs.Layout.Item

/-!
# Declarations wherever they are laid out

The tokens that are written for a declaration yield it, up to comments: `Yields.declaration`. Those
of a declaration without a block have its comments around them.
-/

namespace ThriftIdl

open ThriftIdl.Source (Stops)
open ThriftIdl.Parser (isSeparator)
open ThriftIdl.Grammar (Phrase IsIdentifier)

namespace Layout

variable {Value : Type} {duplicates : DuplicateIds} {form separator : List Token}

/-- The tokens of a block with a separator, from its keyword to the separator. -/
theorem block_append (keyword name : String) (clause inner separator : List Token) :
    block keyword name clause inner ++ separator = keyword.toList :: name.toList ::
      (clause ++ (['\x7b'] :: (inner ++ (['\x7d'] :: separator)))) := by
  simp [block]

namespace Attributes

open Yields (keyword mark ending)

/-- A namespace in its tokens is read as it is, with the comments around it. -/
theorem scopeForm {declared : Namespace} (wellFormed : IsWellFormed (.scope declared))
    (writes : WritesForm (.scope declared) form) (isSeparator : IsSeparator separator) :
    Attributes Grammar.namespaceForm
      (fun found => found.bare = (Declaration.scope declared).bare)
      (fun comments => .scope { declared with comments }) (form ++ separator) := by
  obtain ⟨scope, path, comments⟩ := declared
  obtain ⟨isScope, segments, arePath, rfl⟩ := wellFormed
  obtain rfl := writes
  exact .of fun _ => (keyword _).bind <| (Yields.scope isScope).bind <|
    (Yields.path arePath).bind <| ending isSeparator fun _ => rfl

/-- An include in its tokens is read as it is, with the comments around it. -/
theorem inclusionForm {declared : Include} (wellFormed : IsWellFormed (.inclusion declared))
    (writes : WritesForm (.inclusion declared) form) (isSeparator : IsSeparator separator) :
    Attributes Grammar.includeForm
      (fun found => found.bare = (Declaration.inclusion declared).bare)
      (fun comments => .inclusion { declared with comments }) (form ++ separator) := by
  obtain ⟨path, module, comments⟩ := declared
  obtain ⟨-, same⟩ := wellFormed
  obtain rfl : module = moduleName path := same
  obtain ⟨quote, quotes, absent, rfl⟩ := writes
  exact .of fun _ => (keyword _).bind <| (Yields.includePath quotes absent).bind <|
    ending isSeparator fun _ => rfl

/-- A type definition in its tokens is read as it is, with the comments around it. -/
theorem typedefForm {declared : Typedef} (wellFormed : IsWellFormed (.typedef declared))
    (writes : WritesForm (.typedef declared) form) (isSeparator : IsSeparator separator) :
    Attributes Grammar.typedefForm
      (fun found => found.bare = (Declaration.typedef declared).bare)
      (fun comments => .typedef { declared with comments }) (form ++ separator) := by
  obtain ⟨isName, wellFormedType⟩ := wellFormed
  obtain ⟨type, writesType, rfl⟩ := writes
  rw [List.cons_append, List.append_assoc]
  exact .of fun _ => (keyword _).bind <| (Yields.type wellFormedType writesType).bind <|
    (Yields.name isName).bind <| ending isSeparator fun _ => rfl

/-- A constant in its tokens is read as it is, with the comments around it. -/
theorem constantForm {declared : Constant} (wellFormed : IsWellFormed (.constant declared))
    (writes : WritesForm (.constant declared) form) (isSeparator : IsSeparator separator) :
    Attributes Grammar.constantForm
      (fun found => found.bare = (Declaration.constant declared).bare)
      (fun comments => .constant { declared with comments }) (form ++ separator) := by
  obtain ⟨isName, wellFormedType, wellFormedValue⟩ := wellFormed
  obtain ⟨type, value, writesType, writesValue, rfl⟩ := writes
  rw [List.cons_append, List.append_assoc]
  exact .of fun _ => (keyword _).bind <| (Yields.type wellFormedType writesType).bind <|
    (Yields.name isName).bind <| (mark rfl).bind <|
    (yields_literal declared.value wellFormedValue value writesValue).bind <|
    ending isSeparator fun _ => rfl

end Attributes

namespace Yields

/-- The keyword, the name and the opening brace of a block, with the comments behind them. -/
theorem blockHeader {word : String} (isWord : IsIdentifier word.toList) {name : String}
    (isName : IsName name) :
    Yields (Grammar.blockHeader word isWord) (fun found => found.1 = name)
      (tailed fun tail => (name, tail)) anywhere [word.toList, name.toList, ['\x7b']] :=
  (keyword isWord).bind <| (Yields.name isName).bind <| (mark rfl).bind <| tail fun _ => rfl

/-- What is in a block comes after its opening brace. -/
theorem afterHeader {word : String} {isWord : IsIdentifier word.toList} {name : String}
    (isName : IsName name) {body : String × Option String → Phrase Value} {good : Value → Prop}
    {rest : List Token} (yields : ∀ tail, Yields (body (name, tail)) good unknown Plain rest) :
    Yields (Grammar.blockHeader word isWord >>= body) good unknown Plain
      (word.toList :: name.toList :: ['\x7b'] :: rest) := by
  refine (blockHeader isWord isName).bindLoose (name, none) rfl ?_ fun _ _ _ => trivial
  rintro ⟨_, tail⟩ rfl
  exact yields tail

private theorem enumerationForm {declared : Enumeration}
    (wellFormed : IsWellFormed (.enumeration declared))
    (writes : WritesForm (.enumeration declared) form) (isSeparator : IsSeparator separator) :
    Yields Grammar.enumerationForm
      (fun found => found.bare = (Declaration.enumeration declared).bare) unknown Plain
      (form ++ separator) := by
  obtain ⟨isName, named⟩ := wellFormed
  obtain ⟨inner, writes, rfl⟩ := writes
  rw [block_append]
  refine bindSilent drainHead fun _ => afterHeader isName fun _ =>
    (yields_enumItems named writes).bindLoose _ (NumberAs.self _ _) (fun written known => ?_)
      fun _ _ _ => plain_cons rfl _ _
  obtain ⟨items, known, same⟩ := known
  refine (close rfl).bind <| separatorLast isSeparator <|
    (given (congrArg Except.toOption known)).bind <| forget <| tail fun _ => ?_
  rw [Declaration.bare, Declaration.bare, same]

private theorem recordForm {kind : RecordKind} {declared : Record}
    (wellFormed : IsWellFormed (.record kind declared))
    (writes : WritesForm (.record kind declared) form) (isSeparator : IsSeparator separator) :
    Yields (Grammar.recordForm duplicates kind)
      (fun found => found.bare = (Declaration.record kind declared).bare) unknown Plain
      (form ++ separator) := by
  obtain ⟨isName, wellFormedFields⟩ := wellFormed
  obtain ⟨inner, writes, rfl⟩ := writes
  rw [block_append]
  refine bindSilent drainHead fun _ => afterHeader isName fun _ =>
    (Yields.fields wellFormedFields.each writes).bindLoose declared.fields rfl
      (fun found same => ?_) fun _ _ _ => plain_cons rfl _ _
  exact (close rfl).bind <| (provided (idsAllowed wellFormedFields same)).bind <|
    forget <| ending isSeparator fun _ => by rw [Declaration.bare, Declaration.bare, same]

/-- The parent of a service is read from its tokens, or none where there are none. -/
theorem parentClause {parent : Option String} (isPath : ∀ path, parent = some path → IsPath path)
    {tokens : List Token} (writes : WritesParent parent tokens) :
    ∃ segments, segments.map Parser.dotted = parent ∧
      Takes Grammar.parentClause.optional segments anywhere tokens := by
  cases parent with
  | none =>
      obtain rfl := writes
      exact ⟨none, rfl, absent⟩
  | some parent =>
      obtain ⟨segments, arePath, same⟩ := isPath parent rfl
      obtain rfl := writes
      have clause : Takes Grammar.parentClause segments anywhere
          (["extends".toList] ++ [parent.toList]) := (keyword _).bind (same ▸ Yields.path arePath)
      exact ⟨some segments, congrArg some same.symm, clause.present⟩

/-- Functions with the names of a service are all kept by it. -/
theorem items_ofList_functions {functions : Keyed Function.name} {found : List Function}
    (same : found.map Function.bare = functions.items.map Function.bare) :
    (Keyed.ofList found : Keyed Function.name).items = found := by
  have names (list : List Function) : list.map Function.name = (list.map Function.bare).map
      Function.name := by rw [List.map_map]; rfl
  refine Keyed.items_ofList ?_
  rw [names, same, ← names]
  exact functions.distinct

private theorem serviceForm {declared : Service} (wellFormed : IsWellFormed (.service declared))
    (writes : WritesForm (.service declared) form) (isSeparator : IsSeparator separator) :
    Yields (Grammar.serviceForm duplicates)
      (fun found => found.bare = (Declaration.service declared).bare) unknown Plain
      (form ++ separator) := by
  obtain ⟨isName, isPath, wellFormedFunctions⟩ := wellFormed
  obtain ⟨clause, inner, writesParent, writes, rfl⟩ := writes
  obtain ⟨segments, sameParent, clause⟩ := parentClause isPath writesParent
  have functions : Yields (Phrase.Repeated (Grammar.function duplicates))
      (fun found => found.map Function.bare = declared.functions.items.map Function.bare) unknown
      Plain inner :=
    each Function.bare (starts_plain (Grammar.starts_function duplicates))
      (fun item member _ writes =>
        (Attributes.function (wellFormedFunctions item member) writes).yields) writes
  rw [block_append]
  refine bindSilent drainHead fun _ => (keyword _).bind <| (Yields.name isName).bind <|
    clause.bind <| (mark rfl).bind <| bindSilent drainTail fun _ =>
    functions.bindLoose declared.functions.items rfl (fun found same =>
      (close rfl).bind <| forget <| ending isSeparator fun _ => ?_) fun _ _ _ => plain_cons rfl _ _
  rw [Declaration.bare, Declaration.bare, sameParent, items_ofList_functions same, same]

/-- **Declarations** are yielded by their tokens. -/
theorem declaration {declared : Declaration} (wellFormed : IsWellFormed declared)
    {tokens : List Token} (writes : WritesDeclaration declared tokens) :
    Yields (Grammar.declaration duplicates) (fun found => found.bare = declared.bare) unknown Plain
      tokens := by
  obtain ⟨form, separator, writes, isSeparator, rfl⟩ := writes
  cases declared with
  | scope =>
      exact oneOf (by simp [Grammar.declarationForms])
        (Attributes.scopeForm wellFormed writes isSeparator).yields
  | inclusion =>
      exact oneOf (by simp [Grammar.declarationForms])
        (Attributes.inclusionForm wellFormed writes isSeparator).yields
  | typedef =>
      exact oneOf (by simp [Grammar.declarationForms])
        (Attributes.typedefForm wellFormed writes isSeparator).yields
  | constant =>
      exact oneOf (by simp [Grammar.declarationForms])
        (Attributes.constantForm wellFormed writes isSeparator).yields
  | enumeration =>
      exact oneOf (by simp [Grammar.declarationForms])
        (enumerationForm wellFormed writes isSeparator)
  | record kind declared =>
      have member : Grammar.recordForm duplicates kind ∈ Grammar.declarationForms duplicates := by
        cases kind <;> simp [Grammar.declarationForms]
      exact oneOf member (recordForm wellFormed writes isSeparator)
  | service declared =>
      have member : Grammar.serviceForm duplicates ∈ Grammar.declarationForms duplicates := by
        simp [Grammar.declarationForms]
      exact oneOf member (serviceForm wellFormed writes isSeparator)

end Yields

/-- Declarations in sequence are yielded by their tokens. -/
theorem yields_declarations (duplicates : DuplicateIds) {declared : List Declaration}
    (wellFormed : ∀ declaration ∈ declared, IsWellFormed declaration) {tokens : List Token}
    (writes : WritesEach WritesDeclaration declared tokens) :
    Yields (Phrase.Repeated (Grammar.declaration duplicates))
      (fun found => found.map Declaration.bare = declared.map Declaration.bare) unknown Plain
      tokens :=
  .each Declaration.bare (starts_plain (Grammar.starts_declaration duplicates))
    (fun item member _ writes => .declaration (wellFormed item member) writes) writes

end Layout
end ThriftIdl
