import ThriftIdl.Proofs.Interchange.Literal
import ThriftIdl.Proofs.Json.Pretty

/-!
# What the interchange form of a document says

A document can be told from its interchange form but for what the form has no place for: the
notation of literals, and the comments of records. The members of an object are told apart by their
keys, so each part of the grammar has the same form as another just when it says the same. Main
statement: `parse_interchange`.
-/

namespace ThriftIdl

/-! ## Documents as their interchange form says them -/

/-- A field as its interchange form says it. -/
def Field.plain (field : Field) : Field :=
  { field with defaultValue := field.defaultValue.map Literal.plain }

/-- A function as its interchange form says it. -/
def Function.plain (function : Function) : Function :=
  { function with
    arguments := function.arguments.map Field.plain
    throws := function.throws.map Field.plain }

/-- A declaration as its interchange form says it: a record has no comments of its own. -/
def Declaration.plain : Declaration → Declaration
  | constant declared => .constant { declared with value := declared.value.plain }
  | record kind declared =>
    .record kind { declared with
      fields := declared.fields.map Field.plain
      comments := {} }
  | service declared =>
    .service { declared with
      functions := .ofList (declared.functions.items.map Function.plain) }
  | declared => declared

/-- A declaration is stored under the key of its plain form. -/
@[simp] theorem Declaration.key_plain (declared : Declaration) :
    declared.plain.key = declared.key := by
  cases declared <;> rfl

/-! ## Lists and members -/

section Alike

variable {Node Form Sense : Type} {form : Node → Form} {sense : Node → Sense}

/-- Lists have the same forms if forms are the same just when what they say is. -/
theorem map_alike {nodes nodes' : List Node} (alike : ∀ node ∈ nodes, ∀ node' ∈ nodes',
      (form node = form node' ↔ sense node = sense node')) :
    nodes.map form = nodes'.map form ↔ nodes.map sense = nodes'.map sense := by
  induction nodes generalizing nodes' with
  | nil => simp [eq_comm]
  | cons node rest ih =>
      cases nodes' with
      | nil => simp
      | cons node' rest' =>
          rw [List.map_cons, List.map_cons, List.map_cons, List.map_cons, List.cons.injEq,
            List.cons.injEq, alike node (by simp) node' (by simp),
            ih fun node member node' member' =>
              alike node (List.mem_cons_of_mem _ member) node' (List.mem_cons_of_mem _ member')]

/-- What may be missing has the same form if forms are the same just when what they say is. -/
theorem optional_alike {found found' : Option Node} (alike : ∀ node, found = some node →
      ∀ node', found' = some node' → (form node = form node' ↔ sense node = sense node')) :
    found.map form = found'.map form ↔ found.map sense = found'.map sense := by
  cases found with
  | none => cases found' <;> simp
  | some node =>
      cases found' with
      | none => simp
      | some node' => simpa using alike node rfl node' rfl

end Alike

private theorem Json.str_injective : Function.Injective Json.str :=
  fun _ _ => Json.str.inj

/-- A member that may be missing is in plain form if what it holds is. -/
@[simp] theorem plain_optionalMember (key : String) (found : Option Json) :
    (optionalMember key found).map (Prod.map id Json.plain) =
      optionalMember key (found.map Json.plain) := by
  cases found <;> rfl

/-- **Members are told apart by their keys**, those that may be missing as well. -/
theorem optionalMember_append {key : String} {found found' : Option Json}
    {rest rest' : List (String × Json)} (fresh : key ∉ rest.map Prod.fst)
    (fresh' : key ∉ rest'.map Prod.fst) :
    optionalMember key found ++ rest = optionalMember key found' ++ rest' ↔
      found = found' ∧ rest = rest' := by
  have apart {value : Json} {rest rest' : List (String × Json)}
      (fresh : key ∉ rest.map Prod.fst) : rest ≠ (key, value) :: rest' := by
    rintro rfl
    simp at fresh
  cases found with
  | none =>
      cases found' with
      | none => simp [optionalMember]
      | some value' => simp [optionalMember, apart fresh]
  | some value =>
      cases found' with
      | none => simp [optionalMember, (apart fresh').symm]
      | some value' => simp [optionalMember]

private theorem optionalMember_eq {key : String} {found found' : Option Json} :
    optionalMember key found = optionalMember key found' ↔ found = found' := by
  have fresh : key ∉ ([] : List (String × Json)).map Prod.fst := by simp
  have alone := @optionalMember_append key found found' [] [] fresh fresh
  simpa using alone

/-- The key of a member that may be missing is there just if the member is. -/
@[simp] theorem mem_keys_optionalMember {key sought : String} {found : Option Json} :
    sought ∈ (optionalMember key found).map Prod.fst ↔ sought = key ∧ found.isSome := by
  cases found <;> simp [optionalMember]

namespace Comments

@[simp] theorem plain_members (comments : Comments) :
    comments.members.map (Prod.map id Json.plain) = comments.members := by
  obtain ⟨head, tail⟩ := comments
  cases head <;> cases tail <;> rfl

/-- Comments are written under two keys, each only where there is a comment. -/
@[simp] theorem mem_keys_members {comments : Comments} {sought : String} :
    sought ∈ comments.members.map Prod.fst ↔
      sought = "headComment" ∧ comments.head.isSome ∨
        sought = "tailComment" ∧ comments.tail.isSome := by
  simp only [members, List.map_append, List.mem_append, mem_keys_optionalMember, Option.isSome_map]

/-- Different comments are written differently. -/
@[simp] theorem members_inj {first second : Comments} :
    first.members = second.members ↔ first = second := by
  rw [members, members, optionalMember_append (by simp) (by simp), optionalMember_eq,
    (Option.map_injective Json.str_injective).eq_iff,
    (Option.map_injective Json.str_injective).eq_iff]
  cases first
  cases second
  rw [mk.injEq]

end Comments

/-! ## Parts of declarations -/

namespace TypeRef

/-- The JSON of a type holds no number, so it is plain. -/
@[simp] theorem plain_json (type : TypeRef) : type.json.plain = type.json := by
  induction type <;> simp_all [json]

/-- Different types are written differently. -/
@[simp] theorem json_inj {first second : TypeRef} : first.json = second.json ↔ first = second := by
  induction first generalizing second <;> cases second <;> simp_all [json]

end TypeRef

namespace EnumItem

/-- The JSON of an item of an enumeration holds no fraction, so it is plain. -/
@[simp] theorem plain_json (item : EnumItem) : item.json.plain = item.json := by
  simp [json]

/-- Different items of an enumeration are written differently. -/
@[simp] theorem json_inj {first second : EnumItem} : first.json = second.json ↔ first = second := by
  cases first
  cases second
  simp [json, Int64.toInt_inj]

end EnumItem

namespace Field

private theorem plain_json (field : Field) : field.json.plain = .obj (
    optionalMember "id" (field.id.map fun id => .int id.toInt) ++
    (optionalMember "option" (field.qualifier.map fun qualifier => .str qualifier.keyword) ++
    (("type", field.type.json) :: ("name", .str field.name) ::
    (optionalMember "value" (field.defaultValue.map fun value => value.json.plain) ++
      field.comments.members)))) := by
  simp [json, Function.comp_def]

/-- **Fields have the same interchange form** if they differ in the notation of their values
only. -/
theorem json_eq_iff {first second : Field} (regular : first.Regular) (regular' : second.Regular) :
    first.json.plain = second.json.plain ↔ first.plain = second.plain := by
  have ids : Function.Injective fun id : Int64 => Json.int id.toInt :=
    fun _ _ same => Int64.toInt_inj.mp (Json.int.inj same)
  have qualifiers : Function.Injective fun qualifier : Qualifier => Json.str qualifier.keyword := by
    intro qualifier qualifier' same
    cases qualifier <;> cases qualifier' <;> first | rfl | simp [Qualifier.keyword] at same
  have values : first.defaultValue.map (fun value => value.json.plain) =
        second.defaultValue.map (fun value => value.json.plain) ↔
      first.defaultValue.map Literal.plain = second.defaultValue.map Literal.plain :=
    optional_alike fun value is value' is' =>
      Literal.json_eq_iff (regular.value value is) (regular'.value value' is')
  rw [plain_json, plain_json, Json.obj.injEq, optionalMember_append (by simp) (by simp),
    optionalMember_append (by simp) (by simp), (Option.map_injective ids).eq_iff,
    (Option.map_injective qualifiers).eq_iff]
  simp only [List.cons.injEq, Prod.mk.injEq, true_and, TypeRef.json_inj, Json.str.injEq]
  rw [optionalMember_append (by simp) (by simp), values, Comments.members_inj]
  obtain ⟨id, qualifier, type, name, value, comments⟩ := first
  obtain ⟨id', qualifier', type', name', value', comments'⟩ := second
  simp only [plain, mk.injEq]

private theorem jsonList_eq_iff {fields fields' : List Field}
    (regular : ∀ field ∈ fields, field.Regular)
    (regular' : ∀ field ∈ fields', field.Regular) :
    (jsonList fields).plain = (jsonList fields').plain ↔ fields.map plain = fields'.map plain := by
  rw [jsonList, jsonList, Json.plain_arr, Json.plain_arr, Json.arr.injEq, List.map_map,
    List.map_map]
  exact map_alike fun field member field' member' =>
    json_eq_iff (regular field member) (regular' field' member')

end Field

namespace Function

private theorem plain_json (function : Function) : function.json.plain = .obj (
    ("type", function.returns.json) :: ("name", .str function.name) ::
    ("args", (Field.jsonList function.arguments).plain) ::
    ("throws", (Field.jsonList function.throws).plain) ::
    ("oneway", .bool function.oneway) :: function.comments.members) := by
  simp [json]

/-- **Functions have the same interchange form** if they differ in the notation of values only. -/
theorem json_eq_iff {duplicates duplicates' : DuplicateIds} {first second : Function}
    (regular : first.Regular duplicates) (regular' : second.Regular duplicates') :
    first.json.plain = second.json.plain ↔ first.plain = second.plain := by
  have arguments := Field.jsonList_eq_iff regular.arguments.each regular'.arguments.each
  have throws := Field.jsonList_eq_iff regular.throws.each regular'.throws.each
  rw [plain_json, plain_json]
  simp only [Json.obj.injEq, List.cons.injEq, Prod.mk.injEq, true_and, TypeRef.json_inj,
    Json.str.injEq, arguments, throws, Json.bool.injEq, Comments.members_inj]
  obtain ⟨oneway, returns, name, arguments, throws, comments⟩ := first
  obtain ⟨oneway', returns', name', arguments', throws', comments'⟩ := second
  simp only [plain, mk.injEq]
  tauto

end Function

namespace Declaration

variable {duplicates duplicates' : DuplicateIds}

/-- The functions of a service have the same names and forms if they differ in the notation of
values only. -/
theorem functions_eq_iff {first second : Keyed Function.name}
    (regular : ∀ function ∈ first.items, function.Regular duplicates)
    (regular' : ∀ function ∈ second.items, function.Regular duplicates') :
    first.items.map (fun function => (function.name, function.json.plain)) =
        second.items.map (fun function => (function.name, function.json.plain)) ↔
      (.ofList (first.items.map Function.plain) : Keyed Function.name) =
        .ofList (second.items.map Function.plain) := by
  have names (function : Function) : function.plain.name = function.name := rfl
  have items (functions : Keyed Function.name) :
      (Keyed.ofList (functions.items.map Function.plain) : Keyed Function.name).items =
        functions.items.map Function.plain := by
    rw [Keyed.items_ofList_map names, Keyed.ofList_items]
  have collections : (.ofList (first.items.map Function.plain) : Keyed Function.name) =
        .ofList (second.items.map Function.plain) ↔
      first.items.map Function.plain = second.items.map Function.plain := by
    constructor
    · intro same
      rw [← items first, same, items second]
    · exact congrArg Keyed.ofList
  rw [collections]
  refine map_alike fun function member function' member' => ?_
  rw [Prod.mk.injEq, Function.json_eq_iff (regular function member) (regular' function' member')]
  refine and_iff_right_of_imp fun same => ?_
  rw [← names function, same, names function']

private theorem service_json_eq_iff {first second : Service}
    (regular : (service first).Regular duplicates)
    (regular' : (service second).Regular duplicates') :
    (service first).name = (service second).name ∧
        (service first).json.plain = (service second).json.plain ↔
      (service first).plain = (service second).plain := by
  have functions := functions_eq_iff regular.2.2.2 regular'.2.2.2
  have form (declared : Service) : (service declared).json.plain = .obj (
      optionalMember "extends" (declared.parent.map .str) ++
      (("functions", .obj (declared.functions.items.map fun function =>
        (function.name, function.json.plain))) :: declared.comments.members)) := by
    simp [json, Function.comp_def]
  rw [form, form, Json.obj.injEq, optionalMember_append (by simp) (by simp),
    (Option.map_injective Json.str_injective).eq_iff]
  simp only [List.cons.injEq, Prod.mk.injEq, true_and, Json.obj.injEq, functions,
    Comments.members_inj]
  cases first
  cases second
  simp only [plain, name, service.injEq, Service.mk.injEq]

/-- **Declarations of one kind have the same name and the same interchange form** if they differ in
nothing else than the notation of values and the comments of records. -/
theorem json_eq_iff {first second : Declaration} (kinds : first.kind = second.kind)
    (regular : first.Regular duplicates) (regular' : second.Regular duplicates') :
    first.name = second.name ∧ first.json.plain = second.json.plain ↔
      first.plain = second.plain := by
  cases first <;> cases second <;> try cases kinds
  case scope.scope declared declared' =>
    cases declared
    cases declared'
    simp [json, plain, name]
  case inclusion.inclusion declared declared' =>
    cases declared
    cases declared'
    simp [json, plain, name, and_left_comm]
  case typedef.typedef declared declared' =>
    cases declared
    cases declared'
    simp [json, plain, name, and_left_comm]
  case constant.constant declared declared' =>
    have value := Literal.json_eq_iff regular.2.2 regular'.2.2
    cases declared
    cases declared'
    simp [json, plain, name, value, and_left_comm]
  case enumeration.enumeration declared declared' =>
    have items : Function.Injective EnumItem.json := fun _ _ => EnumItem.json_inj.mp
    cases declared
    cases declared'
    simp [json, plain, name, Function.comp_def, (List.map_injective_iff.mpr items).eq_iff]
  case record.record kind declared declared' =>
    have fields := Field.jsonList_eq_iff regular.2.each regular'.2.each
    cases declared
    cases declared'
    simp [json, plain, name, fields]
  case service.service declared declared' =>
    exact service_json_eq_iff regular regular'

end Declaration

/-! ## Documents -/

namespace Document

variable {first second : Document}

/-- The declarations of two documents have the same names and forms, kind by kind, if they differ in
nothing else than what the forms leave out. -/
theorem kindJson_eq_iff {duplicates duplicates' : DuplicateIds} {kind : Kind}
    (regular : ∀ declared ∈ first.toList, declared.Regular duplicates)
    (regular' : ∀ declared ∈ second.toList, declared.Regular duplicates') :
    (first.kindJson kind).plain = (second.kindJson kind).plain ↔
      (first.ofKind kind).map Declaration.plain = (second.ofKind kind).map Declaration.plain := by
  have listed {document : Document} {declared : Declaration}
      (member : declared ∈ document.ofKind kind) : declared ∈ document.toList :=
    (mem_toList_iff document).mpr (List.mem_filter.mp member).1
  rw [kindJson, kindJson, Json.plain_obj, Json.plain_obj, Json.obj.injEq, List.map_map,
    List.map_map]
  refine map_alike fun declared member declared' member' => ?_
  have kinds : declared.kind = declared'.kind :=
    (kind_of_mem_ofKind member).trans (kind_of_mem_ofKind member').symm
  rw [← Declaration.json_eq_iff kinds (regular declared (listed member))
    (regular' declared' (listed member'))]
  exact Prod.mk.injEq .. ▸ Iff.rfl

/-- Two documents say the same in their order if they do so kind by kind. -/
theorem map_plain_toList_iff :
    first.toList.map Declaration.plain = second.toList.map Declaration.plain ↔
      ∀ kind, (first.ofKind kind).map Declaration.plain =
        (second.ofKind kind).map Declaration.plain := by
  have kept (declared : Declaration) : declared.plain.kind = declared.kind :=
    congrArg Prod.fst declared.key_plain
  have chosen (document : Document) (kind : Kind) :
      ((document.toList.map Declaration.plain).filter fun declared => declared.kind = kind) =
        (document.ofKind kind).map Declaration.plain := by
    rw [List.filter_map, ← filter_toList]
    simp only [Function.comp_def, kept]
  constructor
  · intro same kind
    rw [← chosen first, same, chosen second]
  · intro same
    simp only [toList, List.map_flatMap, same]

private theorem kinds_eq_of_plain (same : ∀ kind, (first.ofKind kind).map Declaration.plain =
    (second.ofKind kind).map Declaration.plain) : first.kinds = second.kinds := by
  refine List.filter_congr fun kind _ => ?_
  have empty := congrArg List.isEmpty (same kind)
  rw [List.isEmpty_map, List.isEmpty_map] at empty
  rw [containsKind, containsKind, empty]

/-- **Documents have the same interchange form** if they have the same declarations in the same
order up to what the form leaves out. -/
theorem json_eq_iff {duplicates duplicates' : DuplicateIds}
    (regular : ∀ declared ∈ first.toList, declared.Regular duplicates)
    (regular' : ∀ declared ∈ second.toList, declared.Regular duplicates') :
    first.json.plain = second.json.plain ↔
      first.toList.map Declaration.plain = second.toList.map Declaration.plain := by
  have form (document : Document) : document.json.plain = .obj (document.kinds.map fun kind =>
      (kind.keyword, (document.kindJson kind).plain)) := by
    simp [json]
  rw [map_plain_toList_iff, form, form, Json.obj.injEq]
  constructor
  · intro same kind
    have keywords := congrArg (List.map Prod.fst) same
    rw [List.map_map, List.map_map] at keywords
    have kinds : first.kinds = second.kinds :=
      List.map_injective_iff.mpr Kind.keyword_injective keywords
    rw [← kinds, List.map_inj_left] at same
    by_cases member : kind ∈ first.kinds
    · exact (kindJson_eq_iff regular regular').mp (Prod.mk.inj (same kind member)).2
    · have none {document : Document} (absent : kind ∉ document.kinds) :
          document.ofKind kind = [] := by
        simpa [Document.kinds, containsKind, Kind.mem_all] using absent
      rw [none member, none (kinds ▸ member)]
  · intro same
    rw [kinds_eq_of_plain same]
    refine List.map_congr_left fun kind _ => ?_
    rw [(kindJson_eq_iff regular regular').mpr (same kind)]

end Document

namespace Parser

variable {options options' : Options} {source source' : String} {first second : Document}

/-- **The interchange form of a document leaves out no more than its shape says.** The texts of two
documents that are read are the same just when the documents have the same kinds, the same keys in
the same order, and under each of them the same declaration, but for the comments of records, the
notation of integers and fractions, the kind of empty literals, and numbers that are not finite. The
text over several lines says the same as the compact one. -/
theorem parse_interchange (parsed : Document.parse source options = .ok first)
    (parsed' : Document.parse source' options' = .ok second) :
    (first.json.text = second.json.text ↔
      first.kinds = second.kinds ∧
      first.toList.map Declaration.key = second.toList.map Declaration.key ∧
      first.toList.map Declaration.plain = second.toList.map Declaration.plain) ∧
    (first.json.pretty = second.json.pretty ↔ first.json.text = second.json.text) := by
  have keys (document : Document) : document.toList.map Declaration.key =
      (document.toList.map Declaration.plain).map Declaration.key := by
    simp [Function.comp_def]
  rw [Json.pretty_eq_iff, Json.text_eq_iff,
    Document.json_eq_iff (regular_of_parse parsed) (regular_of_parse parsed')]
  refine ⟨⟨fun same => ⟨?kinds, ?keys, same⟩, fun same => same.2.2⟩, Iff.rfl⟩
  case kinds => exact Document.kinds_eq_of_plain (Document.map_plain_toList_iff.mp same)
  case keys => rw [keys, same, keys]

/-- Two documents with the same interchange form: a comment of a record, an empty list and an empty
map, a hexadecimal integer and a decimal one, and two infinities. -/
theorem parse_interchange_notation :
    ∃ document document',
      Document.parse "/* a */ struct S { 1: x t = [] } const i8 n = 0x10 const double d = 1e999" =
        .ok document ∧
      Document.parse "struct S { 1: x t = {} } const i8 n = 16 const double d = -1e999" =
        .ok document' ∧
      document.json.text = document'.json.text ∧
      document.toList.map (fun declared => declared.comments.head) = [none, none, some "/* a */"] ∧
      document'.toList.map (fun declared => declared.comments.head) = [none, none, none] ∧
      document.toList.map Declaration.plain = document'.toList.map Declaration.plain := by
  let source := "/* a */ struct S { 1: x t = [] } const i8 n = 0x10 const double d = 1e999"
  let source' := "struct S { 1: x t = {} } const i8 n = 16 const double d = -1e999"
  let shown (document : Document) :=
    (document.json.text, document.toList.map fun declared => declared.comments.head)
  have read : (Document.parse source).toOption.map (Prod.snd ∘ shown) =
      some [none, none, some "/* a */"] := by
    decide +kernel
  have read' : (Document.parse source').toOption.map (Prod.snd ∘ shown) =
      some [none, none, none] := by
    decide +kernel
  have texts : (Document.parse source).toOption.map (Prod.fst ∘ shown) =
      (Document.parse source').toOption.map (Prod.fst ∘ shown) := by
    decide +kernel
  cases parsed : Document.parse source with
  | error error => simp [parsed, Except.toOption] at read
  | ok document =>
      cases parsed' : Document.parse source' with
      | error error => simp [parsed', Except.toOption] at read'
      | ok document' =>
          rw [parsed] at read texts
          rw [parsed'] at read' texts
          have same : document.json.text = document'.json.text := Option.some.inj texts
          exact ⟨document, document', rfl, rfl, same, Option.some.inj read, Option.some.inj read',
            ((parse_interchange parsed parsed').1.mp same).2.2⟩

end Parser

end ThriftIdl
