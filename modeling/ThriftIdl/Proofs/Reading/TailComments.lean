import Mathlib.Logic.Relation
import ThriftIdl.Proofs.Reading.Places
import ThriftIdl.Proofs.Reading.Tails

/-!
# The comments after items

When an item begins, no comments wait for the item read last, with one exception: nothing takes the
comments in the header of a function, so they wait until its first argument, or its first exception,
ends, and become comments of that field (`tail_comments_own`).
-/

namespace ThriftIdl

open Relation (ReflTransGen)
open ThriftIdl.Comment.Queue (together)
open ThriftIdl.Grammar (Lexes Takes Traces Effect tails)

/-! ## Where items stand -/

/-- The kinds of places at which an item stands. -/
inductive Spot
  | declaration
  | enumItem
  | recordField (kind : RecordKind)
  | function
  | argument
  | exception

namespace Spot

/-- The items that stand at a place. -/
def Item : Spot → Type
  | declaration => Declaration
  | enumItem => WrittenItem
  | recordField _ => Field
  | function => Function
  | argument => Field
  | exception => Field

/-- The comments of an item. -/
def comments : (spot : Spot) → spot.Item → Comments
  | declaration => Declaration.comments
  | enumItem => WrittenItem.comments
  | recordField _ => Field.comments
  | function => Function.comments
  | argument => Field.comments
  | exception => Field.comments

/-- The place of the item that the items at a place are parts of. -/
def outer? : Spot → Option Spot
  | declaration => none
  | enumItem => some declaration
  | recordField _ => some declaration
  | function => some declaration
  | argument => some function
  | exception => some function

section Rules

open ThriftIdl.Parser

variable (duplicates : DuplicateIds)

/-- The rule for the items at a place. -/
def rule : (spot : Spot) → Rule spot.Item
  | declaration => Parser.declaration duplicates
  | enumItem => Parser.enumItem
  | recordField _ => field
  | function => Parser.function duplicates
  | argument => field
  | exception => field

/-- What is read of an item before the first of the items at a place inside it. -/
def opening : Spot → Rule Unit
  | declaration => return
  | enumItem => do
    let _ ← drainHead
    let _ ← blockHeader "enum"
    return
  | recordField kind => do
    let _ ← drainHead
    let _ ← blockHeader kind.keyword
    return
  | function => do
    let _ ← drainHead
    keyword "service"
    let _ ← name
    let _ ← attempt parentClause
    mark '\x7b'
    let _ ← drainTail
    return
  | argument => do
    let _ ← drainHead
    let _ ← attempt (keyword "oneway")
    let _ ← typeRef
    let _ ← name
    mark '('
    return
  | exception => do
    let _ ← drainHead
    let _ ← attempt (keyword "oneway")
    let _ ← typeRef
    let _ ← name
    let _ ← fieldList duplicates
    keyword "throws"
    mark '('
    return

end Rules

end Spot

/-- The comments of a function and of the items inside it, with their places. -/
def Function.items (function : Function) : List (Spot × Comments) :=
  (.function, function.comments) ::
    (function.arguments.map fun field => (.argument, field.comments)) ++
      function.throws.map fun field => (.exception, field.comments)

/-- The comments of a declaration and of the items inside it, with their places. -/
def Declaration.items (declared : Declaration) : List (Spot × Comments) :=
  (.declaration, declared.comments) ::
    match declared with
    | .enumeration block => block.items.map fun item => (.enumItem, item.comments)
    | .record kind block => block.fields.map fun field => (.recordField kind, field.comments)
    | .service block => block.functions.items.flatMap Function.items
    | _ => []

namespace Parser

variable {First Value Item : Type} {options : Options} {source : String}

/-- The views in which the reading of a source text begins an item. -/
inductive ItemStart (options : Options) (source : String) : Spot → View → Prop
  | declaration {state : State} : TopLevel options source state →
      ItemStart options source .declaration state.view
  | first {spot outer : Spot} {before after : View} : spot.outer? = some outer →
      ItemStart options source outer before →
      reads (spot.opening options.duplicates) before = some ((), after) →
      ItemStart options source spot after
  | next {spot : Spot} {before after : View} {item : spot.Item} : spot ≠ .declaration →
      ItemStart options source spot before →
      reads (spot.rule options.duplicates) before = some (item, after) →
      ItemStart options source spot after

/-! ## What waits when an item begins -/

namespace EndsWith

private theorem drainTail : EndsWith drainTail fun _ view => view.tail = [] := by
  refine ⟨.drainTail, fun {before found after} read => ?_⟩
  rw [reads_drainTail] at read
  cases read
  rfl

private theorem blockHeader (word : String) :
    EndsWith (blockHeader word) fun _ view => view.tail = [] :=
  .after (.keyword _) fun _ => .after .name fun _ => .after (.mark _) fun _ => drainTail.followed

end EndsWith

/-- An item that has ended leaves no comments waiting for it. -/
theorem tail_of_takes {comments : Value → Comments} {effect : Effect} {rule : Rule Value}
    {before after : View} {value : Value} (takes : Takes comments [] effect rule)
    (read : reads rule before = some (value, after)) : after.tail = [] := by
  obtain ⟨-, last, -, -, -, rfl⟩ := takes.traced read
  rfl

section Spots

variable (duplicates : DuplicateIds)

/-- The rules for items take the comments after them. -/
theorem takes_rule (spot : Spot) :
    Takes spot.comments [] Effect.KeepsTail (spot.rule duplicates) := by
  have lawful := Effect.lawful_keepsTail
  have head := Effect.dropsHead_keepsTail
  cases spot with
  | declaration => exact Grammar.takes_declaration duplicates
  | enumItem => exact Grammar.takes_enumItem lawful head
  | function => exact Grammar.takes_function lawful head Effect.dropsTail_keepsTail duplicates
  | recordField | argument | exception => exact Grammar.takes_field lawful head

/-- Items without items inside them take all comments after them. -/
theorem takes_rule_flat {spot : Spot} (apart : spot ≠ .declaration) (apart' : spot ≠ .function) :
    Takes spot.comments [] Effect.AddsTail (spot.rule duplicates) := by
  have lawful := Effect.lawful_addsTail
  have head := Effect.dropsHead_addsTail
  cases spot with
  | declaration => exact absurd rfl apart
  | enumItem => exact Grammar.takes_enumItem lawful head
  | function => exact absurd rfl apart'
  | recordField | argument | exception => exact Grammar.takes_field lawful head

/-- The comments in the header of a declaration are taken at its end. -/
theorem ends_opening {spot : Spot} (inside : spot.outer? = some .declaration) :
    EndsWith (spot.opening duplicates) fun _ view => view.tail = [] := by
  cases spot with
  | enumItem => exact .after .drainHead fun _ => (EndsWith.blockHeader _).followed
  | recordField => exact .after .drainHead fun _ => (EndsWith.blockHeader _).followed
  | function =>
      exact .after .drainHead fun _ => .after (.keyword _) fun _ => .after .name fun _ =>
        .after (Formed.parentClause.attempt) fun _ => .after (.mark _) fun _ =>
        EndsWith.drainTail.followed
  | _ => cases inside

/-- The comments in the header of a function are not taken before its first argument. -/
theorem traces_opening_argument : Traces Effect.AddsTail (Spot.opening duplicates .argument) :=
  have lawful := Effect.lawful_addsTail
  .bind lawful (.drainHead Effect.dropsHead_addsTail) fun _ =>
    .bind lawful (.attempt lawful (Grammar.traces_keyword lawful (by decide))) fun _ =>
    .bind lawful (Grammar.traces_typeRef lawful) fun _ =>
    .bind lawful (Grammar.traces_name lawful) fun _ => .bind lawful (Grammar.traces_mark lawful rfl)
    fun _ => .pure lawful.nothing _

private theorem traces_opening_exception :
    Traces Effect.KeepsTail (Spot.opening duplicates .exception) :=
  have lawful := Effect.lawful_keepsTail
  have head := Effect.dropsHead_keepsTail
  .bind lawful (.drainHead head) fun _ =>
    .bind lawful (.attempt lawful (Grammar.traces_keyword lawful (by decide))) fun _ =>
    .bind lawful (Grammar.traces_typeRef lawful) fun _ =>
    .bind lawful (Grammar.traces_name lawful) fun _ =>
    .bind lawful (Grammar.traces_fieldList lawful head Effect.dropsTail_keepsTail duplicates)
    fun _ => .bind lawful (Grammar.traces_keyword lawful (by decide)) fun _ =>
    .bind lawful (Grammar.traces_mark lawful rfl) fun _ => .pure lawful.nothing _

end Spots

/-- When an item begins, no comments wait, unless it is the first in the parentheses of a
function. -/
theorem tail_of_itemStart {spot : Spot} {view : View} (start : ItemStart options source spot view) :
    view.tail = [] ∨ (spot = .argument ∨ spot = .exception) ∧
      ∃ front, ItemStart options source .function front ∧
        reads (spot.opening options.duplicates) front = some ((), view) := by
  cases start with
  | declaration reached => exact .inl reached.settled.2
  | next _ _ read => exact .inl (tail_of_takes (takes_rule _ _) read)
  | first inside outer read =>
      cases spot with
      | declaration => cases inside
      | enumItem | recordField | function =>
          cases inside
          exact .inl ((ends_opening _ rfl).holds read)
      | argument | exception =>
          cases inside
          exact .inr ⟨by simp, _, outer, read⟩

/-! ## Where the items of a document begin -/

/-- One item after the other. -/
def Passes (rule : Rule Item) : View → View → Prop :=
  ReflTransGen fun before after => ∃ item, reads rule before = some (item, after)

/-- Each item of a repetition is read behind others that are read one after the other. -/
theorem exists_of_reads_many {rule : Rule Item} {before after : View} {items : List Item}
    (formed : Formed rule) (read : reads (many rule) before = some (items, after)) :
    ∀ item ∈ items, ∃ start next, Passes rule before start ∧
      reads rule start = some (item, next) := by
  replace read := readsEach_of_reads_many formed read
  induction read with
  | missed _ => simp
  | idle here _ => exact List.forall_mem_singleton.mpr ⟨_, _, .refl, here⟩
  | item here _ _ ih =>
      refine List.forall_mem_cons.mpr ⟨⟨_, _, .refl, here⟩, fun item member => ?_⟩
      obtain ⟨start, next, passes, found⟩ := ih item member
      exact ⟨start, next, .head ⟨_, here⟩ passes, found⟩

variable {Part : Type}

/-- A rule for items with parts, which come of other items that are read one after the other behind
an opening. -/
structure Lists (opening : Rule Unit) (rule : Rule Item) (part : Item → Part)
    (parts : Value → List Part) (outer : Rule Value) : Prop where
  formed : Formed outer
  opens : Formed opening
  found : ∀ {before value after}, reads outer before = some (value, after) →
    ∀ wanted ∈ parts value, ∃ opened start item next, reads opening before = some ((), opened) ∧
      Passes rule opened start ∧ reads rule start = some (item, next) ∧ part item = wanted

namespace Lists

variable {opening : Rule Unit} {rule : Rule Item} {part : Item → Part} {parts : Value → List Part}

private theorem many (formed : Formed rule) (part : Item → Part) :
    Lists (return) rule part (List.map part) (many rule) := by
  refine ⟨formed.many, .pure (), fun {before items after} read wanted member => ?_⟩
  obtain ⟨item, inside, same⟩ := List.mem_map.mp member
  obtain ⟨start, next, passes, found⟩ := exists_of_reads_many formed read item inside
  exact ⟨before, start, item, next, rfl, passes, found, same⟩

/-- The opening is longer by what is read first. -/
theorem after {first : Rule First} {next : First → Rule Value} (formed : Formed first)
    (later : ∀ value, Lists opening rule part parts (next value)) :
    Lists (first >>= fun _ => opening) rule part parts (first >>= next) := by
  refine ⟨formed.bind fun value => (later value).formed,
    formed.bind fun value => (later value).opens, fun {before value after} read wanted member => ?_⟩
  obtain ⟨found, middle, here, there⟩ :=
    (reads_bind_eq_some_iff _ formed fun value => (later value).formed).mp read
  obtain ⟨opened, start, item, last, opening, rest⟩ := (later found).found there wanted member
  exact ⟨opened, start, item, last, (reads_bind_eq_some_iff _ formed fun value =>
    (later value).opens).mpr ⟨_, middle, here, opening⟩, rest⟩

/-- What comes behind the items adds no parts. -/
theorem before {first : Rule First} {next : First → Rule Value} {listed : First → List Part}
    (lists : Lists opening rule part listed first)
    (later : ∀ found, EndsWith (next found) fun value _ => parts value ⊆ listed found) :
    Lists opening rule part parts (first >>= next) := by
  refine ⟨lists.formed.bind fun value => (later value).formed, lists.opens,
    fun {before value after} read wanted member => ?_⟩
  obtain ⟨found, middle, here, there⟩ :=
    (reads_bind_eq_some_iff _ lists.formed fun value => (later value).formed).mp read
  exact lists.found here wanted ((later found).holds there member)

private theorem attempt {first : Rule First} {listed : First → List Part}
    (lists : Lists opening rule part listed first) :
    Lists opening rule part (fun found => (found.map listed).getD []) (attempt first) := by
  refine ⟨lists.formed.attempt, lists.opens, fun {before found after} read wanted member => ?_⟩
  rw [reads_attempt before lists.formed] at read
  cases result : reads first before with
  | none =>
      rw [result] at read
      cases read
      cases member
  | some step =>
      rw [result] at read
      cases read
      exact lists.found result wanted member

end Lists

section Parts

variable (duplicates : DuplicateIds)

private theorem lists_fieldList :
    Lists (do mark '('; return) field id (List.map id) (fieldList duplicates) :=
  .after (.mark _) fun _ => (Lists.many .field id).before fun _ =>
    .after (.close _) fun _ => .after (.checkIds _ _ _) fun _ => .pure fun _ =>
    List.Subset.refl _

private theorem lists_arguments :
    Lists (Spot.opening duplicates .argument) field id Function.arguments (function duplicates) :=
  .after .drainHead fun _ => .after (Formed.keyword _).attempt fun _ => .after .typeRef fun _ =>
    .after .name fun _ => (lists_fieldList duplicates).before fun arguments =>
    .after (Formed.throwsClause _).attempt fun _ => .after .separator fun _ =>
    .after .drainTail fun _ => .pure fun _ => by simp

private theorem lists_throws :
    Lists (Spot.opening duplicates .exception) field id Function.throws (function duplicates) :=
  have clause : Lists (do keyword "throws"; mark '('; return) field id (List.map id)
      (throwsClause duplicates) :=
    .after (.keyword _) fun _ => lists_fieldList duplicates
  .after .drainHead fun _ => .after (Formed.keyword _).attempt fun _ => .after .typeRef fun _ =>
    .after .name fun _ => .after (.fieldList _) fun _ => clause.attempt.before fun throws =>
    .after .separator fun _ => .after .drainTail fun _ => .pure fun _ => by
      cases throws <;> simp

private theorem comments_numberItems {next : Option Int64} {written : List WrittenItem}
    {items : List EnumItem} (numbered : numberItems next written = .ok items) :
    items.map EnumItem.comments = written.map WrittenItem.comments := by
  induction written generalizing next items with
  | nil =>
      cases numbered
      rfl
  | cons item rest ih =>
      unfold numberItems at numbered
      split at numbered
      · cases numbered
      · split at numbered
        · next later =>
            cases numbered
            simp [ih later]
        · cases numbered

private theorem ends_enumValues (enumeration : String) (written : List WrittenItem) :
    EndsWith (enumValues enumeration written)
      fun items _ => items.map EnumItem.comments = written.map WrittenItem.comments := by
  refine ⟨.enumValues enumeration written, fun {before value after} read => ?_⟩
  unfold enumValues at read
  cases numbered : numberItems (some 0) written with
  | error item => simp [numbered] at read
  | ok items =>
      rw [numbered, reads_pure] at read
      cases read
      exact comments_numberItems numbered

/-- The comments of the items of an enumeration. -/
def itemComments : Declaration → List Comments
  | .enumeration declared => declared.items.map EnumItem.comments
  | _ => []

private theorem lists_enumItems :
    Lists (Spot.opening duplicates .enumItem) enumItem WrittenItem.comments itemComments
      enumerationForm :=
  .after .drainHead fun _ => .after (.blockHeader _) fun _ =>
    (Lists.many .enumItem WrittenItem.comments).before fun written =>
    .after (.close _) fun _ => .after .separator fun _ => (ends_enumValues _ written).bind
      (fun _ => Formed.drainTail.bind fun _ => .pure _) fun _ same => .after .drainTail
      fun _ => .pure fun _ => same ▸ List.Subset.refl _

private theorem lists_recordFields (kind : RecordKind) :
    Lists (Spot.opening duplicates (.recordField kind)) field id
      (fun declared => declared.fields?.getD []) (recordForm duplicates kind) :=
  .after .drainHead fun _ => .after (.blockHeader _) fun _ =>
    (Lists.many .field id).before fun fields => .after (.close _) fun _ =>
    .after (.checkIds _ _ _) fun _ => .after .separator fun _ => .after .drainTail fun _ =>
    .pure fun _ => by simp [Declaration.fields?]

/-- The functions of a service. -/
def functionsOf : Declaration → List Function
  | .service declared => declared.functions.items
  | _ => []

private theorem lists_functions :
    Lists (Spot.opening duplicates .function) (function duplicates) id functionsOf
      (serviceForm duplicates) :=
  .after .drainHead fun _ => .after (.keyword _) fun _ => .after .name fun _ =>
    .after Formed.parentClause.attempt fun _ => .after (.mark _) fun _ => .after .drainTail fun _ =>
    (Lists.many (.function _) id).before fun functions => .after (.close _) fun _ =>
    .after .separator fun _ => .after .drainTail fun _ => .pure fun _ function member => by
      simpa using Keyed.mem_of_mem_ofList member

end Parts

/-- Items that come one after the other begin as the first of them does. -/
theorem ItemStart.passes {spot : Spot} {before after : View} (apart : spot ≠ .declaration)
    (start : ItemStart options source spot before)
    (passes : Passes (spot.rule options.duplicates) before after) :
    ItemStart options source spot after := by
  induction passes with
  | refl => exact start
  | tail _ step ih =>
      obtain ⟨item, read⟩ := step
      exact .next apart ih read

/-- The parts of an item that begins begin themselves. -/
theorem ItemStart.of_lists (spot : Spot) {outer : Spot} {part : spot.Item → Part}
    {parts : Value → List Part} {rule : Rule Value} {before after : View} {value : Value}
    (lists : Lists (spot.opening options.duplicates) (spot.rule options.duplicates) part parts rule)
    (inside : spot.outer? = some outer) (start : ItemStart options source outer before)
    (read : reads rule before = some (value, after)) :
    ∀ wanted ∈ parts value, ∃ view item next, ItemStart options source spot view ∧
      reads (spot.rule options.duplicates) view = some (item, next) ∧ part item = wanted := by
  have apart : spot ≠ .declaration := by
    rintro rfl
    cases inside
  intro wanted member
  obtain ⟨opened, view, item, next, opening, passes, found⟩ := lists.found read wanted member
  exact ⟨view, item, next, (ItemStart.first inside start opening).passes apart passes, found⟩

/-- Some comments belong to an item that the reading begins at a place. -/
def Begun (options : Options) (source : String) (spot : Spot) (comments : Comments) : Prop :=
  ∃ view item after, ItemStart options source spot view ∧
    reads (spot.rule options.duplicates) view = some (item, after) ∧
    spot.comments item = comments

/-- The items in a function begin. -/
theorem begun_of_function {function : Function} {before after : View}
    (start : ItemStart options source .function before)
    (read : reads (Parser.function options.duplicates) before = some (function, after)) :
    ∀ entry ∈ function.items, Begun options source entry.1 entry.2 := by
  simp only [Function.items, List.cons_append, List.forall_mem_cons, List.mem_append, List.mem_map]
  refine ⟨⟨before, function, after, start, read, rfl⟩, ?_⟩
  rintro entry (⟨field, member, rfl⟩ | ⟨field, member, rfl⟩)
  · obtain ⟨view, item, next, begins, found, rfl⟩ :=
      ItemStart.of_lists .argument (lists_arguments options.duplicates) rfl start read field member
    exact ⟨view, item, next, begins, found, rfl⟩
  · obtain ⟨view, item, next, begins, found, rfl⟩ :=
      ItemStart.of_lists .exception (lists_throws options.duplicates) rfl start read field member
    exact ⟨view, item, next, begins, found, rfl⟩

/-- The items in a declaration begin. -/
theorem begun_of_declaration {declared : Declaration} {before after : View}
    (start : ItemStart options source .declaration before)
    (read : reads (declaration options.duplicates) before = some (declared, after)) :
    ∀ entry ∈ declared.items, Begun options source entry.1 entry.2 := by
  have form := (reads_declaration_iff options.duplicates).mp read
  simp only [Declaration.items, List.forall_mem_cons]
  refine ⟨⟨before, declared, after, start, read, rfl⟩, ?_⟩
  cases declared with
  | enumeration block =>
      simp only [List.forall_mem_map]
      intro item member
      exact ItemStart.of_lists .enumItem (lists_enumItems options.duplicates) rfl start form
        item.comments (List.mem_map_of_mem member)
  | record kind block =>
      simp only [List.forall_mem_map]
      intro field member
      obtain ⟨view, item, next, begins, found, rfl⟩ :=
        ItemStart.of_lists (.recordField kind) (lists_recordFields options.duplicates kind)
          rfl start form field member
      exact ⟨view, item, next, begins, found, rfl⟩
  | service block =>
      simp only [List.mem_flatMap]
      rintro entry ⟨function, member, inside⟩
      obtain ⟨view, item, next, begins, found, rfl⟩ := ItemStart.of_lists .function
        (lists_functions options.duplicates) rfl start form function member
      exact begun_of_function begins found entry inside
  | _ => simp

/-- **Whose comments an item takes.** No comments wait when the reading begins an item, unless it is
the first in the parentheses of a function: then those in the header of the function wait, all of
them before its first argument and some before its first exception. At its end an item takes
comments that waited and comments behind its own tokens, and all of both if it has no items inside
it. Every item of a document comes of an item that the reading begins. -/
theorem tail_comments_own (options : Options) (source : String) :
    (∀ spot view, ItemStart options source spot view →
      view.tail = [] ∨ (spot = .argument ∨ spot = .exception) ∧
        ∃ front, ItemStart options source .function front ∧
          reads (spot.opening options.duplicates) front = some ((), view)) ∧
    (∀ front view, ItemStart options source .function front →
      reads (Spot.opening options.duplicates .argument) front = some ((), view) →
        ∃ tokens, Lexes front.rest tokens view.rest ∧ view.tail = tails tokens) ∧
    (∀ front view, ItemStart options source .function front →
      reads (Spot.opening options.duplicates .exception) front = some ((), view) →
        ∃ tokens, Lexes front.rest tokens view.rest ∧ view.tail.Sublist (tails tokens)) ∧
    (∀ spot view item after, ItemStart options source spot view →
      reads (spot.rule options.duplicates) view = some (item, after) →
        ∃ tokens taken, Lexes view.rest tokens after.rest ∧
          (spot.comments item).tail = together taken ∧
          taken.Sublist (view.tail ++ tails tokens) ∧
          (spot ≠ .declaration → spot ≠ .function → taken = view.tail ++ tails tokens)) ∧
    ∀ document, Document.parse source options = .ok document →
      ∀ declared ∈ document.declarations.items, ∀ entry ∈ declared.items,
        Begun options source entry.1 entry.2 := by
  -- A function never stands in the parentheses of one, so no comments wait before it.
  have clear {front : View} (start : ItemStart options source .function front) :
      front.tail = [] := by
    rcases tail_of_itemStart start with empty | ⟨first | first, -⟩
    · exact empty
    · cases first
    · cases first
  refine ⟨fun spot view => tail_of_itemStart, fun front view start read => ?argument,
    fun front view start read => ?exception, fun spot view item after start read => ?taken,
    fun document parsed declared member => ?document⟩
  case argument =>
    obtain ⟨tokens, lexes, adds⟩ := (traces_opening_argument _).traced read
    refine ⟨tokens, lexes, ?_⟩
    rw [adds, clear start, List.nil_append]
  case exception =>
    obtain ⟨tokens, lexes, keeps⟩ := (traces_opening_exception _).traced read
    refine ⟨tokens, lexes, ?_⟩
    rwa [Effect.KeepsTail, clear start, List.nil_append] at keeps
  case taken =>
    by_cases nested : spot = .declaration ∨ spot = .function
    · obtain ⟨tokens, last, lexes, keeps, tail, rfl⟩ := (takes_rule _ spot).traced read
      exact ⟨tokens, last.tail, lexes, tail, keeps, by grind⟩
    · obtain ⟨apart, apart'⟩ := not_or.mp nested
      obtain ⟨tokens, last, lexes, adds, tail, rfl⟩ := (takes_rule_flat _ apart apart').traced read
      exact ⟨tokens, last.tail, lexes, tail, Effect.keepsTail_of_addsTail adds, fun _ _ => adds⟩
  case document =>
    obtain ⟨state, next, reached, matched⟩ := exists_topLevel_of_parse parsed declared member
    obtain ⟨read, -⟩ := (Formed.declaration _).reads_of_ok (reached.sound.keeping []) matched
    exact begun_of_declaration (.declaration reached) read

/-- The tail comments of the items of a document. -/
def tailComments (document : Document) : List (Option String) :=
  (document.declarations.items.flatMap Declaration.items).map fun entry => entry.2.tail

/-- The comment after a field is its own, and the one in the header of the structure is not. -/
theorem tail_comments_own_field :
    ∃ document, Document.parse "struct S { /* a */ 1: i32 x /* b */ }" = .ok document ∧
      tailComments document = [some "/* a */", some "/* b */"] ∧
      ∀ declared ∈ document.declarations.items, ∀ entry ∈ declared.items,
        entry.1 = .recordField .struct → ∃ view after tokens,
          ItemStart {} "struct S { /* a */ 1: i32 x /* b */ }" entry.1 view ∧
          Lexes view.rest tokens after ∧ entry.2.tail = together (tails tokens) := by
  obtain ⟨document, parsed, computed⟩ := exists_of_map_parse {}
    "struct S { /* a */ 1: i32 x /* b */ }" tailComments [some "/* a */", some "/* b */"]
    (by decide +kernel)
  refine ⟨document, parsed, computed, fun declared member entry inside place => ?_⟩
  obtain ⟨starts, -, -, takes, begins⟩ :=
    tail_comments_own {} "struct S { /* a */ 1: i32 x /* b */ }"
  obtain ⟨view, item, after, start, read, same⟩ :=
    begins document parsed declared member entry inside
  obtain ⟨tokens, taken, lexes, tail, -, whole⟩ := takes _ _ _ _ start read
  have empty : view.tail = [] := (starts _ _ start).resolve_right (by simp [place])
  have own : taken = tails tokens := by simpa [place, empty] using whole
  exact ⟨view, after.rest, tokens, start, lexes, by rw [← same, tail, own]⟩

/-- A comment in the header of a function waits when the first argument begins, and goes to it. So
does one in the header of a clause of exceptions. -/
theorem tail_comment_misplaced :
    (∃ view, ItemStart {} "service S { void f( /* c */ 1: i32 x) }" .argument view ∧
      view.tail = ["/* c */"]) ∧
    (∃ document, Document.parse "service S { void f( /* c */ 1: i32 x) }" = .ok document ∧
      tailComments document = [none, none, some "/* c */"]) ∧
    ∃ document, Document.parse "service S { void f() throws ( /* c */ 1: E e) }" = .ok document ∧
      tailComments document = [none, none, some "/* c */"] := by
  refine ⟨?_, exists_of_map_parse {} "service S { void f( /* c */ 1: i32 x) }" tailComments
      [none, none, some "/* c */"] (by decide +kernel),
    exists_of_map_parse {} "service S { void f() throws ( /* c */ 1: E e) }" tailComments
      [none, none, some "/* c */"] (by decide +kernel)⟩
  have service : reads (Spot.opening .reject .function)
      (openingState "service S { void f( /* c */ 1: i32 x) }").view =
        some ((), .ofText "void f( /* c */ 1: i32 x) \x7d".toList) := by decide +kernel
  have function : reads (Spot.opening .reject .argument)
      (.ofText "void f( /* c */ 1: i32 x) \x7d".toList) =
        some ((), ⟨"1: i32 x) \x7d".toList, [], ["/* c */"]⟩) := by decide +kernel
  exact ⟨_, .first rfl (.first rfl (.declaration .start) service) function, rfl⟩

end Parser
end ThriftIdl
