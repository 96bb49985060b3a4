import Mathlib.Data.Finset.Card
import ThriftIdl.Proofs.Document
import ThriftIdl.Syntax.Equality

/-!
# What a collection keeps

Of the items that are put into a keyed collection one after the other, each key keeps the place of
its first item and the value of its last one (`Keyed.keeps_ofList`). Two collections are equal just
if they hold equal items under every key (`Keyed.equals_iff`), so the places do not count. The same
holds of a document, where a key is a kind and a name (`Document.keeps_ofList`).
-/

namespace ThriftIdl

variable {Item Key : Type} [DecidableEq Key] {key : Item → Key}

/-- The last of some items that has a key. -/
def lastWith? (key : Item → Key) (sought : Key) (written : List Item) : Option Item :=
  written.reverse.find? fun item => key item = sought

private theorem lastWith?_append_singleton (sought : Key) (earlier : List Item) (last : Item) :
    lastWith? key sought (earlier ++ [last]) =
      if key last = sought then some last else lastWith? key sought earlier := by
  rw [lastWith?, List.reverse_append, List.reverse_singleton, List.singleton_append,
    List.find?_cons]
  by_cases here : key last = sought
  · rw [if_pos here, decide_eq_true here]
  · rw [if_neg here, decide_eq_false here, lastWith?]

/-- The last item with a key comes before none with this key. -/
theorem lastWith?_append_cons {sought : Key} {last : Item} (here : key last = sought)
    (earlier : List Item) {later : List Item} (apart : ∀ other ∈ later, key other ≠ sought) :
    lastWith? key sought (earlier ++ last :: later) = some last := by
  induction later using List.reverseRecOn with
  | nil => rw [lastWith?_append_singleton, if_pos here]
  | append_singleton others other ih =>
      have differs : key other ≠ sought := apart other (by simp)
      rw [← List.cons_append, ← List.append_assoc, lastWith?_append_singleton, if_neg differs]
      exact ih fun other member => apart other (by simp [member])

/-! ## Keyed collections -/

namespace Keyed

/-- What a collection keeps of the items that have been put into it, written first to last. -/
structure Keeps (collection : Keyed key) (written : List Item) : Prop where
  /-- Under a key there is the last item that was put in under it. -/
  find? : ∀ sought, collection.find? sought = lastWith? key sought written
  /-- The keys stand in the order in which they first came. -/
  keys : collection.keys = (written.map key).eraseDups
  /-- There is one item for each key. -/
  size : collection.size = (written.map key).toFinset.card
  /-- The items are listed as their keys are. -/
  items : collection.items = collection.keys.filterMap collection.find?

/-- Under a key one finds the last item written with it. -/
theorem find?_ofList (written : List Item) (sought : Key) :
    (ofList written : Keyed key).find? sought = lastWith? key sought written := by
  induction written using List.reverseRecOn with
  | nil => rfl
  | append_singleton earlier last ih =>
      rw [ofList_append_singleton, find?_insert, ih, lastWith?_append_singleton]

private theorem keys_ofList (written : List Item) :
    (ofList written : Keyed key).keys = (written.map key).eraseDups := by
  induction written using List.reverseRecOn with
  | nil => rfl
  | append_singleton earlier last ih =>
      rw [ofList_append_singleton, keys_insert, ih, List.map_append, List.eraseDups_append,
        List.map_singleton, List.removeAll]
      by_cases known : key last ∈ earlier.map key
      · rw [if_pos (List.mem_eraseDups.mpr known), List.filter_cons_of_neg (by simpa using known),
          List.filter_nil, List.eraseDups_nil, List.append_nil]
      · rw [if_neg fun member => known (List.mem_eraseDups.mp member),
          List.filter_cons_of_pos (by simpa using known), List.filter_nil, List.eraseDups_cons,
          List.filter_nil, List.eraseDups_nil]

private theorem card_keys (collection : Keyed key) :
    collection.size = collection.keys.toFinset.card := by
  rw [size, keys, List.toFinset_card_of_nodup collection.distinct, List.length_map]

private theorem items_eq_filterMap (collection : Keyed key) :
    collection.items = collection.keys.filterMap collection.find? := by
  rw [keys, List.filterMap_map]
  have own : ∀ item ∈ collection.items, (collection.find? ∘ key) item = some item :=
    fun item member => collection.find?_eq_some_iff.mpr ⟨member, rfl⟩
  rw [List.filterMap_congr own, List.filterMap_some]

/-- **First place, last value.** A key keeps the place of its first item and the value of its last
one. -/
theorem keeps_ofList (written : List Item) : (ofList written : Keyed key).Keeps written where
  find? := find?_ofList written
  keys := keys_ofList written
  size := by
    rw [card_keys, keys_ofList]
    congr 1
    ext sought
    simp
  items := items_eq_filterMap _

private theorem equals_eq (same : Item → Item → Bool) (left right : Keyed key) :
    left.equals same right = (left.size == right.size && left.items.all fun item =>
      sameOptional same (some item) (right.find? (key item))) := by
  unfold equals
  congr 2
  funext item
  cases right.find? (key item) <;> rfl

/-- Two values of which either is missing are the same just if the other one is missing too. -/
theorem isSome_eq_of_sameOptional {same : Item → Item → Bool} {left right : Option Item}
    (alike : sameOptional same left right = true) : left.isSome = right.isSome := by
  cases left <;> cases right <;> first | rfl | cases alike

private theorem mem_keys_iff (collection : Keyed key) {sought : Key} :
    sought ∈ collection.keys ↔ (collection.find? sought).isSome = true := by
  simp only [keys, List.mem_map, Option.isSome_iff_exists, find?_eq_some_iff]

/-- **Equality by key.** Collections are equal just if they hold equal items under every key,
whatever their order. -/
theorem equals_iff {same : Item → Item → Bool} (left right : Keyed key) :
    left.equals same right = true ↔
      ∀ sought, sameOptional same (left.find? sought) (right.find? sought) = true := by
  rw [equals_eq, Bool.and_eq_true, beq_iff_eq, List.all_eq_true]
  constructor
  · rintro ⟨sizes, each⟩ sought
    -- All keys of the left are keys of the right, which has no more of them.
    have known : left.keys.toFinset ⊆ right.keys.toFinset := by
      intro other member
      obtain ⟨item, inside, rfl⟩ := List.mem_map.mp (List.mem_toFinset.mp member)
      rw [List.mem_toFinset, mem_keys_iff, ← isSome_eq_of_sameOptional (each item inside)]
      rfl
    have all : left.keys.toFinset = right.keys.toFinset :=
      Finset.eq_of_subset_of_card_le known (by rw [← card_keys, ← card_keys, sizes])
    have missing : (left.find? sought).isSome = (right.find? sought).isSome := by
      rw [Bool.eq_iff_iff, ← mem_keys_iff, ← mem_keys_iff, ← List.mem_toFinset, all,
        List.mem_toFinset]
    cases found : left.find? sought with
    | some item =>
        obtain ⟨member, rfl⟩ := left.find?_eq_some_iff.mp found
        exact each item member
    | none =>
        rw [found, Option.isSome_none, eq_comm, Option.isSome_eq_false_iff,
          Option.isNone_iff_eq_none] at missing
        rw [missing]
        rfl
  · intro alike
    refine ⟨?_, fun item member => ?_⟩
    · rw [card_keys, card_keys]
      congr 1
      ext sought
      rw [List.mem_toFinset, List.mem_toFinset, mem_keys_iff, mem_keys_iff,
        isSome_eq_of_sameOptional (alike sought)]
    · have here := alike (key item)
      rwa [left.find?_eq_some_iff.mpr ⟨member, rfl⟩] at here

end Keyed

/-! ## Documents -/

/-- Two keys that tell the same items apart put an item in the same place. -/
theorem upsert_congr {Key' : Type} [DecidableEq Key'] {key' : Item → Key'} {item : Item}
    {items : List Item} (alike : ∀ other ∈ items, key other = key item ↔ key' other = key' item) :
    upsert key item items = upsert key' item items := by
  induction items with
  | nil => rfl
  | cons first rest ih =>
      obtain ⟨here, later⟩ := List.forall_mem_cons.mp alike
      simp only [upsert, here, ih later]

private theorem upsertAll_congr {Key' : Type} [DecidableEq Key'] {key' : Item → Key'}
    (among : Item → Prop) (alike : ∀ first second, among first → among second →
      (key first = key second ↔ key' first = key' second)) {items more : List Item}
    (inside : ∀ item ∈ items, among item) (later : ∀ item ∈ more, among item) :
    upsertAll key items more = upsertAll key' items more := by
  induction more generalizing items with
  | nil => rfl
  | cons item more ih =>
      obtain ⟨here, later⟩ := List.forall_mem_cons.mp later
      have put : upsert key item items = upsert key' item items :=
        upsert_congr fun other member => alike other item (inside other member) here
      rw [upsertAll_cons, upsertAll_cons, put]
      refine ih (fun other member => ?_) later
      rcases mem_of_mem_upsert member with rfl | before
      · exact here
      · exact inside other before

namespace Document

/-- The declarations of one kind in a list of declarations. -/
def ofKindIn (kind : Kind) (declared : List Declaration) : List Declaration :=
  declared.filter fun declaration => declaration.kind = kind

private theorem mem_ofKindIn {kind : Kind} {declared : List Declaration}
    {declaration : Declaration} :
    declaration ∈ ofKindIn kind declared ↔
      declaration ∈ declared ∧ declaration.kind = kind := by
  simp only [ofKindIn, List.mem_filter, decide_eq_true_eq]

/-- The declarations of one kind are kept by their names. -/
theorem ofKind_ofList_eq (declared : List Declaration) (kind : Kind) :
    (ofList declared).ofKind kind =
      (Keyed.ofList (ofKindIn kind declared) : Keyed Declaration.name).items := by
  rw [ofList, ofKind_insertAll, Keyed.ofList, Keyed.items_insertAll]
  refine upsertAll_congr (fun declaration => declaration.kind = kind) ?_ ?_ ?_
  · intro first second here there
    rw [Declaration.key, Declaration.key, here, there, Prod.mk.injEq, eq_self, true_and]
  · intro declaration member
    cases member
  · exact fun declaration member => (mem_ofKindIn.mp member).2

/-- A declaration is put among those of its kind by its name. -/
theorem ofKind_insert_self (document : Document) (declaration : Declaration) :
    (document.insert declaration).ofKind declaration.kind =
      upsert Declaration.name declaration (document.ofKind declaration.kind) := by
  refine (ofKind_insertAll document [declaration] declaration.kind).trans ?_
  rw [List.filter_cons_of_pos (by simp), List.filter_nil, upsertAll_cons, upsertAll_nil]
  refine upsert_congr fun other member => ?_
  rw [Declaration.key, Declaration.key, kind_of_mem_ofKind member, Prod.mk.injEq, eq_self, true_and]

/-- A new declaration leaves the other kinds alone. -/
theorem ofKind_insert_of_ne (document : Document) (declaration : Declaration) {kind : Kind}
    (other : kind ≠ declaration.kind) :
    (document.insert declaration).ofKind kind = document.ofKind kind := by
  refine (ofKind_insertAll document [declaration] kind).trans ?_
  rw [List.filter_cons_of_neg (by simpa using Ne.symm other), List.filter_nil, upsertAll_nil]

/-- The keys of the declarations of one kind, their names in the order in which they first came. -/
theorem map_key_ofKind (declared : List Declaration) (kind : Kind) :
    ((ofList declared).ofKind kind).map Declaration.key =
      ((ofKindIn kind declared).map Declaration.name).eraseDups.map fun name => (kind, name) := by
  have keys : ((ofList declared).ofKind kind).map Declaration.key =
      (((ofList declared).ofKind kind).map Declaration.name).map fun name => (kind, name) := by
    rw [List.map_map]
    refine List.map_congr_left fun declaration member => ?_
    exact congrArg (·, declaration.name) (kind_of_mem_ofKind member)
  rw [keys, ofKind_ofList_eq]
  exact congrArg (List.map fun name => (kind, name)) (Keyed.keys_ofList _)

/-- What a document keeps of the declarations that have been put into it, written first to last. -/
structure Keeps (document : Document) (declared : List Declaration) : Prop where
  /-- Under a kind and a name there is the last declaration of that kind and name. -/
  find? : ∀ kind name, document.find? kind name = lastWith? Declaration.key (kind, name) declared
  /-- The kinds are listed in their order, and in each of them the names as they first came. -/
  listed : document.toList.map Declaration.key = Kind.all.flatMap fun kind =>
    ((ofKindIn kind declared).map Declaration.name).eraseDups.map fun name => (kind, name)
  /-- No kind and name is listed twice. -/
  once : (document.toList.map Declaration.key).Nodup
  /-- Each declaration that is listed is stored under its own kind and name. -/
  stored : ∀ declaration ∈ document.toList,
    document.find? declaration.kind declaration.name = some declaration
  /-- The kinds that are present are those of which there is a declaration. -/
  kinds : document.kinds = Kind.all.filter fun kind => !(ofKindIn kind declared).isEmpty
  /-- There is one declaration for each kind and name. -/
  size : document.size = (declared.map Declaration.key).toFinset.card
  /-- The document is empty just if it has no declarations. -/
  isEmpty : document.isEmpty = true ↔ document.size = 0
  /-- It has none only if none has been put into it. -/
  size_eq_zero : document.size = 0 ↔ declared = []

private theorem isEmpty_ofKind_ofList (declared : List Declaration) (kind : Kind) :
    ((ofList declared).ofKind kind).isEmpty = (ofKindIn kind declared).isEmpty := by
  rw [Bool.eq_iff_iff, List.isEmpty_iff, List.isEmpty_iff, ofKind_ofList_eq]
  refine ⟨fun none => ?_, fun none => by rw [none]; rfl⟩
  refine List.eq_nil_iff_forall_not_mem.mpr fun declaration member => ?_
  obtain ⟨kept, inside, -⟩ : ∃ kept ∈ (Keyed.ofList (ofKindIn kind declared) :
      Keyed Declaration.name).items, kept.name = declaration.name := Keyed.exists_mem_ofList member
  rw [none] at inside
  cases inside

/-- **First place, last value, kind by kind.** A document keeps of a list of declarations the last
one of each kind and name, in the place of the first one. -/
theorem keeps_ofList (declared : List Declaration) : (ofList declared).Keeps declared where
  find? kind name := by
    rw [Document.find?, declarations_ofList]
    exact Keyed.find?_ofList declared (kind, name)
  listed := by
    rw [toList, List.map_flatMap]
    simp only [map_key_ofKind]
  once := nodup_keys _
  stored declaration member := (find?_eq_some_iff _).mpr ⟨member, rfl, rfl⟩
  kinds := by
    refine List.filter_congr fun kind _ => ?_
    rw [containsKind, isEmpty_ofKind_ofList]
  size := by
    rw [Document.size, declarations_ofList]
    exact (Keyed.keeps_ofList declared).size
  isEmpty := by
    rw [Document.isEmpty, decide_eq_true_eq]
  size_eq_zero := by
    rw [Document.size, declarations_ofList, (Keyed.keeps_ofList declared).size,
      Finset.card_eq_zero, List.toFinset_eq_empty_iff, List.map_eq_nil_iff]

/-- The last declaration of its kind and name is the one that a document has. -/
theorem find?_ofList_append_cons (earlier : List Declaration) {last : Declaration}
    {later : List Declaration} (apart : ∀ other ∈ later, other.key ≠ last.key) :
    (ofList (earlier ++ last :: later)).find? last.kind last.name = some last :=
  ((keeps_ofList _).find? _ _).trans (lastWith?_append_cons rfl earlier apart)

/-- Documents are equal just if they hold equal declarations under every kind and name. -/
theorem same_iff (first second : Document) : first.same second = true ↔
    ∀ kind name, sameOptional Declaration.same (first.find? kind name)
      (second.find? kind name) = true := by
  rw [same, Keyed.equals_iff, Prod.forall]
  rfl

/-! ## Access by kind -/

/-- Each accessor for a kind gives what is stored under a name of that kind: the declaration found
there is always of the form that the accessor looks for. -/
structure Typed (document : Document) : Prop where
  scope? : ∀ name, document.find? .scope name =
    (document.namespace? name).map .scope
  include? : ∀ name, document.find? .inclusion name =
    (document.include? name).map .inclusion
  typedef? : ∀ name, document.find? .typedef name =
    (document.typedef? name).map .typedef
  constant? : ∀ name, document.find? .constant name =
    (document.constant? name).map .constant
  enumeration? : ∀ name, document.find? .enumeration name =
    (document.enumeration? name).map .enumeration
  service? : ∀ name, document.find? .service name =
    (document.service? name).map .service
  /-- The accessor for fields gives those of the record that is stored. -/
  fields? : ∀ kind name, ∃ found : Option Record,
    document.find? (.record kind) name = found.map (.record kind) ∧
    document.fields? (.record kind) name = found.map Record.fields

/-- What is found under a kind is of that kind, so what takes the nodes of that kind out of their
declarations takes it out. -/
theorem find?_eq_map {document : Document} {Node : Type} {kind : Kind} {name : String}
    {form : Node → Declaration} {taken : Option Node}
    (forms : ∀ declared : Declaration, declared.kind = kind → ∃ node, declared = form node)
    (missing : document.find? kind name = none → taken = none)
    (takes : ∀ node, document.find? kind name = some (form node) → taken = some node) :
    document.find? kind name = taken.map form := by
  cases found : document.find? kind name with
  | none => rw [missing found, Option.map_none]
  | some declared =>
      obtain ⟨-, isKind, -⟩ := document.find?_eq_some_iff.mp found
      obtain ⟨node, rfl⟩ := forms declared isKind
      rw [takes node found, Option.map_some]

/-- **No accessor misses what is stored.** -/
theorem typed (document : Document) : document.Typed where
  scope? name := by
    refine find?_eq_map (fun declared isKind => ?_) (fun found => by rw [namespace?, found])
      (fun node found => by rw [namespace?, found])
    cases declared with
    | scope node => exact ⟨node, rfl⟩
    | _ => cases isKind
  include? name := by
    refine find?_eq_map (fun declared isKind => ?_) (fun found => by rw [include?, found])
      (fun node found => by rw [include?, found])
    cases declared with
    | inclusion node => exact ⟨node, rfl⟩
    | _ => cases isKind
  typedef? name := by
    refine find?_eq_map (fun declared isKind => ?_) (fun found => by rw [typedef?, found])
      (fun node found => by rw [typedef?, found])
    cases declared with
    | typedef node => exact ⟨node, rfl⟩
    | _ => cases isKind
  constant? name := by
    refine find?_eq_map (fun declared isKind => ?_) (fun found => by rw [constant?, found])
      (fun node found => by rw [constant?, found])
    cases declared with
    | constant node => exact ⟨node, rfl⟩
    | _ => cases isKind
  enumeration? name := by
    refine find?_eq_map (fun declared isKind => ?_) (fun found => by rw [enumeration?, found])
      (fun node found => by rw [enumeration?, found])
    cases declared with
    | enumeration node => exact ⟨node, rfl⟩
    | _ => cases isKind
  service? name := by
    refine find?_eq_map (fun declared isKind => ?_) (fun found => by rw [service?, found])
      (fun node found => by rw [service?, found])
    cases declared with
    | service node => exact ⟨node, rfl⟩
    | _ => cases isKind
  fields? kind name := by
    rw [Document.fields?]
    cases found : document.find? (.record kind) name with
    | none => exact ⟨none, rfl, rfl⟩
    | some declared =>
        obtain ⟨-, isKind, -⟩ := document.find?_eq_some_iff.mp found
        cases declared with
        | record kind' node =>
            cases isKind
            exact ⟨some node, rfl, rfl⟩
        | _ => cases isKind

end Document

end ThriftIdl
