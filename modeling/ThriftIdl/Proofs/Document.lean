import Mathlib.Data.List.Induction
import Mathlib.Data.List.Nodup
import ThriftIdl.Document

/-!
# Documents by insertion

An insertion changes the declarations of its own kind only, and there it puts the declaration in the
place of the one of its name or else at the end. So it makes no difference whether declarations are
inserted one by one or as the list of the document that they make: `toList_insertAll_toList`.
-/

namespace ThriftIdl

variable {Item Key : Type} [DecidableEq Key] {key : Item → Key}

/-! ## Lists by insertion -/

/-- Put several items into a list, one after the other. -/
def upsertAll (key : Item → Key) (items more : List Item) : List Item :=
  more.foldl (fun sofar item => upsert key item sofar) items

@[simp] theorem upsertAll_nil (items : List Item) : upsertAll key items [] = items := rfl

@[simp] theorem upsertAll_cons (items : List Item) (item : Item) (more : List Item) :
    upsertAll key items (item :: more) = upsertAll key (upsert key item items) more := rfl

private theorem upsertAll_append (items first second : List Item) :
    upsertAll key items (first ++ second) = upsertAll key (upsertAll key items first) second :=
  List.foldl_append

/-- The later of two items with one key takes the place of the earlier. -/
theorem upsert_upsert {first second : Item} (same : key first = key second) (items : List Item) :
    upsert key second (upsert key first items) = upsert key second items := by
  induction items with
  | nil => simp [upsert, same]
  | cons item others ih =>
      by_cases here : key item = key second
      · simp [upsert, here, same]
      · simp [upsert, here, same, ih]

/-- An item that has its place already is put there before another one as well as after it. -/
theorem upsert_comm {item other : Item} {items : List Item} (present : key item ∈ items.map key)
    (apart : key item ≠ key other) :
    upsert key item (upsert key other items) = upsert key other (upsert key item items) := by
  induction items with
  | nil => simp at present
  | cons first others ih =>
      by_cases isOther : key first = key other
      · have isNot : key first ≠ key item := fun same => apart (same.symm.trans isOther)
        have isNot' : key other ≠ key item := fun same => apart same.symm
        simp [upsert, isOther, isNot']
      · by_cases isItem : key first = key item
        · simp [upsert, isItem, apart]
        · have present : key item ∈ others.map key := by
            simpa [Ne.symm isItem] using present
          simp [upsert, isOther, isItem, ih present]

private theorem mem_map_upsert_self (item : Item) (items : List Item) :
    key item ∈ (upsert key item items).map key := by
  rw [map_upsert]
  split
  · assumption
  · simp

/-- The place of an item that is there already does not depend on what is put in later under other
keys. -/
theorem upsert_upsertAll {item : Item} {items more : List Item} (present : key item ∈ items.map key)
    (absent : key item ∉ more.map key) :
    upsert key item (upsertAll key items more) = upsertAll key (upsert key item items) more := by
  induction more generalizing items with
  | nil => rfl
  | cons other later ih =>
      simp only [List.map_cons, List.mem_cons, not_or] at absent
      have presentAfter : key item ∈ (upsert key other items).map key := by
        rw [map_upsert]
        split
        · exact present
        · exact List.mem_append_left _ present
      rw [upsertAll_cons, upsertAll_cons, ih presentAfter absent.2, upsert_comm present absent.1]

/-- What an insertion into a list of distinct keys does: it adds the item at the end, or it takes
the place of the one item with its key. -/
theorem upsert_cases (item : Item) {items : List Item} (distinct : (items.map key).Nodup) :
    key item ∉ items.map key ∧ upsert key item items = items ++ [item] ∨
      ∃ front old back, items = front ++ old :: back ∧ key old = key item ∧
        key item ∉ back.map key ∧ upsert key item items = front ++ item :: back := by
  induction items with
  | nil => exact .inl ⟨by simp, rfl⟩
  | cons first others ih =>
      simp only [List.map_cons, List.nodup_cons] at distinct
      by_cases same : key first = key item
      · exact .inr ⟨[], first, others, rfl, same, same ▸ distinct.1, by simp [upsert, same]⟩
      · rcases ih distinct.2 with ⟨absent, added⟩ | ⟨front, old, back, rfl, isKey, absent, put⟩
        · exact .inl ⟨by simpa [Ne.symm same] using absent, by simp [upsert, same, added]⟩
        · exact .inr ⟨first :: front, old, back, rfl, isKey, absent, by simp [upsert, same, put]⟩

private theorem nodup_upsertAll {items : List Item} (distinct : (items.map key).Nodup)
    (more : List Item) :
    ((upsertAll key items more).map key).Nodup := by
  induction more generalizing items with
  | nil => exact distinct
  | cons item later ih => exact ih (nodup_upsert item distinct)

/-- Items with distinct keys are put one after the other. -/
theorem upsertAll_of_nodup {items more : List Item} (distinct : ((items ++ more).map key).Nodup) :
    upsertAll key items more = items ++ more := by
  induction more generalizing items with
  | nil => simp
  | cons item later ih =>
      have whole : items ++ item :: later = items ++ [item] ++ later := by simp
      rw [whole] at distinct
      have shorter : ((items ++ [item]).map key).Nodup := by
        rw [List.map_append] at distinct
        exact (List.nodup_append.mp distinct).1
      have added : upsert key item items = items ++ [item] := by
        rw [List.map_append, List.nodup_append] at shorter
        obtain ⟨distinctItems, -, apart⟩ := shorter
        rcases upsert_cases item distinctItems with
          ⟨-, added⟩ | ⟨front, old, back, rfl, isKey, -, -⟩
        · exact added
        · exact absurd isKey (apart _ (by simp) _ (by simp))
      rw [upsertAll_cons, added, whole, ih distinct]

/-- What is in a list after an insertion was there before or is the item itself. -/
theorem mem_of_mem_upsert {item other : Item} {items : List Item}
    (member : other ∈ upsert key item items) : other = item ∨ other ∈ items := by
  induction items with
  | nil => exact .inl (List.mem_singleton.mp member)
  | cons first rest ih =>
      unfold upsert at member
      split at member
      · exact (List.mem_cons.mp member).imp_right (List.mem_cons_of_mem first)
      · rcases List.mem_cons.mp member with rfl | later
        · exact .inr (by simp)
        · exact (ih later).imp_right (List.mem_cons_of_mem first)

private theorem mem_of_mem_upsertAll {item : Item} {items more : List Item}
    (member : item ∈ upsertAll key items more) : item ∈ items ∨ item ∈ more := by
  induction more generalizing items with
  | nil => exact .inl member
  | cons first later ih =>
      rcases ih member with before | after
      · rcases mem_of_mem_upsert before with rfl | before
        · exact .inr (by simp)
        · exact .inl before
      · exact .inr (List.mem_cons_of_mem first after)

/-- A change of the items that keeps their keys may be made before an insertion or after it. -/
theorem upsert_map {Image : Type} {key' : Image → Key} {change : Item → Image}
    (keeps : ∀ item, key' (change item) = key item) (item : Item) (items : List Item) :
    upsert key' (change item) (items.map change) = (upsert key item items).map change := by
  induction items with
  | nil => rfl
  | cons first rest ih =>
      rw [List.map_cons, upsert, upsert, keeps, keeps, ih]
      split <;> rfl

private theorem upsertAll_map {Image : Type} {key' : Image → Key} {change : Item → Image}
    (keeps : ∀ item, key' (change item) = key item) (items more : List Item) :
    upsertAll key' (items.map change) (more.map change) =
      (upsertAll key items more).map change := by
  induction more generalizing items with
  | nil => rfl
  | cons item later ih => rw [List.map_cons, upsertAll_cons, upsertAll_cons, upsert_map keeps, ih]

/-- Inserting item after item is replacing or adding item after item. -/
theorem Keyed.items_insertAll (collection : Keyed key) (more : List Item) :
    (collection.insertAll more).items = upsertAll key collection.items more := by
  induction more generalizing collection with
  | nil => rfl
  | cons item later ih => exact ih (collection.insert item)

/-- Items with distinct keys are all kept. -/
theorem Keyed.items_ofList {items : List Item} (distinct : (items.map key).Nodup) :
    (Keyed.ofList items : Keyed key).items = items := by
  rw [Keyed.ofList, Keyed.items_insertAll]
  exact upsertAll_of_nodup distinct

/-- A collection is built alike from items that are changed without changing their keys. -/
theorem Keyed.items_ofList_map {Image : Type} {key' : Image → Key} {change : Item → Image}
    (keeps : ∀ item, key' (change item) = key item) (items : List Item) :
    (Keyed.ofList (items.map change) : Keyed key').items =
      (Keyed.ofList items : Keyed key).items.map change := by
  rw [ofList, ofList, items_insertAll, items_insertAll]
  exact upsertAll_map keeps [] items

/-- Nothing is kept but what was there. -/
theorem Keyed.mem_of_mem_ofList {items : List Item} {item : Item}
    (member : item ∈ (Keyed.ofList items : Keyed key).items) : item ∈ items := by
  rw [Keyed.ofList, Keyed.items_insertAll] at member
  exact (mem_of_mem_upsertAll member).resolve_left (List.not_mem_nil)

/-- Under a key there is just the item that has it. -/
theorem Keyed.find?_eq_some_iff (collection : Keyed key) {sought : Key} {item : Item} :
    collection.find? sought = some item ↔ item ∈ collection.items ∧ key item = sought := by
  constructor
  · intro found
    exact ⟨List.mem_of_find?_eq_some found, by simpa using List.find?_some found⟩
  · rintro ⟨member, rfl⟩
    obtain ⟨items, distinct⟩ := collection
    simp only [find?] at member ⊢
    induction items with
    | nil => cases member
    | cons first rest ih =>
        obtain ⟨fresh, distinct⟩ := List.nodup_cons.mp distinct
        rcases List.mem_cons.mp member with rfl | later
        · simp
        · have apart : key first ≠ key item :=
            fun same => fresh (same ▸ List.mem_map_of_mem later)
          rw [List.find?_cons_of_neg (by simpa using apart)]
          exact ih distinct later

/-- The last item of a list is inserted last. -/
theorem Keyed.ofList_append_singleton (items : List Item) (item : Item) :
    (Keyed.ofList (items ++ [item]) : Keyed key) = (Keyed.ofList items).insert item :=
  List.foldl_append

omit [DecidableEq Key] in
/-- An item of a list with one more item at its end is that one or stands before it. -/
theorem append_singleton_eq_iff {earlier front back : List Item} {last item : Item} :
    earlier ++ [last] = front ++ item :: back ↔
      (earlier = front ∧ last = item ∧ back = []) ∨
        ∃ inner, earlier = front ++ item :: inner ∧ back = inner ++ [last] := by
  constructor
  · intro split
    cases back using List.reverseRecOn with
    | nil =>
        obtain ⟨same, ended⟩ := List.append_inj' split rfl
        exact .inl ⟨same, List.singleton_inj.mp ended, rfl⟩
    | append_singleton inner final =>
        rw [← List.cons_append, ← List.append_assoc] at split
        obtain ⟨same, ended⟩ := List.append_inj' split rfl
        exact .inr ⟨inner, same, by rw [List.singleton_inj.mp ended]⟩
  · rintro (⟨rfl, rfl, rfl⟩ | ⟨inner, rfl, rfl⟩)
    · rfl
    · simp

/-- **The last item of each key is kept.** -/
theorem Keyed.mem_ofList_iff {items : List Item} {item : Item} :
    item ∈ (Keyed.ofList items : Keyed key).items ↔
      ∃ front back, items = front ++ item :: back ∧ key item ∉ back.map key := by
  -- Induction from the right, since only the last item of a key stays.
  induction items using List.reverseRecOn with
  | nil => simp [Keyed.ofList, Keyed.insertAll, Keyed.empty]
  | append_singleton earlier last ih =>
      have lookup (collection : Keyed key) :
          collection.find? (key item) = some item ↔ item ∈ collection.items :=
        (Keyed.find?_eq_some_iff collection).trans (and_iff_left rfl)
      rw [← lookup, ofList_append_singleton, Keyed.find?_insert]
      simp only [append_singleton_eq_iff]
      split
      · next same =>
          constructor
          · intro replaced
            cases replaced
            exact ⟨earlier, [], .inl ⟨rfl, rfl, rfl⟩, by simp⟩
          · rintro ⟨front, back, ⟨-, rfl, -⟩ | ⟨inner, -, rfl⟩, absent⟩
            · rfl
            · simp [same] at absent
      · next apart =>
          rw [lookup, ih]
          constructor
          · rintro ⟨front, inner, split, absent⟩
            refine ⟨front, inner ++ [last], .inr ⟨inner, split, rfl⟩, ?_⟩
            simpa [Ne.symm apart] using absent
          · rintro ⟨front, back, ⟨-, rfl, -⟩ | ⟨inner, split, rfl⟩, absent⟩
            · exact absurd rfl apart
            · rw [List.map_append, List.mem_append, not_or] at absent
              exact ⟨front, inner, split, absent.1⟩

/-- No key is lost. -/
theorem Keyed.exists_mem_ofList {items : List Item} {item : Item} (member : item ∈ items) :
    ∃ kept ∈ (Keyed.ofList items : Keyed key).items, key kept = key item := by
  induction items using List.reverseRecOn with
  | nil => cases member
  | append_singleton earlier last ih =>
      have inserted : key item ∈ ((Keyed.ofList earlier).insert last : Keyed key).keys := by
        rw [Keyed.keys_insert]
        rcases List.mem_append.mp member with before | here
        · obtain ⟨kept, present, same⟩ := ih before
          have there : key item ∈ (Keyed.ofList earlier : Keyed key).keys :=
            List.mem_map.mpr ⟨kept, present, same⟩
          split
          · exact there
          · exact List.mem_append_left _ there
        · rw [List.mem_singleton.mp here]
          split
          · assumption
          · exact List.mem_append_right _ (List.mem_singleton_self _)
      rw [ofList_append_singleton]
      exact List.mem_map.mp inserted

omit [DecidableEq Key] in
private theorem Keyed.eq_of_items {first second : Keyed key} (same : first.items = second.items) :
    first = second := by
  cases first
  cases second
  cases same
  rfl

/-- A collection is that of its items. -/
@[simp] theorem Keyed.ofList_items (collection : Keyed key) :
    Keyed.ofList collection.items = collection :=
  eq_of_items (items_ofList collection.distinct)

/-- **Inserting what was collected** is inserting the items that it was collected from. -/
theorem upsertAll_upsertAll (items more : List Item) :
    upsertAll key items (upsertAll key [] more) = upsertAll key items more := by
  induction more using List.reverseRecOn with
  | nil => rfl
  | append_singleton earlier item ih =>
      have distinct : ((upsertAll key [] earlier).map key).Nodup :=
        nodup_upsertAll (by simp) earlier
      rw [upsertAll_append, upsertAll_append, upsertAll_cons, upsertAll_cons, upsertAll_nil,
        upsertAll_nil, ← ih]
      rcases upsert_cases item distinct with
        ⟨_, added⟩ | ⟨front, old, back, same, isKey, absent, put⟩
      · rw [added, upsertAll_append, upsertAll_cons, upsertAll_nil]
      · rw [put, same, upsertAll_append, upsertAll_append, upsertAll_cons, upsertAll_cons,
          upsert_upsertAll (isKey ▸ mem_map_upsert_self old _) absent, upsert_upsert isKey]

/-- A choice of items by their keys is kept up by insertions. -/
theorem filter_upsert {chosen : Item → Bool} (byKey : ∀ first second, key first = key second →
    chosen first = chosen second) (item : Item) (items : List Item) :
    (upsert key item items).filter chosen =
      if chosen item then upsert key item (items.filter chosen) else items.filter chosen := by
  induction items with
  | nil => by_cases isChosen : chosen item <;> simp [upsert, isChosen]
  | cons first others ih =>
      by_cases same : key first = key item
      · have alike := byKey first item same
        by_cases isChosen : chosen item <;> simp [upsert, same, alike, isChosen]
      · by_cases firstChosen : chosen first <;> by_cases isChosen : chosen item <;>
          simp [upsert, same, firstChosen, isChosen, ih]

private theorem filter_upsertAll {chosen : Item → Bool}
    (byKey : ∀ first second, key first = key second →
    chosen first = chosen second) (items more : List Item) :
    (upsertAll key items more).filter chosen =
      upsertAll key (items.filter chosen) (more.filter chosen) := by
  induction more generalizing items with
  | nil => rfl
  | cons item later ih =>
      rw [upsertAll_cons, ih, filter_upsert byKey]
      by_cases isChosen : chosen item <;> simp [isChosen]

/-! ## Documents -/

namespace Kind

/-- Each kind is listed once. -/
theorem nodup_all : all.Nodup := by
  decide

/-- Different kinds have different keywords. -/
theorem keyword_injective : Function.Injective keyword := by
  intro kind other same
  have found := ofKeyword?_keyword kind
  rw [same, ofKeyword?_keyword, Option.some.injEq] at found
  exact found.symm

end Kind

namespace Document

/-- Inserting declarations acts on the stored declarations by their keys. -/
theorem items_insertAll (document : Document) (declared : List Declaration) :
    (document.insertAll declared).declarations.items =
      upsertAll Declaration.key document.declarations.items declared := by
  induction declared generalizing document with
  | nil => rfl
  | cons declaration later ih => exact ih (document.insert declaration)

/-- The declarations of the document of a list are collected from the list. -/
theorem declarations_ofList (declared : List Declaration) :
    (ofList declared).declarations = Keyed.ofList declared := by
  refine Keyed.eq_of_items ?_
  rw [ofList, items_insertAll, Keyed.ofList, Keyed.items_insertAll]
  rfl

/-- Insertions of one kind are made among the declarations of that kind. -/
theorem ofKind_insertAll (document : Document) (declared : List Declaration) (kind : Kind) :
    (document.insertAll declared).ofKind kind =
      upsertAll Declaration.key (document.ofKind kind)
        (declared.filter fun declaration => declaration.kind = kind) := by
  unfold ofKind
  rw [items_insertAll, filter_upsertAll]
  intro first second same
  have kinds : first.kind = second.kind := congrArg Prod.fst same
  rw [kinds]

/-- What is stored under a kind is of that kind. -/
theorem kind_of_mem_ofKind {document : Document} {kind : Kind} {declaration : Declaration}
    (member : declaration ∈ document.ofKind kind) : declaration.kind = kind := by
  simpa using (List.mem_filter.mp member).2

/-- The list of a document has the declarations of each kind in their order. -/
theorem filter_toList (document : Document) (kind : Kind) :
    (document.toList.filter fun declaration => declaration.kind = kind) = document.ofKind kind := by
  have part (other : Kind) : ((document.ofKind other).filter fun declaration =>
      declaration.kind = kind) = if other = kind then document.ofKind kind else [] := by
    split
    · next same =>
        subst same
        exact List.filter_eq_self.mpr fun _ member => by simpa using kind_of_mem_ofKind member
    · next apart =>
        refine List.filter_eq_nil_iff.mpr fun _ member => ?_
        simpa [kind_of_mem_ofKind member] using apart
  simp only [toList, Kind.all, List.flatMap_cons, List.flatMap_nil, List.filter_append, part,
    List.filter_nil]
  rcases kind with _ | _ | _ | _ | _ | kind | _
  case record => cases kind <;> simp
  all_goals simp

/-- Listing a document kind by kind neither loses nor adds a declaration. -/
theorem mem_toList_iff (document : Document) {declaration : Declaration} :
    declaration ∈ document.toList ↔ declaration ∈ document.declarations.items := by
  simp only [toList, List.mem_flatMap, ofKind, List.mem_filter, decide_eq_true_eq]
  constructor
  · rintro ⟨kind, -, member, -⟩
    exact member
  · intro member
    exact ⟨declaration.kind, Kind.mem_all _, member, rfl⟩

/-- Under a kind and a name there is just the declaration of this kind and name. -/
theorem find?_eq_some_iff (document : Document) {kind : Kind} {name : String}
    {declaration : Declaration} : document.find? kind name = some declaration ↔
      declaration ∈ document.toList ∧ declaration.kind = kind ∧ declaration.name = name := by
  rw [find?, Keyed.find?_eq_some_iff, mem_toList_iff, Declaration.key, Prod.mk.injEq]

/-- Nothing is in the document of a list but what is in the list. -/
theorem mem_of_mem_toList_ofList {declared : List Declaration} {declaration : Declaration}
    (member : declaration ∈ (ofList declared).toList) : declaration ∈ declared := by
  rw [mem_toList_iff, ofList, items_insertAll] at member
  exact (mem_of_mem_upsertAll member).resolve_left List.not_mem_nil

private theorem toList_congr {first second : Document}
    (same : ∀ kind, first.ofKind kind = second.ofKind kind) : first.toList = second.toList := by
  unfold toList
  rw [funext same]

/-- **Inserting the declarations of a document** in their order is inserting those that the document
was made from. -/
theorem toList_insertAll_toList (document : Document) (declared : List Declaration) :
    (document.insertAll (ofList declared).toList).toList =
      (document.insertAll declared).toList := by
  refine toList_congr fun kind => ?_
  rw [ofKind_insertAll, ofKind_insertAll, filter_toList, ofList, ofKind_insertAll]
  exact upsertAll_upsertAll _ _

/-- Declarations of one kind with distinct names are all kept. -/
theorem ofKind_ofList {declared : List Declaration} {kind : Kind}
    (distinct : ((declared.filter fun declaration => declaration.kind = kind).map
      Declaration.key).Nodup) :
    (ofList declared).ofKind kind = declared.filter fun declaration => declaration.kind = kind := by
  rw [ofList, ofKind_insertAll]
  exact upsertAll_of_nodup distinct

/-- The names of the declarations of one kind are distinct. -/
theorem nodup_ofKind (document : Document) (kind : Kind) :
    ((document.ofKind kind).map Declaration.key).Nodup :=
  (List.filter_sublist.map _).nodup document.declarations.distinct

/-- A document lists no two declarations of one kind and name. -/
theorem nodup_keys (document : Document) : (document.toList.map Declaration.key).Nodup := by
  rw [toList, List.map_flatMap, List.nodup_flatMap]
  refine ⟨fun kind _ => document.nodup_ofKind kind, ?_⟩
  refine Kind.nodup_all.imp fun {first second} apart key here there => ?_
  obtain ⟨declaration, member, rfl⟩ := List.mem_map.mp here
  obtain ⟨other, member', same⟩ := List.mem_map.mp there
  have kinds : other.kind = declaration.kind := congrArg Prod.fst same
  rw [kind_of_mem_ofKind member, kind_of_mem_ofKind member'] at kinds
  exact apart kinds.symm

/-- A document lists just what it holds. -/
theorem perm_toList (document : Document) :
    document.toList.Perm document.declarations.items := by
  refine (List.perm_ext_iff_of_nodup document.nodup_keys.of_map
    document.declarations.distinct.of_map).mpr fun declaration => ?_
  exact document.mem_toList_iff

/-- The list of a document has each of its declarations once. -/
theorem length_toList (document : Document) : document.toList.length = document.size :=
  document.perm_toList.length_eq

/-- The document of two lists is that of the first with the second inserted. -/
theorem ofList_append (first second : List Declaration) :
    ofList (first ++ second) = (ofList first).insertAll second :=
  List.foldl_append

end Document

end ThriftIdl
