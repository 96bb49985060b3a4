/-!
# Collections with one item for each key

A keyed collection keeps its items in the order in which their keys first came, and the last item of
each key. Main statements: `Keyed.find?_insert` and `Keyed.keys_insert`.
-/

namespace ThriftIdl

variable {Item Key : Type} [DecidableEq Key] {key : Item → Key}

/-- Put an item into a list in the place of the first item with its key, or at the end. -/
def upsert (key : Item → Key) (item : Item) : List Item → List Item
  | [] => [item]
  | first :: rest => if key first = key item then item :: rest else first :: upsert key item rest

/-- The keys of a list change only when the key of the item is new; then it comes last. -/
theorem map_upsert (item : Item) (items : List Item) :
    (upsert key item items).map key =
      if key item ∈ items.map key then items.map key else items.map key ++ [key item] := by
  induction items with
  | nil => rfl
  | cons first rest unchanged =>
    by_cases same : key first = key item
    · simp [upsert, same]
    · have different : key item ≠ key first := fun equal => same equal.symm
      simp only [upsert, same, ↓reduceIte, List.map_cons, unchanged, List.mem_cons, different,
        false_or]
      split <;> rfl

/-- A list whose keys are distinct keeps them distinct. -/
theorem nodup_upsert (item : Item) {items : List Item} (distinct : (items.map key).Nodup) :
    ((upsert key item items).map key).Nodup := by
  rw [map_upsert]
  split
  · exact distinct
  · next absent =>
    refine List.nodup_append.mpr ⟨distinct, by simp, ?_⟩
    intro old member new isNew equal
    rw [List.mem_singleton.mp isNew] at equal
    exact absent (equal ▸ member)

/-- Items in the order of their keys' first coming, no two of them with the same key. -/
structure Keyed (key : Item → Key) where
  /-- The items. -/
  items : List Item
  /-- No key comes twice. -/
  distinct : (items.map key).Nodup

namespace Keyed

/-- The collection without items. -/
def empty : Keyed key where
  items := []
  distinct := List.nodup_nil

/-- Put an item in, replacing the one with its key if there is one. -/
def insert (collection : Keyed key) (item : Item) : Keyed key where
  items := upsert key item collection.items
  distinct := nodup_upsert item collection.distinct

/-- Put several items in, one after the other. -/
def insertAll (collection : Keyed key) (items : List Item) : Keyed key :=
  items.foldl insert collection

/-- The collection of the items of a list. -/
def ofList (items : List Item) : Keyed key :=
  empty.insertAll items

/-- The item with a key. -/
def find? (collection : Keyed key) (sought : Key) : Option Item :=
  collection.items.find? fun item => key item = sought

/-- The number of items. -/
def size (collection : Keyed key) : Nat :=
  collection.items.length

/-- The keys in the order of their first coming. -/
def keys (collection : Keyed key) : List Key :=
  collection.items.map key

/-- Whether two collections have the same keys and, for a given notion of sameness, the same item
for each key. The order does not matter. -/
def equals (same : Item → Item → Bool) (left right : Keyed key) : Bool :=
  left.size == right.size && left.items.all fun item =>
    match right.find? (key item) with
    | some other => same item other
    | none => false

/-- Looking up after an insertion finds the inserted item under its key and nothing new
elsewhere. -/
theorem find?_insert (collection : Keyed key) (item : Item) (sought : Key) :
    (collection.insert item).find? sought =
      if key item = sought then some item else collection.find? sought := by
  obtain ⟨items, distinct⟩ := collection
  simp only [find?, insert]
  clear distinct
  induction items with
  | nil => simp [upsert, List.find?_cons]; split <;> simp_all
  | cons first rest found =>
    by_cases same : key first = key item
    · by_cases here : key item = sought <;> simp [upsert, same, here]
    · by_cases here : key first = sought
      · have elsewhere : key item ≠ sought := fun equal => same (here.trans equal.symm)
        simp [upsert, here, elsewhere, elsewhere.symm]
      · simp only [upsert, same, ↓reduceIte, List.find?_cons, here, decide_false]
        exact found

/-- An insertion adds its key at the end unless the collection has it already. -/
theorem keys_insert (collection : Keyed key) (item : Item) :
    (collection.insert item).keys =
      if key item ∈ collection.keys then collection.keys else collection.keys ++ [key item] :=
  map_upsert item collection.items

end Keyed

end ThriftIdl
