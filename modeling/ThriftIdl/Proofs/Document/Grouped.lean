import Mathlib.Algebra.Order.Ring.Nat
import ThriftIdl.Proofs.Document.Keeping

/-!
# Documents kept by kind and then by name

A document may as well be kept in two levels, by kind and then by name. Here it is, with the
insertion that makes a level for a kind when its first declaration comes. Every insertion keeps each
declaration under its own kind and no kind without declarations (`Grouped.Represents.insert`), so
the two levels show what the document shows: the kinds, the list of the declarations, their number,
what is found under a kind and a name, and which documents are equal (`Grouped.represents_ofList`,
`Grouped.Represents.shows`, `Grouped.Represents.same_eq`).
-/

namespace ThriftIdl

/-- Declarations by kind and then by name. -/
structure Grouped where
  /-- The declarations of a kind, if the kind is present. -/
  group? : Kind → Option (Keyed Declaration.name)

namespace Grouped

/-- No kind is present. -/
def empty : Grouped where
  group? _ := none

/-- Put a declaration in under its name, among those of its kind. -/
def insert (grouped : Grouped) (declaration : Declaration) : Grouped where
  group? := Function.update grouped.group? declaration.kind
    (some (((grouped.group? declaration.kind).getD .empty).insert declaration))

/-- Put declarations in, one after the other. -/
def ofList (declared : List Declaration) : Grouped :=
  declared.foldl insert empty

/-- The kinds that are present in their order, each with its declarations. -/
def groups (grouped : Grouped) : List (Kind × Keyed Declaration.name) :=
  Kind.all.filterMap fun kind => (grouped.group? kind).map (kind, ·)

/-- The kinds that are present. -/
def kinds (grouped : Grouped) : List Kind :=
  grouped.groups.map Prod.fst

/-- All declarations, group by group. -/
def toList (grouped : Grouped) : List Declaration :=
  grouped.groups.flatMap fun group => group.2.items

/-- The number of declarations. -/
def size (grouped : Grouped) : Nat :=
  (grouped.groups.map fun group => group.2.size).sum

/-- Whether no kind is present. -/
def isEmpty (grouped : Grouped) : Bool :=
  grouped.groups.isEmpty

/-- The declaration with a name among those of a kind. -/
def find? (grouped : Grouped) (kind : Kind) (name : String) : Option Declaration :=
  (grouped.group? kind).bind fun group => group.find? name

/-- Whether two groups are of one kind and have the same declarations. -/
def sameGroup (group other : Kind × Keyed Declaration.name) : Bool :=
  group.1 == other.1 && group.2.equals Declaration.same other.2

/-- Whether the same kinds are present and each has the same declarations. -/
def same (left right : Grouped) : Bool :=
  sameList sameGroup left.groups right.groups

section Insertion

variable (grouped : Grouped) (declaration : Declaration)

/-- The group of the kind of a new declaration is there afterwards, with the declaration in it. -/
@[simp] theorem group?_insert_self : (grouped.insert declaration).group? declaration.kind =
    some (((grouped.group? declaration.kind).getD .empty).insert declaration) :=
  Function.update_self ..

private theorem group?_insert_of_ne {kind : Kind} (other : kind ≠ declaration.kind) :
    (grouped.insert declaration).group? kind = grouped.group? kind :=
  Function.update_of_ne other ..

end Insertion

/-- The groups are those of a document: under each kind that is present there are the declarations
of that kind, at least one. -/
structure Represents (grouped : Grouped) (document : Document) : Prop where
  absent : ∀ kind, grouped.group? kind = none → document.ofKind kind = []
  present : ∀ kind group, grouped.group? kind = some group →
    group.items = document.ofKind kind ∧ group.items ≠ []

namespace Represents

variable {grouped : Grouped} {document : Document}

/-- The declarations of a kind, whether it is present or not. -/
theorem items_getD (represents : grouped.Represents document) (kind : Kind) :
    ((grouped.group? kind).getD .empty).items = document.ofKind kind := by
  cases here : grouped.group? kind with
  | none => exact (represents.absent kind here).symm
  | some group => exact (represents.present kind group here).1

/-- A kind is present just if there are declarations of it. -/
theorem isSome_iff (represents : grouped.Represents document) (kind : Kind) :
    (grouped.group? kind).isSome = true ↔ document.ofKind kind ≠ [] := by
  cases here : grouped.group? kind with
  | none => simp [represents.absent kind here]
  | some group =>
      obtain ⟨items, inhabited⟩ := represents.present kind group here
      simpa [← items] using inhabited

private theorem empty : Grouped.empty.Represents Document.empty where
  absent _ _ := rfl
  present _ _ here := by cases here

/-- **An insertion** keeps the declarations under their own kinds, and no kind without one. -/
theorem insert (represents : grouped.Represents document) (declaration : Declaration) :
    (grouped.insert declaration).Represents (document.insert declaration) := by
  constructor
  · intro kind missing
    by_cases own : kind = declaration.kind
    · subst own
      rw [group?_insert_self] at missing
      cases missing
    · rw [group?_insert_of_ne _ _ own] at missing
      rw [Document.ofKind_insert_of_ne _ _ own, represents.absent kind missing]
  · intro kind group here
    by_cases own : kind = declaration.kind
    · subst own
      rw [group?_insert_self, Option.some.injEq] at here
      subst here
      have put : (((grouped.group? declaration.kind).getD .empty).insert declaration).items =
          (document.insert declaration).ofKind declaration.kind := by
        rw [Document.ofKind_insert_self, ← represents.items_getD]
        rfl
      refine ⟨put, fun none => ?_⟩
      have found := Keyed.find?_insert ((grouped.group? declaration.kind).getD .empty) declaration
        declaration.name
      rw [Keyed.find?, none, if_pos rfl] at found
      cases found
    · rw [group?_insert_of_ne _ _ own] at here
      rw [Document.ofKind_insert_of_ne _ _ own]
      exact represents.present kind group here

private theorem insertAll (represents : grouped.Represents document) (declared : List Declaration) :
    (declared.foldl Grouped.insert grouped).Represents (document.insertAll declared) := by
  induction declared generalizing grouped document with
  | nil => exact represents
  | cons declaration later ih => exact ih (represents.insert declaration)

end Represents

/-- **Every sequence of insertions** makes the two levels of the document that it makes. -/
theorem represents_ofList (declared : List Declaration) :
    (ofList declared).Represents (Document.ofList declared) :=
  Represents.empty.insertAll declared

/-! ## What the two levels show -/

/-- What can be seen of the groups is what can be seen of a document. -/
structure Shows (grouped : Grouped) (document : Document) : Prop where
  kinds : grouped.kinds = document.kinds
  toList : grouped.toList = document.toList
  size : grouped.size = document.size
  isEmpty : grouped.isEmpty = document.isEmpty
  find? : ∀ kind name, grouped.find? kind name = document.find? kind name

namespace Represents

variable {grouped other : Grouped} {document document' : Document}

private theorem kinds_eq (represents : grouped.Represents document) :
    grouped.kinds = document.kinds := by
  have each (kind : Kind) : ((grouped.group? kind).map (kind, ·)).map Prod.fst =
      if document.containsKind kind then some kind else none := by
    have here := represents.isSome_iff kind
    cases found : grouped.group? kind <;> simp_all [Document.containsKind]
  rw [kinds, groups, List.map_filterMap, Document.kinds, ← List.filterMap_eq_filter]
  refine List.filterMap_congr fun kind _ => ?_
  rw [each]
  rfl

private theorem toList_eq (represents : grouped.Represents document) :
    grouped.toList = document.toList := by
  rw [toList, groups, Document.toList]
  induction Kind.all with
  | nil => rfl
  | cons kind later ih =>
      rw [List.flatMap_cons, ← ih]
      cases here : grouped.group? kind with
      | none => rw [List.filterMap_cons_none (by rw [here]; rfl), represents.absent kind here,
          List.nil_append]
      | some group => rw [List.filterMap_cons_some (by rw [here]; rfl), List.flatMap_cons,
          (represents.present kind group here).1]

private theorem size_eq (represents : grouped.Represents document) :
    grouped.size = document.size := by
  rw [← document.length_toList, ← represents.toList_eq, toList, List.length_flatMap]
  rfl

private theorem isEmpty_eq (represents : grouped.Represents document) :
    grouped.isEmpty = document.isEmpty := by
  have groups : grouped.isEmpty = grouped.kinds.isEmpty := by
    rw [isEmpty, kinds, List.isEmpty_map]
  rw [groups, represents.kinds_eq, Bool.eq_iff_iff, List.isEmpty_iff, Document.kinds,
    List.filter_eq_nil_iff, Document.isEmpty, decide_eq_true_eq, ← document.length_toList,
    List.length_eq_zero_iff, Document.toList, List.flatMap_eq_nil_iff]
  refine forall₂_congr fun kind _ => ?_
  rw [Document.containsKind, Bool.not_eq_true', Bool.not_eq_false, List.isEmpty_iff]

private theorem find?_eq (represents : grouped.Represents document) (kind : Kind) (name : String) :
    grouped.find? kind name = document.find? kind name := by
  have among : document.find? kind name =
      (document.ofKind kind).find? fun declaration => declaration.name = name := by
    rw [Document.ofKind, List.find?_filter, Document.find?, Keyed.find?]
    congr 1
    funext declaration
    simp [Declaration.key]
  rw [among, ← represents.items_getD kind, find?]
  cases grouped.group? kind <;> rfl

/-- **The two levels show the document.** -/
theorem shows (represents : grouped.Represents document) : grouped.Shows document where
  kinds := represents.kinds_eq
  toList := represents.toList_eq
  size := represents.size_eq
  isEmpty := represents.isEmpty_eq
  find? := represents.find?_eq

end Represents

/-! ## Equal groups -/

/-- A group whose kind the others lack has nothing to be paired up with. -/
theorem sameList_apart {group : Kind × Keyed Declaration.name}
    {later others : List (Kind × Keyed Declaration.name)}
    (apart : ∀ other ∈ others, other.1 ≠ group.1) :
    sameList sameGroup (group :: later) others = false ∧
      sameList sameGroup others (group :: later) = false := by
  cases others with
  | nil => exact ⟨rfl, rfl⟩
  | cons other others =>
      have here := apart other List.mem_cons_self
      simp [sameList, sameGroup, here, Ne.symm here]

/-- Groups that are paired up in the order of their kinds are those of the same kinds. -/
theorem sameList_groups_iff {left right : Kind → Option (Keyed Declaration.name)}
    {kinds : List Kind} (distinct : kinds.Nodup) :
    sameList sameGroup (kinds.filterMap fun kind => (left kind).map (kind, ·))
      (kinds.filterMap fun kind => (right kind).map (kind, ·)) = true ↔
    ∀ kind ∈ kinds, sameOptional (Keyed.equals Declaration.same) (left kind) (right kind) =
      true := by
  induction kinds with
  | nil => simp [sameList]
  | cons kind later ih =>
      obtain ⟨fresh, distinct⟩ := List.nodup_cons.mp distinct
      have apart (groups : Kind → Option (Keyed Declaration.name)) :
          ∀ other ∈ later.filterMap fun kind => (groups kind).map (kind, ·), other.1 ≠ kind := by
        intro other member same
        obtain ⟨kind', inside, found⟩ := List.mem_filterMap.mp member
        obtain ⟨group, -, rfl⟩ := Option.map_eq_some_iff.mp found
        exact fresh (same ▸ inside)
      rw [List.forall_mem_cons, ← ih distinct]
      cases here : left kind with
      | none =>
          rw [List.filterMap_cons_none (by rw [here]; rfl)]
          cases there : right kind with
          | none =>
              rw [List.filterMap_cons_none (by rw [there]; rfl)]
              exact (and_iff_right rfl).symm
          | some group =>
              rw [List.filterMap_cons_some (by rw [there]; rfl), (sameList_apart (apart left)).2]
              simp [sameOptional]
      | some group =>
          rw [List.filterMap_cons_some (by rw [here]; rfl)]
          cases there : right kind with
          | none =>
              rw [List.filterMap_cons_none (by rw [there]; rfl), (sameList_apart (apart right)).1]
              simp [sameOptional]
          | some group' =>
              rw [List.filterMap_cons_some (by rw [there]; rfl)]
              simp [sameList, sameGroup, sameOptional]

/-- Levels that are not empty are equal just if the same is found in them under every name. -/
theorem sameOptional_equals_iff {left right : Option (Keyed Declaration.name)}
    (inhabited : ∀ group, left = some group → group.items ≠ [])
    (inhabited' : ∀ group, right = some group → group.items ≠ []) :
    sameOptional (Keyed.equals Declaration.same) left right = true ↔
      ∀ name, sameOptional Declaration.same (left.bind fun group => group.find? name)
        (right.bind fun group => group.find? name) = true := by
  -- In a level that is there something is found, so the other level has to be there.
  have found {group : Keyed Declaration.name} (some : group.items ≠ []) :
      ∃ name declaration, group.find? name = Option.some declaration := by
    obtain ⟨declaration, member⟩ := List.exists_mem_of_ne_nil _ some
    exact ⟨declaration.name, declaration, group.find?_eq_some_iff.mpr ⟨member, rfl⟩⟩
  cases left with
  | none =>
      cases right with
      | none => simp [sameOptional]
      | some group =>
          obtain ⟨name, declaration, here⟩ := found (inhabited' group rfl)
          refine iff_of_false (by simp [sameOptional]) fun all => ?_
          simpa [here, sameOptional] using all name
  | some group =>
      cases right with
      | none =>
          obtain ⟨name, declaration, here⟩ := found (inhabited group rfl)
          refine iff_of_false (by simp [sameOptional]) fun all => ?_
          simpa [here, sameOptional] using all name
      | some group' => exact Keyed.equals_iff group group'

/-- **Equal levels** are those of equal documents. -/
theorem Represents.same_eq {left right : Grouped} {document document' : Document}
    (represents : left.Represents document) (represents' : right.Represents document') :
    left.same right = document.same document' := by
  rw [Bool.eq_iff_iff, Document.same_iff]
  refine (sameList_groups_iff Kind.nodup_all).trans ?_
  refine forall_congr' fun kind => (imp_iff_right (Kind.mem_all kind)).trans ?_
  rw [sameOptional_equals_iff (fun group here => (represents.present kind group here).2)
    fun group here => (represents'.present kind group here).2]
  refine forall_congr' fun name => ?_
  rw [← represents.find?_eq, ← represents'.find?_eq]
  rfl

end Grouped
end ThriftIdl
