import ThriftIdl.Syntax.Declaration

/-!
# The numbers of fields

The fields of one list are told apart by their numbers. A field without a number of its own is never
in the way of another.
-/

namespace ThriftIdl

/-- The first field of a list with the number of an earlier one, given the numbers before. -/
def repeatedIdAfter? (seen : List Int64) : List Field → Option (Int64 × String)
  | [] => none
  | field :: rest =>
    match field.id with
    | none => repeatedIdAfter? seen rest
    | some id =>
      if id ∈ seen then some (id, field.name) else repeatedIdAfter? (id :: seen) rest

/-- The first field of a list with the number of an earlier one: the number and the field's name. -/
def repeatedId? (fields : List Field) : Option (Int64 × String) :=
  repeatedIdAfter? [] fields

/-- No number comes again just if the numbers are distinct and none of them came before. -/
theorem repeatedIdAfter?_eq_none_iff (seen : List Int64) (fields : List Field) :
    repeatedIdAfter? seen fields = none ↔
      (fields.filterMap Field.id).Nodup ∧ ∀ id ∈ seen, id ∉ fields.filterMap Field.id := by
  induction fields generalizing seen with
  | nil => simp [repeatedIdAfter?]
  | cons field rest ih =>
    cases numbered : field.id with
    | none => simp [repeatedIdAfter?, numbered, ih]
    | some id =>
      by_cases came : id ∈ seen
      · simp only [repeatedIdAfter?, numbered, if_pos came, reduceCtorEq, false_iff, not_and]
        exact fun _ fresh => fresh id came (by simp [numbered])
      · simp only [repeatedIdAfter?, numbered, if_neg came, ih, List.filterMap_cons_some numbered,
          List.nodup_cons, List.mem_cons]
        grind

/-- **The numbers of fields are distinct** just if none of them is repeated. -/
theorem repeatedId?_eq_none_iff (fields : List Field) :
    repeatedId? fields = none ↔ (fields.filterMap Field.id).Nodup := by
  simp [repeatedId?, repeatedIdAfter?_eq_none_iff]

end ThriftIdl
