import ThriftIdl.Json.Reader
import ThriftIdl.Proofs.Json.Text

/-!
# The text of a JSON value over several lines

The two texts of a value differ in blanks outside strings only, so one says as much about the value
as the other. Main statements: `squeeze_indented` and `pretty_eq_iff`.
-/

namespace ThriftIdl.Json

open Number.Layout (isNumberChar)

/-- A text without the blanks outside its strings. -/
def squeeze : List Char → List Char
  | [] => []
  | char :: rest =>
    if char = '"' then
      match Text.throughQuote? '"' true rest with
      | some raw => '"' :: raw ++ '"' :: squeeze (rest.drop (raw.length + 1))
      | none => char :: rest
    else if isBlank char then squeeze rest
    else char :: squeeze rest
termination_by text => text.length
decreasing_by
  · rw [List.length_drop, List.length_cons]
    omega
  · exact Nat.lt_succ_self _
  · exact Nat.lt_succ_self _

private theorem squeeze_quoted (text : String) (rest : List Char) :
    squeeze (quoted text ++ rest) = quoted text ++ squeeze rest := by
  have written : quoted text ++ rest = '"' :: (text.toList.flatMap stringChar ++ '"' :: rest) := by
    simp [quoted]
  rw [written, squeeze, if_pos rfl, throughQuote?_stringChar]
  simp [quoted, ← List.drop_drop]

private theorem squeeze_blank {char : Char} (blank : isBlank char) (rest : List Char) :
    squeeze (char :: rest) = squeeze rest := by
  have noQuote : char ≠ '"' := by
    rintro rfl
    exact absurd blank (by decide)
  rw [squeeze, if_neg noQuote, if_pos blank]

private theorem squeeze_cons {char : Char} (noQuote : char ≠ '"') (dark : isBlank char = false)
    (rest : List Char) : squeeze (char :: rest) = char :: squeeze rest := by
  rw [squeeze, if_neg noQuote, dark]
  rfl

private theorem squeeze_newLine (level : Nat) (rest : List Char) :
    squeeze (newLine level ++ rest) = squeeze rest := by
  rw [newLine, List.cons_append, squeeze_blank rfl]
  induction 2 * level with
  | zero => rfl
  | succ count ih => rw [List.replicate_succ, List.cons_append, squeeze_blank rfl, ih]

/-- A text without quotes and blanks stays as it is. -/
theorem squeeze_append {text : List Char} (free : ∀ char ∈ text, char ≠ '"' ∧ isBlank char = false)
    (rest : List Char) : squeeze (text ++ rest) = text ++ squeeze rest := by
  induction text with
  | nil => rfl
  | cons char others ih =>
      rw [List.forall_mem_cons] at free
      rw [List.cons_append, squeeze_cons free.1.1 free.1.2, ih free.2, List.cons_append]

private theorem squeeze_number {text : List Char} (inside : ∀ char ∈ text, isNumberChar char)
    (rest : List Char) : squeeze (text ++ rest) = text ++ squeeze rest := by
  refine squeeze_append (fun char member => ⟨?_, ?_⟩) rest
  · rintro rfl
    exact absurd (inside _ member) (by decide)
  · by_contra blank
    simp only [isBlank, Bool.not_eq_false, Bool.or_eq_true, beq_iff_eq] at blank
    rcases blank with ((rfl | rfl) | rfl) | rfl <;> exact absurd (inside _ member) (by decide)

/-- Between commas items are freed of blanks one by one. -/
theorem squeeze_intercalate {Item : Type} (items : List Item) (write write' : Item → List Char)
    (each : ∀ item ∈ items, ∀ rest, squeeze (write item ++ rest) = write' item ++ squeeze rest)
    (rest : List Char) :
    squeeze ([','].intercalate (items.map write) ++ rest) =
      [','].intercalate (items.map write') ++ squeeze rest := by
  cases items with
  | nil => rfl
  | cons item others =>
      rw [List.forall_mem_cons] at each
      obtain ⟨here, later⟩ := each
      rw [intercalate_eq, intercalate_eq, List.append_assoc, here, List.append_assoc]
      congr 1
      induction others with
      | nil => rfl
      | cons next others ih =>
          rw [List.forall_mem_cons] at later
          rw [List.flatMap_cons, List.flatMap_cons, List.append_assoc, List.cons_append,
            squeeze_cons (by decide) rfl, later.1, ih later.2]
          simp

/-! ## Items and members on lines of their own -/

/-- The text of an item on a line of its own. -/
def indentedItem (level : Nat) (item : Json) : List Char :=
  newLine level ++ indented level item

/-- The text of a member on a line of its own. -/
def indentedMember (level : Nat) (member : String × Json) : List Char :=
  newLine level ++ quoted member.1 ++ ':' :: ' ' :: indented level member.2

/-- The items of a list are written one by one with commas between them. -/
theorem indentedItems_eq (level : Nat) (items : List Json) :
    indentedItems level items = [','].intercalate (items.map (indentedItem level)) := by
  induction items with
  | nil => rfl
  | cons item others ih =>
      cases others with
      | nil => simp [indentedItems, indentedItem]
      | cons next rest => simp [indentedItems, indentedItem, ih]

/-- The members of an object are written one by one with commas between them. -/
theorem indentedMembers_eq (level : Nat) (members : List (String × Json)) :
    indentedMembers level members = [','].intercalate (members.map (indentedMember level)) := by
  induction members with
  | nil => rfl
  | cons member others ih =>
      cases others with
      | nil => simp [indentedMembers, indentedMember]
      | cons next rest => simp [indentedMembers, indentedMember, ih]

/-- Items on lines of their own between two marks. -/
theorem squeeze_block {Item : Type} {items : List Item} {write write' : Item → List Char}
    {opening closing : Char} (opens : opening ≠ '"' ∧ isBlank opening = false)
    (closes : closing ≠ '"' ∧ isBlank closing = false)
    (each : ∀ item ∈ items, ∀ rest, squeeze (write item ++ rest) = write' item ++ squeeze rest)
    (level : Nat) (rest : List Char) :
    squeeze (opening :: ([','].intercalate (items.map write) ++
        (newLine level ++ closing :: rest))) =
      opening :: ([','].intercalate (items.map write') ++ closing :: squeeze rest) := by
  rw [squeeze_cons opens.1 opens.2, squeeze_intercalate items write write' each, squeeze_newLine,
    squeeze_cons closes.1 closes.2]

/-- **The two texts of a value** differ in blanks outside strings only. -/
theorem squeeze_indented (level : Nat) (value : Json) (rest : List Char) :
    squeeze (indented level value ++ rest) = compact value ++ squeeze rest := by
  -- Neither quotes nor blanks: such a text is left as it is.
  have word {text : List Char} (free : text.all (fun char => char != '"' && !isBlank char) = true)
      (rest : List Char) : squeeze (text ++ rest) = text ++ squeeze rest := by
    refine squeeze_append (fun char member => ?_) rest
    simpa using List.all_eq_true.mp free char member
  induction value using byParts generalizing level rest with
  | null => exact word rfl rest
  | bool truth => cases truth <;> exact word rfl rest
  | int number =>
      exact squeeze_number (fun _ => Number.Layout.isNumberChar_of_mem_integerDigits) rest
  | float value =>
      rw [indented, compact]
      by_cases finite : value.isFinite
      · rw [number_eq_write finite]
        exact squeeze_number (write_interchange value).2.1 rest
      -- Numbers without a JSON form are written as `null`.
      · have isNull : (float value).mark = 'n' := if_neg finite
        obtain ⟨-, text⟩ := plain_of_mark_null isNull
        rw [compact] at text
        rw [text]
        exact word rfl rest
  | str text => exact squeeze_quoted text rest
  | arr items ih =>
      cases items with
      | nil =>
          have both : ['[', ']'].all (fun char => char != '"' && !isBlank char) = true := rfl
          exact word both rest
      | cons item others =>
          simp only [indented, indentedItems_eq, compact, compactItems_eq, List.cons_append,
            List.append_assoc, List.nil_append]
          refine squeeze_block (by decide) (by decide) (fun item among rest => ?_) level rest
          rw [indentedItem, List.append_assoc, squeeze_newLine, ih item among]
  | obj members ih =>
      cases members with
      | nil =>
          have both : ['\x7b', '\x7d'].all (fun char => char != '"' && !isBlank char) = true := rfl
          exact word both rest
      | cons member others =>
          simp only [indented, indentedMembers_eq, compact, compactMembers_eq, List.cons_append,
            List.append_assoc, List.nil_append]
          refine squeeze_block (by decide) (by decide) (fun member among rest => ?_) level rest
          rw [indentedMember, List.append_assoc, List.append_assoc, squeeze_newLine,
            squeeze_quoted, List.cons_append, List.cons_append, squeeze_cons (by decide) rfl,
            squeeze_blank rfl, ih member among, compactMember, List.append_assoc,
            List.cons_append]

/-- What has no JSON form is written as `null` is. -/
theorem indented_plain (level : Nat) (value : Json) :
    indented level value.plain = indented level value := by
  induction value using byParts generalizing level with
  | float value =>
      have scalar : indented level (float value).plain = compact (float value).plain := by
        rw [plain]
        split <;> rfl
      rw [scalar]
      exact compact_plain (float value)
  | arr items ih =>
      have same : items.map (indentedItem (level + 1) ∘ plain) =
          items.map (indentedItem (level + 1)) := by
        refine List.map_congr_left fun item among => ?_
        rw [Function.comp, indentedItem, indentedItem, ih item among]
      rw [plain_arr]
      cases items with
      | nil => rfl
      | cons item others =>
          rw [List.map_cons, indented, indented, ← List.map_cons, indentedItems_eq,
            indentedItems_eq, List.map_map, same]
  | obj members ih =>
      have same : members.map (indentedMember (level + 1) ∘ Prod.map id plain) =
          members.map (indentedMember (level + 1)) := by
        refine List.map_congr_left fun member among => ?_
        rw [Function.comp, indentedMember, indentedMember, Prod.map, id, ih member among]
      rw [plain_obj]
      cases members with
      | nil => rfl
      | cons member others =>
          rw [List.map_cons, indented, indented, ← List.map_cons, indentedMembers_eq,
            indentedMembers_eq, List.map_map, same]
  | _ => rfl

/-- **The text over several lines** says as much as the other one. -/
theorem pretty_eq_iff {first second : Json} :
    first.pretty = second.pretty ↔ first.plain = second.plain := by
  constructor
  · intro same
    have squeezed := congrArg squeeze (String.ofList_injective same)
    have text (value : Json) : squeeze (indented 0 value) = compact value := by
      have whole := squeeze_indented 0 value []
      rwa [squeeze, List.append_nil, List.append_nil] at whole
    rw [text, text] at squeezed
    exact text_eq_iff.mp (congrArg String.ofList squeezed)
  · intro same
    rw [pretty, pretty, ← indented_plain 0 first, ← indented_plain 0 second, same]

end ThriftIdl.Json
