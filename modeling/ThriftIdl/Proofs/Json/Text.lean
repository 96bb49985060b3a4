import ThriftIdl.Json.Value
import ThriftIdl.Proofs.Number.Layout

/-!
# What the text of a JSON value says

The text of a JSON value determines the value, but for the numbers that have no JSON form: all of
them are written as `null`. No text is the beginning of another one that ends before a delimiter, so
the values in an array or an object can be told apart one by one. Main statement: `text_eq_iff`.
-/

namespace ThriftIdl

open Source (Stops)
open Number.Layout (isNumberChar)

namespace Number.Binary64

/-- Whether the bits stand for a finite number. -/
def isFinite (number : Binary64) : Bool :=
  !(number.isNaN || number.isInfinite)

end Number.Binary64

namespace Json

/-- **Induction on JSON values**: a property holds of an array or an object if it holds of the
values in it. -/
@[elab_as_elim]
theorem byParts {motive : Json → Prop} (null : motive null) (bool : ∀ value, motive (bool value))
    (int : ∀ value, motive (int value)) (float : ∀ value, motive (float value))
    (str : ∀ value, motive (str value))
    (arr : ∀ items, (∀ item ∈ items, motive item) → motive (arr items))
    (obj : ∀ members, (∀ member ∈ members, motive member.2) → motive (obj members)) :
    ∀ value, motive value
  | .null => null
  | .bool value => bool value
  | .int value => int value
  | .float value => float value
  | .str value => str value
  | .arr items => arr items fun item _ => byParts null bool int float str arr obj item
  | .obj members => obj members fun member _ => byParts null bool int float str arr obj member.2
termination_by value => sizeOf value
decreasing_by
  · next member =>
      have smaller := List.sizeOf_lt_of_mem member
      simp only [Json.arr.sizeOf_spec]
      omega
  · next among =>
      have smaller := List.sizeOf_lt_of_mem among
      have inner : sizeOf member = 1 + sizeOf member.1 + sizeOf member.2 := by
        cases member
        rfl
      simp only [Json.obj.sizeOf_spec]
      omega

/-! ## Values as their texts say them -/

mutual

/-- A value with `null` for the numbers that have no JSON form. -/
def plain : Json → Json
  | float value => if value.isFinite then float value else null
  | arr items => arr (plainItems items)
  | obj members => obj (plainMembers members)
  | null => null
  | bool value => bool value
  | int value => int value
  | str value => str value

/-- Several values with `null` for the numbers that have no JSON form. -/
def plainItems : List Json → List Json
  | [] => []
  | item :: rest => plain item :: plainItems rest

/-- Members with `null` for the numbers that have no JSON form. -/
def plainMembers : List (String × Json) → List (String × Json)
  | [] => []
  | (key, value) :: rest => (key, plain value) :: plainMembers rest

end

private theorem plainItems_eq (items : List Json) : plainItems items = items.map plain := by
  induction items with
  | nil => rfl
  | cons item rest ih => rw [plainItems, ih, List.map_cons]

private theorem plainMembers_eq (members : List (String × Json)) :
    plainMembers members = members.map (Prod.map id plain) := by
  induction members with
  | nil => rfl
  | cons member rest ih => rw [plainMembers, ih, List.map_cons, Prod.map, id]

/-- A list is plain if its items are. -/
@[simp] theorem plain_arr (items : List Json) : (arr items).plain = arr (items.map plain) := by
  rw [plain, plainItems_eq]

/-- An object is plain if its members are. -/
@[simp] theorem plain_obj (members : List (String × Json)) :
    (obj members).plain = obj (members.map (Prod.map id plain)) := by
  rw [plain, plainMembers_eq]

@[simp] theorem plain_bool (value : Bool) : (bool value).plain = bool value := by
  rw [plain]

@[simp] theorem plain_int (value : Int) : (int value).plain = int value := by
  rw [plain]

@[simp] theorem plain_str (value : String) : (str value).plain = str value := by
  rw [plain]

/-- The text of a member of an object. -/
def compactMember (member : String × Json) : List Char :=
  quoted member.1 ++ ':' :: compact member.2

/-- The items of a list are written one by one with commas between them. -/
theorem compactItems_eq (items : List Json) :
    compactItems items = [','].intercalate (items.map compact) := by
  induction items with
  | nil => rfl
  | cons item others ih =>
      cases others with
      | nil => simp [compactItems]
      | cons next rest => simp [compactItems, ih]

/-- The members of an object are written one by one with commas between them. -/
theorem compactMembers_eq (members : List (String × Json)) :
    compactMembers members = [','].intercalate (members.map compactMember) := by
  induction members with
  | nil => rfl
  | cons member others ih =>
      cases others with
      | nil => simp [compactMembers, compactMember]
      | cons next rest => simp [compactMembers, compactMember, ih]

/-- What has no JSON form is written as `null` is. -/
theorem compact_plain (value : Json) : compact value.plain = compact value := by
  induction value using byParts with
  | float value =>
      rw [plain, compact, number, Number.Binary64.isFinite]
      cases exotic : value.isNaN || value.isInfinite with
      | true => rfl
      | false => simp [compact, number, exotic]
  | arr items ih =>
      have same : items.map (compact ∘ plain) = items.map compact := List.map_congr_left ih
      rw [plain_arr, compact, compact, compactItems_eq, compactItems_eq, List.map_map, same]
  | obj members ih =>
      have same : members.map (compactMember ∘ Prod.map id plain) = members.map compactMember := by
        refine List.map_congr_left fun member among => ?_
        rw [Function.comp, compactMember, compactMember, Prod.map, id, ih member among]
      rw [plain_obj, compact, compact, compactMembers_eq, compactMembers_eq, List.map_map, same]
  | _ => rfl

/-! ## Strings -/

/-- Control characters have four figures in an escape. -/
theorem writesEscape_control {char : Char} (control : char.toNat < 0x20) :
    ∃ escape, controlEscape char = '\\' :: escape ∧ Layout.WritesEscape char escape := by
  have figures : ∀ code < 0x20,
      let digits := Number.hexDigits code
      let zeros := List.replicate (4 - digits.length) '0'
      (zeros ++ digits).map Char.toLower = zeros ++ digits ∧ (zeros ++ digits).length = 4 := by
    decide
  obtain ⟨lower, length⟩ := figures char.toNat control
  refine ⟨'u' :: (List.replicate (4 - (Number.hexDigits char.toNat).length) '0' ++
    Number.hexDigits char.toNat), rfl, .group ?_ ⟨_, ?_, lower⟩⟩
  · rw [length]
    decide
  · exact fun zero member => List.eq_of_mem_replicate member

/-- JSON strings are strings of the notation. -/
theorem writesText_stringChar (text : List Char) :
    Layout.WritesText '"' text (text.flatMap stringChar) := by
  induction text with
  | nil => exact .nil
  | cons char rest ih =>
      rw [List.flatMap_cons]
      unfold stringChar
      split
      case h_1 => exact .escaped (.itself (by decide)) ih
      case h_2 => exact .escaped (.itself (by decide)) ih
      case h_8 noQuote noBackslash _ _ _ _ _ =>
        split
        · next control =>
            obtain ⟨escape, same, writes⟩ := writesEscape_control control
            rw [same]
            exact .escaped writes ih
        · exact .plain noQuote noBackslash ih
      all_goals exact .escaped (.letter (by decide)) ih

/-- A string ends at the quote behind it. -/
theorem throughQuote?_stringChar (text rest : List Char) :
    Text.throughQuote? '"' true (text.flatMap stringChar ++ '"' :: rest) =
      some (text.flatMap stringChar) :=
  Grammar.throughQuote?_append
    (Layout.throughQuote?_of_writesText rfl (writesText_stringChar text)) rest

/-- **A string can be told from any other** before whatever comes after it. -/
theorem quoted_cancel {first second : String} {rest rest' : List Char}
    (same : quoted first ++ rest = quoted second ++ rest') : first = second ∧ rest = rest' := by
  have read (text : String) : Text.unescape (text.toList.flatMap stringChar) = some text.toList :=
    Layout.unescape_of_writesText (writesText_stringChar _)
  simp only [quoted, List.cons_append, List.append_assoc, List.nil_append, List.cons.injEq,
    true_and] at same
  have raw := congrArg (Text.throughQuote? '"' true) same
  rw [throughQuote?_stringChar, throughQuote?_stringChar, Option.some.injEq] at raw
  have text := read first
  rw [raw, read, Option.some.injEq, String.toList_inj] at text
  rw [raw] at same
  exact ⟨text.symm, (List.cons.inj (List.append_cancel_left same)).2⟩

/-! ## Numbers -/

/-- What is written for a finite number. -/
theorem number_eq_write {value : Number.Binary64} (finite : value.isFinite) :
    number value = Number.Layout.interchange.write value := by
  unfold Number.Binary64.isFinite at finite
  rw [number, if_neg (by simpa using finite)]

/-- A fraction is written with characters of numbers only, a point or an exponent among them. -/
theorem write_interchange (value : Number.Binary64) :
    Number.Layout.interchange.write value ≠ [] ∧
      (∀ char ∈ Number.Layout.interchange.write value, isNumberChar char) ∧
      ('.' ∈ Number.Layout.interchange.write value ∨
        'e' ∈ Number.Layout.interchange.write value) := by
  have rising : Number.Layout.interchange.risingMark = [] ∨
      Number.Layout.interchange.risingMark = ['+'] := .inr rfl
  obtain ⟨unsigned, form, written, -⟩ := Number.Layout.write_spec rising value
  have some : unsigned ≠ [] := by
    rintro rfl
    have figure := form.begins
    cases figure
  rw [written]
  split
  · exact ⟨List.cons_ne_nil _ _, List.forall_mem_cons.mpr ⟨rfl, form.inside⟩,
      form.fractional.imp (List.mem_cons_of_mem _) (List.mem_cons_of_mem _)⟩
  · exact ⟨some, form.inside, form.fractional⟩

/-! ## What a text begins with -/

/-- The character that the text of a value begins with, with a zero for numbers. -/
def mark : Json → Char
  | null => 'n'
  | bool true => 't'
  | bool false => 'f'
  | int _ => '0'
  | float value => if value.isFinite then '0' else 'n'
  | str _ => '"'
  | arr _ => '['
  | obj _ => '\x7b'

/-- A character, or a zero for those that may stand in numbers. -/
def markOf (char : Char) : Char :=
  if isNumberChar char then '0' else char

/-- **The first character of a text** tells what kind of value it is. -/
theorem head?_compact (value : Json) :
    ∃ first others, compact value = first :: others ∧ markOf first = value.mark := by
  have number {text : List Char} (some : text ≠ []) (inside : ∀ char ∈ text, isNumberChar char) :
      ∃ first others, text = first :: others ∧ markOf first = '0' := by
    obtain ⟨first, others, rfl⟩ := List.exists_cons_of_ne_nil some
    exact ⟨first, others, rfl, if_pos (inside first (by simp))⟩
  cases value with
  | null => exact ⟨_, _, rfl, rfl⟩
  | bool value => cases value <;> exact ⟨_, _, rfl, rfl⟩
  | int value =>
      refine number ?_ fun _ => Number.Layout.isNumberChar_of_mem_integerDigits
      rw [compact, Number.integerDigits]
      split
      · exact List.cons_ne_nil _ _
      · exact Nat.toDigits_ne_nil
  | float value =>
      by_cases finite : value.isFinite
      · obtain ⟨some, inside, -⟩ := write_interchange value
        rw [compact, number_eq_write finite, mark, if_pos finite]
        exact number some inside
      · have exotic : (value.isNaN || value.isInfinite) = true := by
          rwa [Number.Binary64.isFinite, Bool.not_eq_true, Bool.not_eq_false'] at finite
        rw [compact, Json.number, if_pos exotic, mark, if_neg finite]
        exact ⟨_, _, rfl, rfl⟩
  | str value => exact ⟨_, _, rfl, rfl⟩
  | arr items => exact ⟨_, _, rfl, rfl⟩
  | obj members => exact ⟨_, _, rfl, rfl⟩

/-- Texts that begin alike are of values of the same kind. -/
theorem mark_eq {first second : Json} {rest rest' : List Char}
    (same : compact first ++ rest = compact second ++ rest') : second.mark = first.mark := by
  obtain ⟨char, others, text, isMark⟩ := head?_compact first
  obtain ⟨char', others', text', isMark'⟩ := head?_compact second
  rw [text, text'] at same
  obtain rfl : char = char' := (List.cons.inj same).1
  rw [← isMark, ← isMark']

/-- A value whose text is `null`. -/
theorem plain_of_mark_null {value : Json} (isNull : value.mark = 'n') :
    value.plain = null ∧ compact value = "null".toList := by
  rw [← compact_plain]
  cases value with
  | null => exact ⟨rfl, rfl⟩
  | bool value => cases value <;> cases isNull
  | float value =>
      rw [mark] at isNull
      split at isNull
      · cases isNull
      · next exotic =>
          rw [plain, if_neg exotic]
          exact ⟨rfl, rfl⟩
  | _ => cases isNull

/-- A value whose text is a number. -/
theorem plain_of_mark_number {value : Json} (isNumber : value.mark = '0') :
    value.plain = value ∧ (∀ char ∈ compact value, isNumberChar char) ∧
      ((∃ number, value = int number ∧ compact value = Number.integerDigits number) ∨
        ∃ number, value = float number ∧
          compact value = Number.Layout.interchange.write number) := by
  cases value with
  | int value =>
      exact ⟨rfl, fun _ => Number.Layout.isNumberChar_of_mem_integerDigits, .inl ⟨_, rfl, rfl⟩⟩
  | bool value => cases value <;> cases isNumber
  | float value =>
      rw [mark] at isNumber
      split at isNumber
      · next finite =>
          have written : compact (float value) = Number.Layout.interchange.write value :=
            number_eq_write finite
          refine ⟨if_pos finite, ?_, .inr ⟨_, rfl, written⟩⟩
          rw [written]
          exact (write_interchange value).2.1
      · cases isNumber
  | _ => cases isNumber

/-- **Numbers with the same text** are the same. -/
theorem number_injective {first second : Json} (isNumber : first.mark = '0')
    (isNumber' : second.mark = '0') (same : compact first = compact second) : first = second := by
  obtain ⟨-, -, form⟩ := plain_of_mark_number isNumber
  obtain ⟨-, -, form'⟩ := plain_of_mark_number isNumber'
  -- Integers are written without points and exponents.
  have apart (integer : Int) (number : Number.Binary64) :
      Number.integerDigits integer ≠ Number.Layout.interchange.write number := by
    intro same
    obtain ⟨-, -, fractional⟩ := write_interchange number
    rw [← same] at fractional
    rcases fractional with point | letter
    · have figure := Number.isDigit_or_sign_of_mem_integerDigits point
      revert figure
      decide
    · have figure := Number.isDigit_or_sign_of_mem_integerDigits letter
      revert figure
      decide
  rcases form with ⟨number, rfl, text⟩ | ⟨number, rfl, text⟩ <;>
    rcases form' with ⟨number', rfl, text'⟩ | ⟨number', rfl, text'⟩ <;>
    rw [text, text'] at same
  · have read := Number.ofSignedDigits?_integerDigits number (.inl rfl)
    rw [same, Number.ofSignedDigits?_integerDigits number' (.inl rfl)] at read
    rw [Option.some.inj read]
  · exact absurd same (apart _ _)
  · exact absurd same.symm (apart _ _)
  · rw [Number.Layout.write_injective (.inr rfl) same]

/-! ## Texts before a delimiter -/

/-- A truth value begins with its own letter. -/
theorem eq_bool_of_mark {value : Json} {truth : Bool} (isTruth : value.mark = (bool truth).mark) :
    value = bool truth := by
  cases value with
  | bool value => cases value <;> cases truth <;> first | rfl | cases isTruth
  | float value =>
      rw [mark] at isTruth
      split at isTruth <;> cases truth <;> cases isTruth
  | _ => cases truth <;> cases isTruth

private theorem exists_str_of_mark {value : Json} (isText : value.mark = '"') :
    ∃ text, value = str text := by
  cases value with
  | str text => exact ⟨text, rfl⟩
  | bool value => cases value <;> cases isText
  | float value =>
      rw [mark] at isText
      split at isText <;> cases isText
  | _ => cases isText

private theorem exists_arr_of_mark {value : Json} (isArray : value.mark = '[') :
    ∃ items, value = arr items := by
  cases value with
  | arr items => exact ⟨items, rfl⟩
  | bool value => cases value <;> cases isArray
  | float value =>
      rw [mark] at isArray
      split at isArray <;> cases isArray
  | _ => cases isArray

private theorem exists_obj_of_mark {value : Json} (isObject : value.mark = '\x7b') :
    ∃ members, value = obj members := by
  cases value with
  | obj members => exact ⟨members, rfl⟩
  | bool value => cases value <;> cases isObject
  | float value =>
      rw [mark] at isObject
      split at isObject <;> cases isObject
  | _ => cases isObject

/-- No text begins as the end of an array does. -/
theorem compact_ne_bracket (value : Json) (text rest : List Char) :
    compact value ++ text ≠ ']' :: rest := by
  intro same
  obtain ⟨first, others, written, isMark⟩ := head?_compact value
  rw [written] at same
  obtain rfl : first = ']' := (List.cons.inj same).1
  cases value with
  | bool value => cases value <;> cases isMark
  | float value =>
      rw [mark] at isMark
      split at isMark <;> cases isMark
  | _ => cases isMark

section Separated

variable {Item Value : Type} {write : Item → List Char} {read : Item → Value} {close : Char}
  {items items' : List Item} {rest rest' : List Char}

/-- Whether what an item says can be told by its text before a delimiter. -/
def ToldApart (write : Item → List Char) (read : Item → Value) (item : Item) : Prop :=
  ∀ ⦃other rest rest'⦄, Stops isNumberChar rest → Stops isNumberChar rest' →
    write item ++ rest = write other ++ rest' → read item = read other ∧ rest = rest'

/-- The texts of several items with commas between them. -/
theorem intercalate_eq (item : Item) (others : List Item) :
    [','].intercalate ((item :: others).map write) =
      write item ++ others.flatMap fun other => ',' :: write other := by
  induction others generalizing item with
  | nil => simp
  | cons next others ih =>
      rw [List.map_cons, List.map_cons, List.intercalate_cons_cons, ← List.map_cons, ih,
        List.flatMap_cons]
      simp

/-- What follows an item begins with a comma or with the closing mark. -/
theorem stops_flatMap (closes : isNumberChar close = false) (others : List Item)
    (rest : List Char) :
    Stops isNumberChar ((others.flatMap fun other => ',' :: write other) ++ close :: rest) := by
  cases others with
  | nil => exact Source.stops_cons.mpr closes
  | cons other more => exact Source.stops_cons.mpr rfl

/-- Items behind commas are told apart one by one, up to the closing mark. -/
theorem flatMap_cancel (closes : isNumberChar close = false) (apart : close ≠ ',')
    (told : ∀ item ∈ items, ToldApart write read item)
    (same : (items.flatMap fun item => ',' :: write item) ++ close :: rest =
      (items'.flatMap fun item => ',' :: write item) ++ close :: rest') :
    items.map read = items'.map read ∧ rest = rest' := by
  induction items generalizing items' with
  | nil =>
      cases items' with
      | nil => exact ⟨rfl, (List.cons.inj same).2⟩
      | cons second more => exact absurd (List.cons.inj same).1 apart
  | cons first others ih =>
      cases items' with
      | nil => exact absurd (List.cons.inj same).1.symm apart
      | cons second more =>
          simp only [List.flatMap_cons, List.cons_append, List.append_assoc, List.cons.injEq,
            true_and] at same
          rw [List.forall_mem_cons] at told
          obtain ⟨here, later⟩ :=
            told.1 (stops_flatMap closes others rest) (stops_flatMap closes more rest') same
          obtain ⟨values, after⟩ := ih told.2 later
          exact ⟨by rw [List.map_cons, List.map_cons, here, values], after⟩

/-- **Items between commas are told apart** before a closing mark when each of them can be told
from any other before a delimiter and none begins with the mark. -/
theorem intercalate_cancel (closes : isNumberChar close = false) (apart : close ≠ ',')
    (begins : ∀ item text rest, write item ++ text ≠ close :: rest)
    (told : ∀ item ∈ items, ToldApart write read item)
    (same : [','].intercalate (items.map write) ++ close :: rest =
      [','].intercalate (items'.map write) ++ close :: rest') :
    items.map read = items'.map read ∧ rest = rest' := by
  cases items with
  | nil =>
      cases items' with
      | nil => exact ⟨rfl, (List.cons.inj same).2⟩
      | cons second more =>
          rw [intercalate_eq, List.append_assoc] at same
          exact absurd same.symm (begins second _ _)
  | cons first others =>
      cases items' with
      | nil =>
          rw [intercalate_eq, List.append_assoc] at same
          exact absurd same (begins first _ _)
      | cons second more =>
          rw [intercalate_eq, intercalate_eq, List.append_assoc, List.append_assoc] at same
          rw [List.forall_mem_cons] at told
          obtain ⟨here, later⟩ :=
            told.1 (stops_flatMap closes others rest) (stops_flatMap closes more rest') same
          obtain ⟨values, after⟩ := flatMap_cancel closes apart told.2 later
          exact ⟨by rw [List.map_cons, List.map_cons, here, values], after⟩

end Separated

private theorem toldApart_of_null {value : Json} (isNull : value.mark = 'n') :
    ToldApart compact plain value := by
  intro other rest rest' stops stops' same
  have isNull' : other.mark = 'n' := (mark_eq same).trans isNull
  obtain ⟨plain, text⟩ := plain_of_mark_null isNull
  obtain ⟨plain', text'⟩ := plain_of_mark_null isNull'
  rw [text, text'] at same
  exact ⟨plain.trans plain'.symm, List.append_cancel_left same⟩

/-- A number is the run of characters that may stand in numbers. -/
theorem toldApart_of_number {value : Json} (isNumber : value.mark = '0') :
    ToldApart compact plain value := by
  intro other rest rest' stops stops' same
  have isNumber' : other.mark = '0' := (mark_eq same).trans isNumber
  obtain ⟨-, inside, -⟩ := plain_of_mark_number isNumber
  obtain ⟨-, inside', -⟩ := plain_of_mark_number isNumber'
  have run := congrArg (List.takeWhile isNumberChar) same
  rw [stops.takeWhile_append inside, stops'.takeWhile_append inside'] at run
  rw [run] at same
  exact ⟨congrArg plain (number_injective isNumber isNumber' run), List.append_cancel_left same⟩

private theorem toldApart_member {member : String × Json}
    (told : ToldApart compact plain member.2) :
    ToldApart compactMember (Prod.map id plain) member := by
  intro other rest rest' stops stops' same
  rw [compactMember, compactMember, List.append_assoc, List.append_assoc] at same
  obtain ⟨keys, later⟩ := quoted_cancel same
  rw [List.cons_append, List.cons_append, List.cons.injEq] at later
  obtain ⟨here, after⟩ := told stops stops' later.2
  exact ⟨Prod.ext keys here, after⟩

/-- **A value can be told from any other** by its text before a delimiter, but for numbers that have
no JSON form. -/
theorem toldApart (value : Json) : ToldApart compact plain value := by
  induction value using byParts with
  | null => exact toldApart_of_null rfl
  | bool truth =>
      intro other rest rest' stops stops' same
      obtain rfl := eq_bool_of_mark (mark_eq same)
      exact ⟨rfl, List.append_cancel_left same⟩
  | int number => exact toldApart_of_number rfl
  | float number =>
      by_cases finite : number.isFinite
      · exact toldApart_of_number (if_pos finite)
      · exact toldApart_of_null (if_neg finite)
  | str text =>
      intro other rest rest' stops stops' same
      obtain ⟨text', rfl⟩ := exists_str_of_mark (mark_eq same)
      obtain ⟨rfl, after⟩ := quoted_cancel same
      exact ⟨rfl, after⟩
  | arr items ih =>
      intro other rest rest' stops stops' same
      obtain ⟨items', rfl⟩ := exists_arr_of_mark (mark_eq same)
      simp only [compact, compactItems_eq, List.cons_append, List.append_assoc, List.nil_append,
        List.cons.injEq, true_and] at same
      obtain ⟨values, after⟩ := intercalate_cancel rfl (by decide) compact_ne_bracket ih same
      exact ⟨by rw [plain_arr, plain_arr, values], after⟩
  | obj members ih =>
      intro other rest rest' stops stops' same
      obtain ⟨members', rfl⟩ := exists_obj_of_mark (mark_eq same)
      -- A member begins with a quote, so no closing brace is taken for one.
      have begins (member : String × Json) (text rest : List Char) :
          compactMember member ++ text ≠ '\x7d' :: rest :=
        fun same => absurd (List.cons.inj same).1 (by decide)
      simp only [compact, compactMembers_eq, List.cons_append, List.append_assoc, List.nil_append,
        List.cons.injEq, true_and] at same
      obtain ⟨values, after⟩ := intercalate_cancel rfl (by decide) begins
        (fun member among => toldApart_member (ih member among)) same
      exact ⟨by rw [plain_obj, plain_obj, values], after⟩

/-- **The text of a value says what the value is**, but for numbers that have no JSON form. -/
theorem text_eq_iff {first second : Json} :
    first.text = second.text ↔ first.plain = second.plain := by
  constructor
  · intro same
    have written : compact first ++ [] = compact second ++ [] := by
      rw [List.append_nil, List.append_nil]
      exact String.ofList_injective same
    exact (toldApart first Source.stops_nil Source.stops_nil written).1
  · intro same
    rw [text, text, ← compact_plain first, ← compact_plain second, same]

end Json
end ThriftIdl
