import Mathlib.Data.List.DropRight
import ThriftIdl.Proofs.Json.Numeral
import ThriftIdl.Proofs.Json.Pretty

/-!
# What is written is read

Strict reading gives the outline of a value from either of its texts: numerals as they are written,
and strings whose escapes stand for their characters. What is read of a part holds before whatever
comes next, so that the parts of an array or an object are read one after the other. Main
statements: `outline?_text`, `outline?_pretty` and `string?_outline`.
-/

namespace ThriftIdl.Json

open Source (Stops)

variable {rest : List Char}

/-! ## Strings -/

/-- What a character inside a string is read as: a control character without a letter of its own as
its code point, every other character as itself. -/
def stringUnit (char : Char) : StringUnit :=
  if (stringChar char)[1]? = some 'u' then .code char.toNat else .char char

/-- The escape of a control character is read as its code point. -/
theorem readUnits_controlEscape {char : Char} (control : char.toNat < 0x20) :
    readUnits (controlEscape char ++ rest) =
      (readUnits rest).map fun (units, after) => (.code char.toNat :: units, after) := by
  have figures : ∀ code < 0x20,
      let digits := Number.hexDigits code
      let four := List.replicate (4 - digits.length) '0' ++ digits
      four.length = 4 ∧ Number.ofDigits? 16 four = some code := by
    decide
  obtain ⟨length, denoted⟩ := figures char.toNat control
  rw [controlEscape, List.append_assoc ['\\', 'u']]
  generalize List.replicate (4 - (Number.hexDigits char.toNat).length) '0' ++
    Number.hexDigits char.toNat = four at length denoted
  obtain ⟨a, b, c, d, rfl⟩ : ∃ a b c d, four = [a, b, c, d] := by
    match four, length with
    | [a, b, c, d], _ => exact ⟨a, b, c, d, rfl⟩
  simp only [List.cons_append, List.nil_append, readUnits, denoted]

private theorem readUnits_stringChar (char : Char) :
    readUnits (stringChar char ++ rest) =
      (readUnits rest).map fun (units, after) => (stringUnit char :: units, after) := by
  unfold stringUnit stringChar
  split
  case h_8 noQuote noBackslash _ _ _ _ _ =>
    split
    · next control => exact readUnits_controlEscape control
    · next noControl =>
        have plain : ¬(char = '\\' ∨ char.toNat < 0x20) := by
          rintro (backslash | control)
          · exact noBackslash backslash
          · exact noControl control
        rw [List.singleton_append, readUnits, if_neg plain]
        · rfl
        · exact noQuote
        · exact fun _ _ _ _ _ backslash _ => noBackslash backslash
        · exact fun _ _ backslash _ => noBackslash backslash
  all_goals rfl

private theorem readUnits_flatMap (text : List Char) :
    readUnits (text.flatMap stringChar ++ '"' :: rest) = some (text.map stringUnit, rest) := by
  induction text with
  | nil => rfl
  | cons char others ih =>
      rw [List.flatMap_cons, List.append_assoc, readUnits_stringChar, ih]
      rfl

/-- A code point below the surrogates stands for its character, whatever comes next. -/
theorem resolve_code {code : Nat} (plain : code < 0xd800) (units : List StringUnit) :
    resolve (.code code :: units) = (resolve units).map (Char.ofNat code :: ·) := by
  have noLeading : isLeading code = false := by
    simp only [isLeading, Bool.and_eq_false_imp, decide_eq_true_eq]
    omega
  have noTrailing : isTrailing code = false := by
    simp only [isTrailing, Bool.and_eq_false_imp, decide_eq_true_eq]
    omega
  match units with
  | [] => simp [resolve, noLeading, noTrailing]
  | .char value :: others => simp [resolve, noLeading, noTrailing]
  | .code second :: others => simp [resolve, noLeading, noTrailing]

private theorem stringUnit_eq (char : Char) :
    stringUnit char = .char char ∨ stringUnit char = .code char.toNat ∧ char.toNat < 0x20 := by
  by_cases control : char.toNat < 0x20
  · unfold stringUnit
    split
    · exact .inr ⟨rfl, control⟩
    · exact .inl rfl
  · refine .inl (if_neg ?_)
    unfold stringChar
    split
    case h_8 => simp [control]
    all_goals decide

/-- **The escapes of a string stand for its characters.** -/
theorem resolve_map_stringUnit (text : List Char) :
    resolve (text.map stringUnit) = some text := by
  induction text with
  | nil => rfl
  | cons char rest ih =>
      rw [List.map_cons]
      rcases stringUnit_eq char with same | ⟨same, control⟩
      · rw [same, resolve, ih, Option.map_some]
      · rw [same, resolve_code (by omega), ih, Option.map_some, Char.ofNat_toNat]

/-! ## Values -/

mutual

/-- What a value is read as. -/
def outline : Json → Outline
  | null => .null
  | bool value => .bool value
  | int value => .number (Number.integerDigits value)
  | float value => if value.isFinite then .number (number value) else .null
  | str value => .string (value.toList.map stringUnit)
  | arr items => .array (outlineItems items)
  | obj members => .object (outlineMembers members)

/-- What several values are read as. -/
def outlineItems : List Json → List Outline
  | [] => []
  | item :: rest => outline item :: outlineItems rest

/-- What members are read as. -/
def outlineMembers : List (String × Json) → List (List StringUnit × Outline)
  | [] => []
  | (key, value) :: rest => (key.toList.map stringUnit, outline value) :: outlineMembers rest

end

/-- What a member is read as. -/
def outlineMember (member : String × Json) : List StringUnit × Outline :=
  (member.1.toList.map stringUnit, member.2.outline)

private theorem outlineItems_eq (items : List Json) : outlineItems items = items.map outline := by
  induction items with
  | nil => rfl
  | cons item rest ih => rw [outlineItems, ih, List.map_cons]

/-- An object is outlined member by member. -/
theorem outlineMembers_eq (members : List (String × Json)) :
    outlineMembers members = members.map outlineMember := by
  induction members with
  | nil => rfl
  | cons member rest ih => rw [outlineMembers, ih, List.map_cons, outlineMember]

/-! ## Blanks -/

private theorem not_isBlank_of_extendsNumeral {char : Char} (goesOn : extendsNumeral char) :
    isBlank char = false := by
  by_contra blank
  simp only [isBlank, Bool.not_eq_false, Bool.or_eq_true, beq_iff_eq] at blank
  rcases blank with ((rfl | rfl) | rfl) | rfl <;> cases goesOn

/-- A numeral does not go on with blanks. -/
theorem stops_blanks {blanks : List Char} (areBlanks : ∀ char ∈ blanks, isBlank char)
    (stops : Stops extendsNumeral rest) : Stops extendsNumeral (blanks ++ rest) := by
  cases blanks with
  | nil => exact stops
  | cons blank others =>
      refine Source.stops_cons.mpr ?_
      by_contra goesOn
      have dark := not_isBlank_of_extendsNumeral (by simpa using goesOn)
      rw [areBlanks blank (by simp)] at dark
      cases dark

private theorem skipBlanks_append {blanks : List Char} (areBlanks : ∀ char ∈ blanks, isBlank char)
    {mark : Char} (dark : isBlank mark = false) :
    skipBlanks (blanks ++ mark :: rest) = mark :: rest :=
  Stops.dropWhile_append (Source.stops_cons.mpr dark) areBlanks

private theorem skipBlanks_skipBlanks (text : List Char) :
    skipBlanks (skipBlanks text) = skipBlanks text :=
  List.dropWhile_idempotent isBlank text

private theorem readValue_skipBlanks (limit : Nat) (text : List Char) :
    readValue limit (skipBlanks text) = readValue limit text := by
  cases limit with
  | zero => rfl
  | succ limit => rw [readValue, readValue, skipBlanks_skipBlanks]

/-! ## Entries between commas -/

section Entries

variable {Entry : Type} {close : Char} {one : Nat → List Char → Option (Entry × List Char)}
  {all : Nat → List Char → Option (List Entry × List Char)}

/-- A rule for one entry and a rule for several entries with commas between them and a mark behind
the last. -/
structure ReadsList (close : Char) (one : Nat → List Char → Option (Entry × List Char))
    (all : Nat → List Char → Option (List Entry × List Char)) : Prop where
  last : ∀ {limit text entry after rest}, one limit text = some (entry, after) →
    skipBlanks after = close :: rest → all (limit + 1) text = some ([entry], rest)
  more : ∀ {limit text entry after rest}, one limit text = some (entry, after) →
    skipBlanks after = ',' :: rest →
    all (limit + 1) text = (all limit rest).map fun (entries, after) => (entry :: entries, after)
  /-- Blanks before the first entry are passed over. -/
  skip : ∀ limit text, all limit (skipBlanks text) = all limit text
  /-- The mark at the end is no entry. -/
  closed : ∀ {limit text rest}, skipBlanks text = close :: rest → all limit text = none
  dark : isBlank close = false
  stops : extendsNumeral close = false

/-- A text that is read as an entry before whatever goes on no numeral. -/
def ReadsAs (one : Nat → List Char → Option (Entry × List Char)) (text : List Char)
    (entry : Entry) : Prop :=
  ∀ ⦃limit rest⦄, text.length < limit → Stops extendsNumeral rest →
    one limit (text ++ rest) = some (entry, rest)

/-- Nothing is read at no depth at all, so there is a last level to take off. -/
theorem ReadsAs.of_succ {text : List Char} {entry : Entry}
    (reads : ∀ limit rest, text.length ≤ limit → Stops extendsNumeral rest →
      one (limit + 1) (text ++ rest) = some (entry, rest)) : ReadsAs one text entry := by
  intro limit rest enough stops
  cases limit with
  | zero => exact absurd enough (Nat.not_lt_zero _)
  | succ limit => exact reads limit rest (Nat.le_of_lt_succ enough) stops

variable {Item : Type} {write : Item → List Char} {entry : Item → Entry} {blanks : List Char}

/-- **Entries between commas** are read one by one up to the mark behind them. -/
theorem ReadsList.append (lists : ReadsList close one all) {item : Item} {others : List Item}
    (reads : ∀ each ∈ item :: others, ReadsAs one (write each) (entry each))
    (areBlanks : ∀ char ∈ blanks, isBlank char) {limit : Nat}
    (enough : ([','].intercalate ((item :: others).map write)).length + 1 < limit) :
    all limit ([','].intercalate ((item :: others).map write) ++ (blanks ++ close :: rest)) =
      some ((item :: others).map entry, rest) := by
  induction others generalizing item limit with
  | nil =>
      rw [List.map_singleton, List.intercalate_singleton] at enough ⊢
      obtain ⟨limit, rfl⟩ := Nat.exists_eq_succ_of_ne_zero (by omega : limit ≠ 0)
      have read := reads item List.mem_cons_self (by omega : _ < limit)
        (stops_blanks areBlanks (Source.stops_cons.mpr lists.stops) :
          Stops extendsNumeral (blanks ++ close :: rest))
      exact lists.last read (skipBlanks_append areBlanks lists.dark)
  | cons next others ih =>
      rw [List.map_cons, List.map_cons, List.intercalate_cons_cons, ← List.map_cons] at enough ⊢
      simp only [List.append_assoc, List.length_append, List.cons_append, List.nil_append,
        List.length_cons] at enough ⊢
      obtain ⟨limit, rfl⟩ := Nat.exists_eq_succ_of_ne_zero (by omega : limit ≠ 0)
      obtain ⟨here, later⟩ := List.forall_mem_cons.mp reads
      have read := here (by omega : _ < limit)
        (Source.stops_cons.mpr rfl : Stops extendsNumeral (',' ::
          ([','].intercalate ((next :: others).map write) ++ (blanks ++ close :: rest))))
      rw [lists.more read rfl, ih later (by omega)]
      rfl

/-- What is found behind the mark that opens a list: the mark at the end, or entries. -/
def FindsList (close : Char) (all : Nat → List Char → Option (List Entry × List Char))
    (limit : Nat) (text : List Char) (entries : List Entry) (rest : List Char) : Prop :=
  (entries = [] ∧ skipBlanks text = close :: rest) ∨
    ((∀ after, skipBlanks text ≠ close :: after) ∧
      all limit (skipBlanks text) = some (entries, rest))

/-- Entries and blanks behind them are found, whether there are any or none. -/
theorem ReadsList.finds (lists : ReadsList close one all) {items : List Item}
    (reads : ∀ item ∈ items, ReadsAs one (write item) (entry item))
    (areBlanks : ∀ char ∈ blanks, isBlank char) {limit : Nat}
    (enough : ([','].intercalate (items.map write)).length + 1 < limit) :
    FindsList close all limit ([','].intercalate (items.map write) ++ (blanks ++ close :: rest))
      (items.map entry) rest := by
  cases items with
  | nil => exact .inl ⟨rfl, skipBlanks_append areBlanks lists.dark⟩
  | cons item others =>
      have inside : all limit ([','].intercalate ((item :: others).map write) ++
          (blanks ++ close :: rest)) = some ((item :: others).map entry, rest) :=
        lists.append reads areBlanks enough
      refine .inr ⟨fun after closed => ?_, by rw [lists.skip, inside]⟩
      rw [lists.closed closed] at inside
      cases inside

end Entries

private theorem readsList_items : ReadsList ']' readValue readItems where
  last read skipped := by
    rw [readItems, read]
    simp only [skipped]
  more read skipped := by
    rw [readItems, read]
    simp only [skipped]
  skip limit text := by
    cases limit with
    | zero => rfl
    | succ limit => rw [readItems, readItems, readValue_skipBlanks]
  closed {limit text rest} closed := by
    have noValue (limit : Nat) : readValue limit text = none := by
      cases limit with
      | zero => rfl
      | succ limit =>
          rw [readValue, closed]
          rfl
    cases limit with
    | zero => rfl
    | succ limit => rw [readItems, noValue]
  dark := rfl
  stops := rfl

/-- A member at the start of a text, and the text after it. -/
def readMember (limit : Nat) (text : List Char) :
    Option ((List StringUnit × Outline) × List Char) :=
  match skipBlanks text with
  | '"' :: quotedKey =>
    match readUnits quotedKey with
    | none => none
    | some (key, afterKey) =>
      match skipBlanks afterKey with
      | ':' :: afterColon =>
        (readValue limit afterColon).map fun (value, afterValue) => ((key, value), afterValue)
      | _ => none
  | _ => none

/-- A member that is read, by its parts. -/
theorem readMember_eq_some {limit : Nat} {text after : List Char}
    {member : List StringUnit × Outline} (read : readMember limit text = some (member, after)) :
    ∃ quotedKey afterKey afterColon, skipBlanks text = '"' :: quotedKey ∧
      readUnits quotedKey = some (member.1, afterKey) ∧ skipBlanks afterKey = ':' :: afterColon ∧
      readValue limit afterColon = some (member.2, after) := by
  unfold readMember at read
  split at read
  · next quotedKey quoted =>
      split at read
      · cases read
      · next key afterKey units =>
          split at read
          · next afterColon colon =>
              obtain ⟨⟨value, afterValue⟩, found, same⟩ := Option.map_eq_some_iff.mp read
              cases same
              exact ⟨quotedKey, afterKey, afterColon, quoted, units, colon, found⟩
          · cases read
  · cases read

private theorem readsList_members : ReadsList '\x7d' readMember readMembers where
  last read skipped := by
    obtain ⟨quotedKey, afterKey, afterColon, quoted, units, colon, found⟩ := readMember_eq_some read
    simp only [readMembers, quoted, units, colon, found, skipped]
  more read skipped := by
    obtain ⟨quotedKey, afterKey, afterColon, quoted, units, colon, found⟩ := readMember_eq_some read
    simp only [readMembers, quoted, units, colon, found, skipped]
  skip limit text := by
    cases limit with
    | zero => rfl
    | succ limit => rw [readMembers, readMembers, skipBlanks_skipBlanks]
  closed {limit text rest} closed := by
    cases limit with
    | zero => rfl
    | succ limit =>
        rw [readMembers, closed]
        rfl
  dark := rfl
  stops := rfl

/-! ## Values by their parts -/

/-- A numeral begins with a figure or a minus sign. -/
theorem IsNumeral.begins {numeral : List Char} (isNumeral : IsNumeral numeral) :
    ∃ first others, numeral = first :: others ∧ (first.isDigit ∨ first = '-') := by
  obtain @⟨sign, whole, fraction, exponent, isSign, isWhole, -, -⟩ := isNumeral
  rcases isSign with rfl | rfl
  · cases isWhole with
    | zero => exact ⟨_, _, rfl, .inl rfl⟩
    | figures _ inside => exact ⟨_, _, rfl, .inl (inside _ List.mem_cons_self)⟩
  · exact ⟨_, _, rfl, .inr rfl⟩

private theorem readsAs_numeral {numeral : List Char} (isNumeral : IsNumeral numeral) :
    ReadsAs readValue numeral (.number numeral) := by
  refine .of_succ fun limit rest enough stops => ?_
  have read := readNumeral_append isNumeral stops
  obtain ⟨first, others, rfl, begins⟩ := isNumeral.begins
  have apart {mark : Char} (noDigit : mark.isDigit = false) (noSign : mark ≠ '-') :
      first ≠ mark := by
    rintro rfl
    rcases begins with figure | sign
    · rw [noDigit] at figure
      cases figure
    · exact noSign sign
  have dark : isBlank first = false := by
    simp [isBlank, apart]
  rw [List.cons_append] at read ⊢
  rw [readValue, skipBlanks, List.dropWhile_cons_of_neg (by simp [dark])]
  split
  case h_7 =>
    rw [read]
    rfl
  all_goals next same => exact absurd (List.cons.inj same).1 (apart rfl (by decide))

private theorem readsAs_str (text : String) :
    ReadsAs readValue (quoted text) (.string (text.toList.map stringUnit)) := by
  refine .of_succ fun limit rest enough stops => ?_
  have inside : quoted text ++ rest = '"' :: (text.toList.flatMap stringChar ++ '"' :: rest) := by
    simp [quoted]
  have skipped (text : List Char) : skipBlanks ('"' :: text) = '"' :: text := rfl
  rw [inside, readValue, skipped]
  simp only [readUnits_flatMap]
  rfl

/-- Blanks before a value are passed over. -/
theorem readValue_append {blanks : List Char} (areBlanks : ∀ char ∈ blanks, isBlank char)
    (limit : Nat) (text : List Char) :
    readValue limit (blanks ++ text) = readValue limit text := by
  have skipped : skipBlanks (blanks ++ text) = skipBlanks text :=
    List.dropWhile_append_of_pos areBlanks
  rw [← readValue_skipBlanks, skipped, readValue_skipBlanks]

private theorem ReadsAs.behind {text blanks : List Char} {outline : Outline}
    (reads : ReadsAs readValue text outline) (areBlanks : ∀ char ∈ blanks, isBlank char) :
    ReadsAs readValue (blanks ++ text) outline := by
  intro limit rest enough stops
  rw [List.length_append] at enough
  rw [List.append_assoc, readValue_append areBlanks]
  exact reads (by omega) stops

private theorem readValue_bracket {limit : Nat} {text : List Char} {items : List Outline}
    (finds : FindsList ']' readItems limit text items rest) :
    readValue (limit + 1) ('[' :: text) = some (.array items, rest) := by
  have opened : skipBlanks ('[' :: text) = '[' :: text := rfl
  rcases finds with ⟨rfl, closed⟩ | ⟨notClosed, inside⟩
  · simp only [readValue, opened, closed]
  · simp only [readValue, opened, inside, Option.map_some]

private theorem readValue_brace {limit : Nat} {text : List Char}
    {members : List (List StringUnit × Outline)}
    (finds : FindsList '\x7d' readMembers limit text members rest) :
    readValue (limit + 1) ('\x7b' :: text) = some (.object members, rest) := by
  have opened : skipBlanks ('\x7b' :: text) = '\x7b' :: text := rfl
  rcases finds with ⟨rfl, closed⟩ | ⟨notClosed, inside⟩
  · simp only [readValue, opened, closed]
  · simp only [readValue, opened, inside, Option.map_some]

section Blocks

variable {Item : Type} {write : Item → List Char} {items : List Item} {blanks : List Char}
  (areBlanks : ∀ char ∈ blanks, isBlank char)

include areBlanks

/-- **An array** is read if its items are, whatever blanks stand before its end. -/
theorem readsAs_array {outline : Item → Outline}
    (reads : ∀ item ∈ items, ReadsAs readValue (write item) (outline item)) :
    ReadsAs readValue ('[' :: ([','].intercalate (items.map write) ++ (blanks ++ [']'])))
      (.array (items.map outline)) := by
  refine .of_succ fun limit rest enough stops => ?_
  simp only [List.length_cons, List.length_append, List.length_nil] at enough
  simp only [List.cons_append, List.append_assoc, List.nil_append]
  exact readValue_bracket (readsList_items.finds reads areBlanks (by omega))

/-- **An object** is read if its members are, whatever blanks stand before its end. -/
theorem readsAs_object {member : Item → List StringUnit × Outline}
    (reads : ∀ item ∈ items, ReadsAs readMember (write item) (member item)) :
    ReadsAs readValue ('\x7b' :: ([','].intercalate (items.map write) ++ (blanks ++ ['\x7d'])))
      (.object (items.map member)) := by
  refine .of_succ fun limit rest enough stops => ?_
  simp only [List.length_cons, List.length_append, List.length_nil] at enough
  simp only [List.cons_append, List.append_assoc, List.nil_append]
  exact readValue_brace (readsList_members.finds reads areBlanks (by omega))

end Blocks

private theorem readsAs_member {key : String} {text before behind : List Char} {outline : Outline}
    (areBefore : ∀ char ∈ before, isBlank char) (areBehind : ∀ char ∈ behind, isBlank char)
    (reads : ReadsAs readValue text outline) :
    ReadsAs readMember (before ++ (quoted key ++ ':' :: (behind ++ text)))
      (key.toList.map stringUnit, outline) := by
  intro limit rest enough stops
  simp only [List.length_append, List.length_cons] at enough
  have value := reads (by omega : text.length < limit) stops
  have opened : skipBlanks (before ++ (quoted key ++ ':' :: (behind ++ text)) ++ rest) =
      '"' :: (key.toList.flatMap stringChar ++ '"' :: ':' :: (behind ++ (text ++ rest))) := by
    simp only [quoted, List.append_assoc, List.cons_append, List.nil_append]
    exact skipBlanks_append areBefore rfl
  have colon (text : List Char) : skipBlanks (':' :: text) = ':' :: text := rfl
  simp only [readMember, opened, readUnits_flatMap, colon, readValue_append areBehind, value]
  rfl

/-! ## Whole values -/

private theorem isBlank_of_mem_newLine {level : Nat} {char : Char} (member : char ∈ newLine level) :
    isBlank char := by
  rcases List.mem_cons.mp member with rfl | space
  · rfl
  · rw [List.eq_of_mem_replicate space]
    rfl

/-- A word is read before whatever stands behind it. -/
theorem readsAs_word {word : List Char} {outline : Outline}
    (read : ∀ limit rest, readValue (limit + 1) (word ++ rest) = some (outline, rest)) :
    ReadsAs readValue word outline :=
  .of_succ fun limit rest _ _ => read limit rest

private theorem readsAs_number (value : Number.Binary64) :
    ReadsAs readValue (number value) (float value).outline := by
  by_cases finite : value.isFinite
  · rw [outline, if_pos finite, number_eq_write finite]
    exact readsAs_numeral (isNumeral_write (.inr rfl) value)
  · have isNull : (float value).mark = 'n' := if_neg finite
    have text : number value = "null".toList := (plain_of_mark_null isNull).2
    rw [outline, if_neg finite, text]
    exact readsAs_word fun _ _ => rfl

/-- **The text of a value without blanks** is read as its outline. -/
theorem readsAs_compact (value : Json) : ReadsAs readValue (compact value) value.outline := by
  have noBlanks : ∀ char ∈ ([] : List Char), isBlank char := by simp
  induction value using byParts with
  | null => exact readsAs_word fun _ _ => rfl
  | bool truth => cases truth <;> exact readsAs_word fun _ _ => rfl
  | int number => exact readsAs_numeral (isNumeral_integerDigits number)
  | float value => exact readsAs_number value
  | str text => exact readsAs_str text
  | arr items ih =>
      rw [compact, compactItems_eq, outline, outlineItems_eq]
      exact readsAs_array noBlanks ih
  | obj members ih =>
      have reads : ∀ member ∈ members,
          ReadsAs readMember (compactMember member) (outlineMember member) :=
        fun member among => readsAs_member noBlanks noBlanks (ih member among)
      rw [compact, compactMembers_eq, outline, outlineMembers_eq]
      exact readsAs_object noBlanks reads

/-- **The text of a value over several lines** is read as its outline. -/
theorem readsAs_indented (level : Nat) (value : Json) :
    ReadsAs readValue (indented level value) value.outline := by
  have areBlanks (level : Nat) : ∀ char ∈ newLine level, isBlank char :=
    fun _ => isBlank_of_mem_newLine
  induction value using byParts generalizing level with
  | null => exact readsAs_compact null
  | bool truth =>
      cases truth with
      | false => exact readsAs_compact (bool false)
      | true => exact readsAs_compact (bool true)
  | int number => exact readsAs_compact (int number)
  | float value => exact readsAs_compact (float value)
  | str text => exact readsAs_compact (str text)
  | arr items ih =>
      -- Each item stands on a new line, so it is read behind blanks.
      have reads : ∀ item ∈ items,
          ReadsAs readValue (indentedItem (level + 1) item) item.outline :=
        fun item among => (ih item among (level + 1)).behind (areBlanks _)
      rw [outline, outlineItems_eq]
      cases items with
      | nil => exact readsAs_word fun _ _ => rfl
      | cons item others =>
          rw [indented, indentedItems_eq, List.cons_append, List.cons_append, List.append_assoc]
          exact readsAs_array (areBlanks level) reads
  | obj members ih =>
      have reads : ∀ member ∈ members,
          ReadsAs readMember (indentedMember (level + 1) member) (outlineMember member) := by
        intro member among
        have space : ∀ char ∈ [' '], isBlank char := by simp [isBlank]
        rw [indentedMember, List.append_assoc]
        exact readsAs_member (areBlanks _) space (ih member among (level + 1))
      rw [outline, outlineMembers_eq]
      cases members with
      | nil => exact readsAs_word fun _ _ => rfl
      | cons member others =>
          rw [indented, indentedMembers_eq, List.cons_append, List.cons_append, List.append_assoc]
          exact readsAs_object (areBlanks level) reads

/-! ## Whole texts -/

/-- A whole text is a value with blanks behind it. -/
theorem outline?_of_readsAs {text blanks : List Char} {outline : Outline}
    (reads : ReadsAs readValue text outline) (areBlanks : ∀ char ∈ blanks, isBlank char) :
    outline? (String.ofList (text ++ blanks)) = some outline := by
  have stops : Stops extendsNumeral blanks := by
    simpa using stops_blanks areBlanks Source.stops_nil
  have skipped : skipBlanks blanks = [] := List.dropWhile_eq_nil_iff.mpr areBlanks
  have enough : text.length < 2 * (text ++ blanks).length + 2 := by
    rw [List.length_append]
    omega
  simp only [outline?, String.toList_ofList, reads enough stops, skipped]
  rfl

/-- **The text of a value** is read as its outline. -/
theorem outline?_text (value : Json) : outline? value.text = some value.outline := by
  rw [text, ← List.append_nil value.compact]
  exact outline?_of_readsAs (readsAs_compact value) (by simp)

/-- **The text over several lines** is read as the same outline, with a line end behind it or
without. -/
theorem outline?_pretty (value : Json) :
    outline? value.pretty = some value.outline ∧
      outline? (value.pretty ++ "\n") = some value.outline := by
  have reads := readsAs_indented 0 value
  have ended : value.pretty ++ "\n" = String.ofList (value.indented 0 ++ ['\n']) := by
    rw [String.ofList_append]
    rfl
  rw [ended, pretty]
  constructor
  · rw [← List.append_nil (value.indented 0)]
    exact outline?_of_readsAs reads (by simp)
  · exact outline?_of_readsAs reads (by simp [isBlank])

/-- A string is resolved to its text. -/
theorem string?_outline (text : String) : (str text).outline.string? = some text := by
  rw [outline, Outline.string?, resolve_map_stringUnit, Option.map_some, String.ofList_toList]

/-- The numeral of a natural number denotes it. -/
theorem natural?_outline (value : Nat) : (int value).outline.natural? = some value := by
  have unsigned : Number.integerDigits value = Number.decimalDigits value := by
    simp [Number.integerDigits]
  rw [outline, Outline.natural?, unsigned, Number.ofDigits?_decimalDigits]

end ThriftIdl.Json
