import Mathlib.Algebra.Group.Nat.Even
import Mathlib.Data.List.Induction
import ThriftIdl.Proofs.Grammar.Scanning
import ThriftIdl.Proofs.Layout.Spelling

/-!
# Where escapes begin

The search for a closing quote and the resolution of escapes walk over a text in different ways: the
search takes two characters at a backslash, the resolution as many as the escape has. They agree on
where an escape begins, and that can be told without walking, from the number of backslashes right
before a place (`Unescaped`). The search stops at the first unescaped quote
(`throughQuote?_eq_some_iff`), and the resolution fails just if an unescaped backslash is followed
by no escape (`unescape_eq_none_iff`). Otherwise it copies what stands outside the escapes
(`unescape_eq_some_iff`).
-/

namespace ThriftIdl

open ThriftIdl.Layout (WritesHexDigits)
open ThriftIdl.Parser (isHexDigit)
open ThriftIdl.Source (encode)

namespace Text

/-! ## Backslashes before a place -/

/-- The number of backslashes at the end of a text. -/
def trailingBackslashes (text : List Char) : Nat :=
  (text.reverse.takeWhile (· == '\\')).length

/-- Whether what comes after a text is not hidden by a backslash: an even number of them, possibly
none, stand right before it. -/
def Unescaped (before : List Char) : Prop :=
  Even (trailingBackslashes before)

private theorem trailingBackslashes_append_singleton (text : List Char) (char : Char) :
    trailingBackslashes (text ++ [char]) =
      if char = '\\' then trailingBackslashes text + 1 else 0 := by
  unfold trailingBackslashes
  rw [List.reverse_append, List.reverse_singleton, List.singleton_append, List.takeWhile_cons]
  by_cases backslash : char = '\\'
  · simp [backslash]
  · simp [backslash]

/-- Whether a character hides the next one, if it may be hidden itself. -/
def hides (hidden : Bool) (char : Char) : Bool :=
  char == '\\' && !hidden

/-- What is hidden can be carried along a text. -/
theorem unescaped_iff (before : List Char) :
    Unescaped before ↔ before.foldl hides false = false := by
  unfold Unescaped
  induction before using List.reverseRecOn with
  | nil => simp [trailingBackslashes]
  | append_singleton earlier char ih =>
      rw [trailingBackslashes_append_singleton, List.foldl_append, List.foldl_cons, List.foldl_nil,
        hides]
      by_cases backslash : char = '\\'
      · rw [if_pos backslash, Nat.even_add_one, ih]
        simp [backslash]
      · rw [if_neg backslash]
        simp [backslash]

private theorem unescaped_nil : Unescaped [] :=
  (unescaped_iff []).mpr rfl

private theorem not_unescaped_backslash : ¬Unescaped ['\\'] := by
  simp [unescaped_iff, hides]

/-- Behind an unescaped place the count begins anew. -/
theorem unescaped_append_iff {front : List Char} (unescaped : Unescaped front) (back : List Char) :
    Unescaped (front ++ back) ↔ Unescaped back := by
  rw [unescaped_iff, List.foldl_append, (unescaped_iff front).mp unescaped, ← unescaped_iff]

private theorem unescaped_of_not_mem {text : List Char} (plain : '\\' ∉ text) : Unescaped text := by
  rw [unescaped_iff]
  induction text with
  | nil => rfl
  | cons char rest ih =>
      rw [List.mem_cons, not_or] at plain
      obtain ⟨here, later⟩ := plain
      rw [List.foldl_cons, hides, beq_false_of_ne (Ne.symm here)]
      exact ih later

/-- A backslash and what it hides, with a text behind that has no backslash. -/
theorem unescaped_escape (letter : Char) {group : List Char} (plain : '\\' ∉ group) :
    Unescaped ('\\' :: letter :: group) := by
  have pair : Unescaped ['\\', letter] := by
    simp [unescaped_iff, hides]
  exact (unescaped_append_iff pair group).mpr (unescaped_of_not_mem plain)

private theorem unescaped_cons {char : Char} (plain : char ≠ '\\') (text : List Char) :
    Unescaped (char :: text) ↔ Unescaped text := by
  have single : Unescaped [char] := unescaped_of_not_mem (by simpa using Ne.symm plain)
  exact unescaped_append_iff single text

private theorem not_unescaped_append_backslash {text : List Char} (unescaped : Unescaped text) :
    ¬Unescaped (text ++ ['\\']) :=
  fun again => not_unescaped_backslash ((unescaped_append_iff unescaped _).mp again)

/-! ## The closing quote -/

/-- Every quote of a kind in a text is hidden by a backslash. -/
def AllEscaped (quote : Char) (text : List Char) : Prop :=
  ∀ front back, text = front ++ quote :: back → ¬Unescaped front

/-- A raw text ends at the first unescaped quote. -/
structure Encloses (quote : Char) (text raw more : List Char) : Prop where
  split : text = raw ++ quote :: more
  unescaped : Unescaped raw
  first : AllEscaped quote raw

section ClosingQuote

variable {quote : Char} {text raw : List Char}

private theorem allEscaped_nil : AllEscaped quote [] := by
  intro front back same
  simp at same

private theorem AllEscaped.cons (escaped : AllEscaped quote text) {char : Char}
    (differs : char ≠ quote)
    (plain : char ≠ '\\') : AllEscaped quote (char :: text) := by
  intro front back same unescaped
  cases front with
  | nil => exact differs (List.cons.inj same).1
  | cons first front =>
      obtain ⟨rfl, later⟩ := List.cons.inj same
      exact escaped front back later ((unescaped_cons plain front).mp unescaped)

private theorem AllEscaped.escape (escaped : AllEscaped quote text) (letter : Char)
    (differs : '\\' ≠ quote) : AllEscaped quote ('\\' :: letter :: text) := by
  intro front back same unescaped
  match front with
  | [] => exact differs (List.cons.inj same).1
  | [first] =>
      rw [← (List.cons.inj same).1] at unescaped
      exact not_unescaped_backslash unescaped
  | first :: second :: front =>
      obtain ⟨rfl, later⟩ := List.cons.inj (List.cons.inj same).2
      rw [← (List.cons.inj same).1] at unescaped
      have pair : Unescaped ['\\', letter] := unescaped_escape letter List.not_mem_nil
      exact escaped front back later ((unescaped_append_iff pair front).mp unescaped)

/-- What the search finds ends at the first unescaped quote. -/
theorem exists_encloses (differs : '\\' ≠ quote)
    (found : throughQuote? quote true text = some raw) : ∃ more, Encloses quote text raw more := by
  fun_induction throughQuote? quote true text generalizing raw with
  | case1 => cases found
  | case2 rest =>
      cases found
      exact ⟨rest, rfl, unescaped_nil, allEscaped_nil⟩
  | case3 => cases found
  | case4 char _ backslash letter others ih =>
      obtain ⟨inner, innerFound, rfl⟩ := Option.map_eq_some_iff.mp found
      obtain ⟨more, rfl, unescaped, first⟩ := ih innerFound
      obtain rfl : char = '\\' := by simpa using backslash
      have pair : Unescaped ['\\', letter] := unescaped_escape letter List.not_mem_nil
      exact ⟨more, rfl, (unescaped_append_iff pair inner).mpr unescaped,
        first.escape letter differs⟩
  | case5 char rest other plain ih =>
      obtain ⟨inner, innerFound, rfl⟩ := Option.map_eq_some_iff.mp found
      obtain ⟨more, rfl, unescaped, first⟩ := ih innerFound
      have plain : char ≠ '\\' := by simpa using plain
      exact ⟨more, rfl, (unescaped_cons plain inner).mpr unescaped, first.cons other plain⟩

/-- If the search finds nothing, then every quote is escaped. -/
theorem allEscaped_of_throughQuote? (differs : '\\' ≠ quote)
    (missed : throughQuote? quote true text = none) : AllEscaped quote text := by
  fun_induction throughQuote? quote true text with
  | case1 => exact allEscaped_nil
  | case2 => cases missed
  | case3 char other backslash =>
      obtain rfl : char = '\\' := by simpa using backslash
      intro front back same
      cases front with
      | nil => exact absurd (List.cons.inj same).1 differs
      | cons first front => simp at same
  | case4 char _ backslash letter others ih =>
      obtain rfl : char = '\\' := by simpa using backslash
      exact (ih (Option.map_eq_none_iff.mp missed)).escape letter differs
  | case5 char rest other plain ih =>
      exact (ih (Option.map_eq_none_iff.mp missed)).cons other (by simpa using plain)

/-- A text ends at the first unescaped quote in one way only. -/
theorem Encloses.unique {raw' more more' : List Char} (encloses : Encloses quote text raw more)
    (encloses' : Encloses quote text raw' more') : raw = raw' := by
  have same := encloses.split.symm.trans encloses'.split
  rcases List.append_eq_append_iff.mp same with ⟨between, rfl, after⟩ | ⟨between, rfl, after⟩
  · cases between with
    | nil => exact (List.append_nil raw).symm
    | cons first between =>
        obtain ⟨rfl, rfl⟩ := List.cons.inj after
        exact absurd encloses.unescaped (encloses'.first raw between rfl)
  · cases between with
    | nil => exact List.append_nil raw'
    | cons first between =>
        obtain ⟨rfl, rfl⟩ := List.cons.inj after
        exact absurd encloses'.unescaped (encloses.first raw' between rfl)

/-- **The search for a closing quote** finds one just if some later quote is unescaped. -/
theorem throughQuote?_ne_none_iff (differs : '\\' ≠ quote) :
    throughQuote? quote true text ≠ none ↔
      ∃ front back, text = front ++ quote :: back ∧ Unescaped front := by
  constructor
  · intro found
    obtain ⟨raw, found⟩ := Option.ne_none_iff_exists'.mp found
    obtain ⟨more, split, unescaped, -⟩ := exists_encloses differs found
    exact ⟨raw, more, split, unescaped⟩
  · rintro ⟨front, back, split, unescaped⟩ missed
    exact allEscaped_of_throughQuote? differs missed front back split unescaped

/-- **The raw text of a string** ends at the first unescaped quote. -/
theorem throughQuote?_eq_some_iff (differs : '\\' ≠ quote) :
    throughQuote? quote true text = some raw ↔ ∃ more, Encloses quote text raw more := by
  refine ⟨exists_encloses differs, fun ⟨more, encloses⟩ => ?_⟩
  have found : throughQuote? quote true text ≠ none :=
    (throughQuote?_ne_none_iff differs).mpr ⟨raw, more, encloses.split, encloses.unescaped⟩
  obtain ⟨raw', found⟩ := Option.ne_none_iff_exists'.mp found
  obtain ⟨more', encloses'⟩ := exists_encloses differs found
  rw [found, encloses.unique encloses']

end ClosingQuote

/-! ## Groups of digits -/

/-- A letter of a hexadecimal digit in either case is that of its value. -/
theorem toLower_of_digit? {char : Char} {figure : Nat}
    (read : Number.digit? 16 char = some figure) : char.toLower = figure.digitChar := by
  have small : ∀ point < 128, ∀ figure ∈ Number.digit? 16 (Char.ofNat point),
      (Char.ofNat point).toLower = figure.digitChar := by
    decide +kernel
  have ascii : char.toNat < 128 :=
    Source.Ascii.isHexDigit char (Option.isSome_iff_exists.mpr ⟨figure, read⟩)
  have here := small char.toNat ascii figure
  rw [Char.ofNat_toNat] at here
  exact here read

/-- One more figure behind a hexadecimal numeral. -/
theorem hexDigits_append {known figure : Nat} (below : figure < 16) :
    Number.hexDigits (known * 16 + figure) =
      if known = 0 then [figure.digitChar] else Number.hexDigits known ++ [figure.digitChar] := by
  rw [Number.hexDigits, Nat.toDigits_eq_if (by decide)]
  by_cases first : known = 0
  · subst first
    rw [if_pos (by omega), if_pos rfl, Nat.zero_mul, Nat.zero_add]
  · rw [if_neg (by omega), if_neg first, show (known * 16 + figure) / 16 = known by omega,
      show (known * 16 + figure) % 16 = figure by omega, Number.hexDigits]

/-- **A run of digits is a numeral** of the number that is read from it. -/
theorem writesHexDigits_of_ofDigits? {digits : List Char} {value : Nat}
    (read : Number.ofDigits? 16 digits = some value) : WritesHexDigits value digits := by
  induction digits using List.reverseRecOn generalizing value with
  | nil => cases read
  | append_singleton front last ih =>
      rw [Number.ofDigits?_of_ne_nil (List.append_ne_nil_of_right_ne_nil _ (by simp)),
        Number.appendDigits?_append, Option.bind_eq_some_iff] at read
      obtain ⟨known, before, here⟩ := read
      obtain ⟨figure, digit, rfl⟩ : ∃ figure, Number.digit? 16 last = some figure ∧
          value = known * 16 + figure := by
        unfold Number.appendDigits? at here
        cases digit : Number.digit? 16 last with
        | none => simp [digit] at here
        | some figure =>
            simp only [digit, Number.appendDigits?, Option.some.injEq] at here
            exact ⟨figure, rfl, here.symm⟩
      have below := Number.digit?_lt digit
      have lower : (front ++ [last]).map Char.toLower =
          front.map Char.toLower ++ [figure.digitChar] := by
        rw [List.map_append, List.map_singleton, toLower_of_digit? digit]
      rw [WritesHexDigits, lower, hexDigits_append below]
      by_cases only : front = []
      · subst only
        obtain rfl : 0 = known := by simpa [Number.appendDigits?] using before
        exact ⟨[], by simp, rfl⟩
      · rw [← Number.ofDigits?_of_ne_nil only] at before
        obtain ⟨zeros, areZeros, figures⟩ := ih before
        rw [figures]
        by_cases first : known = 0
        · subst first
          refine ⟨zeros ++ ['0'], fun char member => ?_, rfl⟩
          exact (List.mem_append.mp member).elim (areZeros char) List.mem_singleton.mp
        · exact ⟨zeros, areZeros, by rw [if_neg first, List.append_assoc]⟩

/-- A group of hexadecimal digits that denotes a character, that is, a Unicode scalar value. A plus
sign may stand before the digits. -/
def Denotes (group : List Char) (char : Char) : Prop :=
  ∃ digits, WritesHexDigits char.toNat digits ∧ (group = digits ∨ group = '+' :: digits)

private theorem pointOfGroup?_eq_some_iff {group : List Char} {char : Char} :
    pointOfGroup? group = some char ↔ Denotes group char := by
  constructor
  · intro read
    unfold pointOfGroup? at read
    split at read
    · next point denoted =>
        split at read
        · next valid =>
            cases read
            have same : (Char.ofNat point).toNat = point := by
              rw [Char.ofNat, dif_pos valid]
              rfl
            unfold Number.ofPlusDigits? at denoted
            split at denoted
            · exact ⟨_, same.symm ▸ writesHexDigits_of_ofDigits? denoted, .inr rfl⟩
            · exact ⟨_, same.symm ▸ writesHexDigits_of_ofDigits? denoted, .inl rfl⟩
        · cases read
    · cases read
  · rintro ⟨digits, writes, rfl | rfl⟩
    · exact Layout.pointOfGroup?_of_writesHexDigits writes
    · have valid : char.toNat.isValidChar := char.valid
      rw [pointOfGroup?, Number.ofPlusDigits?, Layout.ofDigits?_of_writesHexDigits writes]
      simp [valid]

/-- In a group that denotes a character there are hexadecimal digits only, and perhaps the sign. -/
theorem Denotes.mem {group : List Char} {char : Char} (denotes : Denotes group char) :
    ∀ other ∈ group, other = '+' ∨ isHexDigit other := by
  obtain ⟨digits, writes, same⟩ := denotes
  have digit := Layout.isHexDigit_of_ofDigits? (Layout.ofDigits?_of_writesHexDigits writes)
  intro other member
  rcases same with rfl | rfl
  · exact .inr (digit other member)
  · exact (List.mem_cons.mp member).imp_right (digit other)

private theorem Denotes.not_mem {group : List Char} {char : Char} (denotes : Denotes group char)
    {special : Char} (isSpecial : special = '\\' ∨ special = '\x7d') : special ∉ group := by
  intro member
  have here := denotes.mem special member
  rcases isSpecial with rfl | rfl <;> revert here <;> decide

/-- Each character of a group is one byte. -/
theorem Denotes.length_encode {group : List Char} {char : Char} (denotes : Denotes group char) :
    (encode group).length = group.length := by
  have ascii : ∀ other ∈ group, other.toNat < 128 := by
    intro other member
    rcases denotes.mem other member with rfl | digit
    · decide
    · exact Source.Ascii.isHexDigit other digit
  clear denotes
  induction group with
  | nil => rfl
  | cons first rest ih =>
      obtain ⟨here, later⟩ := List.forall_mem_cons.mp ascii
      rw [Source.encode_cons, Source.utf8EncodeChar_of_ascii here, List.singleton_append,
        List.length_cons, List.length_cons, ih later]

private theorem readGroup_eq_some_iff {length : Nat} {text chars rest : List Char} :
    readGroup length text = some (chars, rest) ↔
      ∃ group char, Denotes group char ∧ text = group ++ rest ∧ group.length = length ∧
        chars = [char] := by
  unfold readGroup
  constructor
  · intro read
    dsimp only at read
    split at read
    · next whole =>
        obtain ⟨char, denoted, same⟩ := Option.map_eq_some_iff.mp read
        cases same
        exact ⟨text.take length, char, pointOfGroup?_eq_some_iff.mp denoted,
          (List.take_append_drop length text).symm, whole, rfl⟩
    · cases read
  · rintro ⟨group, char, denotes, rfl, rfl, rfl⟩
    simp only [List.take_left, List.drop_left, if_pos, pointOfGroup?_eq_some_iff.mpr denotes,
      Option.map_some]

private theorem readBraced_eq_some_iff {text chars rest : List Char} :
    readBraced text = some (chars, rest) ↔
      ∃ group char, Denotes group char ∧ text = group ++ '\x7d' :: rest ∧
        1 ≤ group.length ∧ group.length ≤ 6 ∧ chars = [char] := by
  -- The group goes up to the first closing brace, and denotes nothing if it holds one.
  have cut := List.takeWhile_append_dropWhile (p := (· != '\x7d')) (l := text)
  unfold readBraced
  constructor
  · intro read
    dsimp only at read
    split at read
    · cases read
    · next brace after closing =>
        obtain rfl : brace = '\x7d' := by
          have stops := List.head?_dropWhile_not (· != '\x7d') text
          simpa [closing] using stops
        split at read
        · next size =>
            obtain ⟨char, denoted, same⟩ := Option.map_eq_some_iff.mp read
            cases same
            exact ⟨_, char, pointOfGroup?_eq_some_iff.mp denoted, by rw [← closing, cut], size.1,
              size.2, rfl⟩
        · cases read
  · rintro ⟨group, char, denotes, rfl, nonempty, short, rfl⟩
    have free : ∀ other ∈ group, (other != '\x7d') = true := by
      intro other member
      simpa using fun same : other = '\x7d' => denotes.not_mem (.inr rfl) (same ▸ member)
    have front : (group ++ '\x7d' :: rest).takeWhile (· != '\x7d') = group := by
      rw [List.takeWhile_append_of_pos free]
      simp
    have back : (group ++ '\x7d' :: rest).dropWhile (· != '\x7d') = '\x7d' :: rest := by
      rw [List.dropWhile_append_of_pos free]
      simp
    simp only [front, back, pointOfGroup?_eq_some_iff.mpr denotes, Option.map_some,
      if_pos (And.intro nonempty short)]

/-- A letter that takes a group of digits has one behind it that denotes a character: two characters
after `x`, and after `u` four of them or one to six bytes in braces. -/
def HasGroup (letter : Char) (after : List Char) : Prop :=
  ∃ group more char, Denotes group char ∧
    (letter = 'x' ∧ after = group ++ more ∧ group.length = 2 ∨
      letter = 'u' ∧ after = group ++ more ∧ group.length = 4 ∨
      letter = 'u' ∧ after = '\x7b' :: (group ++ '\x7d' :: more) ∧
        1 ≤ (encode group).length ∧ (encode group).length ≤ 6)

/-! ## Single escapes -/

private theorem readEscape_x (after : List Char) :
    readEscape ('x' :: after) = none ↔ ¬HasGroup 'x' after := by
  have read : readEscape ('x' :: after) = readGroup 2 after := rfl
  rw [read, ← not_iff_not, not_not, ← ne_eq, Option.ne_none_iff_exists', Prod.exists]
  simp only [readGroup_eq_some_iff]
  constructor
  · rintro ⟨chars, more, group, char, denotes, split, size, -⟩
    exact ⟨group, more, char, denotes, .inl ⟨rfl, split, size⟩⟩
  · rintro ⟨group, more, char, denotes, ⟨-, split, size⟩ | ⟨isU, -⟩ | ⟨isU, -⟩⟩
    · exact ⟨[char], more, group, char, denotes, split, size, rfl⟩
    · cases isU
    · cases isU

private theorem readEscape_u (after : List Char) :
    readEscape ('u' :: after) = none ↔ ¬HasGroup 'u' after := by
  rw [← not_iff_not, not_not, ← ne_eq, Option.ne_none_iff_exists', Prod.exists]
  by_cases braced : after.head? = some '\x7b'
  · obtain ⟨inner, rfl⟩ := List.head?_eq_some_iff.mp braced
    have read : readEscape ('u' :: '\x7b' :: inner) = readBraced inner := rfl
    simp only [read, readBraced_eq_some_iff]
    constructor
    · rintro ⟨chars, more, group, char, denotes, rfl, nonempty, short, -⟩
      rw [← denotes.length_encode] at nonempty short
      exact ⟨group, more, char, denotes, .inr (.inr ⟨rfl, rfl, nonempty, short⟩)⟩
    · rintro ⟨group, more, char, denotes, ⟨isX, -⟩ | ⟨-, split, size⟩ | ⟨-, split, nonempty, short⟩⟩
      · cases isX
      · -- No group that denotes a character begins with a brace.
        cases group with
        | nil => cases size
        | cons first group =>
            have here := denotes.mem first List.mem_cons_self
            rw [← (List.cons.inj split).1] at here
            exact absurd here (by decide)
      · rw [denotes.length_encode] at nonempty short
        exact ⟨[char], more, group, char, denotes, (List.cons.inj split).2, nonempty, short, rfl⟩
  · have read : readEscape ('u' :: after) = readGroup 4 after := by
      rw [readEscape]
      rintro inner rfl
      exact braced rfl
    simp only [read, readGroup_eq_some_iff]
    constructor
    · rintro ⟨chars, more, group, char, denotes, split, size, -⟩
      exact ⟨group, more, char, denotes, .inr (.inl ⟨rfl, split, size⟩)⟩
    · rintro ⟨group, more, char, denotes, ⟨isX, -⟩ | ⟨-, split, size⟩ | ⟨-, rfl, -⟩⟩
      · cases isX
      · exact ⟨[char], more, group, char, denotes, split, size, rfl⟩
      · exact absurd rfl braced

/-- **No escape** is read just where nothing follows the backslash, or a letter that takes a group
of digits without one. -/
theorem readEscape_eq_none_iff {text : List Char} : readEscape text = none ↔
    text = [] ∨ ∃ letter after, text = letter :: after ∧ (letter = 'x' ∨ letter = 'u') ∧
      ¬HasGroup letter after := by
  cases text with
  | nil => simp [readEscape]
  | cons letter after =>
      by_cases isX : letter = 'x'
      · subst isX
        simp [readEscape_x]
      · by_cases isU : letter = 'u'
        · subst isU
          simp [readEscape_u]
        · have read : readEscape (letter :: after) ≠ none := by
            rw [readEscape.eq_def]
            split <;> simp_all
          simp [read, isX, isU]

/-- An escape is the character behind its backslash and a text without backslashes. -/
theorem exists_of_readEscape {text chars after : List Char}
    (read : readEscape text = some (chars, after)) :
    ∃ letter group, text = letter :: (group ++ after) ∧ '\\' ∉ group := by
  unfold readEscape at read
  split at read
  case h_1 => cases read
  case h_9 rest =>
    obtain ⟨group, char, denotes, rfl, -, -⟩ := readGroup_eq_some_iff.mp read
    exact ⟨'x', group, rfl, denotes.not_mem (.inl rfl)⟩
  case h_10 rest =>
    obtain ⟨group, char, denotes, rfl, -, -, -⟩ := readBraced_eq_some_iff.mp read
    refine ⟨'u', '\x7b' :: (group ++ ['\x7d']), by simp, ?_⟩
    simp [denotes.not_mem (.inl rfl)]
  case h_11 rest _ =>
    obtain ⟨group, char, denotes, rfl, -, -⟩ := readGroup_eq_some_iff.mp read
    exact ⟨'u', group, rfl, denotes.not_mem (.inl rfl)⟩
  case h_12 rest =>
    cases read
    exact ⟨'\r', ['\n'], rfl, by decide⟩
  all_goals
    cases read
    exact ⟨_, [], rfl, List.not_mem_nil⟩

/-! ## Resolving the escapes of a text -/

/-- Resolving a text comes to a place from which a text is left: character by character outside
escapes, and escape by escape. -/
inductive Visits (text : List Char) : List Char → Prop
  | start : Visits text text
  | plain {char : Char} {rest : List Char} : Visits text (char :: rest) → char ≠ '\\' →
      Visits text rest
  | escape {rest chars after : List Char} : Visits text ('\\' :: rest) →
      readEscape rest = some (chars, after) → Visits text after

variable {text : List Char}

private theorem Visits.trans {middle left : List Char} (first : Visits text middle)
    (second : Visits middle left) : Visits text left := by
  induction second with
  | start => exact first
  | plain _ plain ih => exact ih.plain plain
  | escape _ read ih => exact ih.escape read

/-- **Resolving and searching keep in step.** Where resolving comes to, the next character is
unescaped. -/
theorem Visits.unescaped {left : List Char} (visits : Visits text left) :
    ∃ before, text = before ++ left ∧ Unescaped before := by
  induction visits with
  | start => exact ⟨[], rfl, unescaped_nil⟩
  | @plain char rest _ plain ih =>
      obtain ⟨before, split, unescaped⟩ := ih
      have single : Unescaped [char] := unescaped_of_not_mem (by simpa using Ne.symm plain)
      exact ⟨before ++ [char], by simp [split], (unescaped_append_iff unescaped _).mpr single⟩
  | @escape rest chars after _ read ih =>
      obtain ⟨before, split, unescaped⟩ := ih
      obtain ⟨letter, group, rfl, plain⟩ := exists_of_readEscape read
      exact ⟨before ++ '\\' :: letter :: group, by simp [split],
        (unescaped_append_iff unescaped _).mpr (unescaped_escape letter plain)⟩

/-- No text that ends unescaped is left with a backslash and nothing after it. -/
theorem Visits.ne_backslash {left : List Char} (unescaped : Unescaped text)
    (visits : Visits text left) : left ≠ ['\\'] := by
  rintro rfl
  obtain ⟨before, rfl, unescaped'⟩ := visits.unescaped
  exact not_unescaped_append_backslash unescaped' unescaped

private theorem unescape_plain {char : Char} (plain : char ≠ '\\') (rest : List Char) :
    unescape (char :: rest) = (unescape rest).map (char :: ·) := by
  rw [unescape, if_neg plain]

private theorem unescape_escape {rest chars after : List Char}
    (read : readEscape rest = some (chars, after)) :
    unescape ('\\' :: rest) = (unescape after).map (chars ++ ·) := by
  rw [unescape, if_pos rfl]
  split
  · next chars' after' read' =>
      rw [read] at read'
      cases read'
      rfl
  · next missed =>
      rw [read] at missed
      cases missed

/-- An unescaped backslash behind the start of an escape stands behind the whole of it. -/
theorem split_behind_escape {letter : Char} {group rest before after : List Char}
    (plain : '\\' ∉ group) (split : '\\' :: letter :: (group ++ rest) = before ++ '\\' :: after)
    (unescaped : Unescaped before) :
    before = [] ∨ ∃ later, before = '\\' :: letter :: (group ++ later) ∧
      rest = later ++ '\\' :: after ∧ Unescaped later := by
  match before with
  | [] => exact .inl rfl
  | [first] =>
      rw [← (List.cons.inj split).1] at unescaped
      exact absurd unescaped not_unescaped_backslash
  | first :: second :: before =>
      obtain ⟨rfl, inside⟩ := List.cons.inj (List.cons.inj split).2
      obtain rfl := (List.cons.inj split).1
      refine .inr ?_
      rcases List.append_eq_append_iff.mp inside with
        ⟨later, rfl, behind⟩ | ⟨between, rfl, overlap⟩
      · refine ⟨later, rfl, behind, ?_⟩
        exact (unescaped_append_iff (unescaped_escape letter plain) later).mp unescaped
      · cases between with
        | nil => exact ⟨[], by simp, by simpa using overlap.symm, unescaped_nil⟩
        | cons first between =>
            obtain ⟨rfl, -⟩ := List.cons.inj overlap
            exact absurd (by simp) plain

/-- **A text cannot be resolved** just if some unescaped backslash in it begins no escape. -/
theorem unescape_eq_none_iff : unescape text = none ↔
    ∃ before after, text = before ++ '\\' :: after ∧ Unescaped before ∧
      readEscape after = none := by
  fun_induction unescape text with
  | case1 => simp
  | case2 rest chars after read ih =>
      obtain ⟨letter, group, rfl, plain⟩ := exists_of_readEscape read
      rw [Option.map_eq_none_iff, ih]
      constructor
      · rintro ⟨before, later, rfl, unescaped, missed⟩
        refine ⟨'\\' :: letter :: (group ++ before), later, by simp, ?_, missed⟩
        exact (unescaped_append_iff (unescaped_escape letter plain) before).mpr unescaped
      · rintro ⟨before, later, split, unescaped, missed⟩
        rcases split_behind_escape plain split unescaped with rfl | ⟨before, rfl, rfl, unescaped⟩
        · rw [← (List.cons.inj split).2, read] at missed
          cases missed
        · exact ⟨before, later, rfl, unescaped, missed⟩
  | case3 rest missed =>
      exact iff_of_true rfl ⟨[], rest, rfl, unescaped_nil, missed⟩
  | case4 char rest plain ih =>
      rw [Option.map_eq_none_iff, ih]
      constructor
      · rintro ⟨before, after, rfl, unescaped, missed⟩
        exact ⟨char :: before, after, rfl, (unescaped_cons plain before).mpr unescaped, missed⟩
      · rintro ⟨before, after, split, unescaped, missed⟩
        cases before with
        | nil => exact absurd (List.cons.inj split).1 plain
        | cons first before =>
            obtain ⟨rfl, later⟩ := List.cons.inj split
            exact ⟨before, after, later, (unescaped_cons plain before).mp unescaped, missed⟩

/-- **A text that ends unescaped cannot be resolved** just if some unescaped `x` or `u` in it has no
group of digits that denotes a character. -/
theorem unescape_eq_none_iff_hasGroup (unescaped : Unescaped text) : unescape text = none ↔
    ∃ before letter after, text = before ++ '\\' :: letter :: after ∧ Unescaped before ∧
      (letter = 'x' ∨ letter = 'u') ∧ ¬HasGroup letter after := by
  rw [unescape_eq_none_iff]
  constructor
  · rintro ⟨before, after, rfl, unescapedBefore, missed⟩
    rcases readEscape_eq_none_iff.mp missed with rfl | ⟨letter, after, rfl, takes, lacks⟩
    · exact absurd unescaped (not_unescaped_append_backslash unescapedBefore)
    · exact ⟨before, letter, after, rfl, unescapedBefore, takes, lacks⟩
  · rintro ⟨before, letter, after, split, unescapedBefore, takes, lacks⟩
    exact ⟨before, letter :: after, split, unescapedBefore,
      readEscape_eq_none_iff.mpr (.inr ⟨letter, after, rfl, takes, lacks⟩)⟩

/-- **A text cannot be resolved** just if resolving comes to a backslash that begins no escape. -/
theorem unescape_eq_none_iff_visits : unescape text = none ↔
    ∃ after, Visits text ('\\' :: after) ∧ readEscape after = none := by
  constructor
  · intro missed
    fun_induction unescape text with
    | case1 => cases missed
    | case2 rest chars after read ih =>
        obtain ⟨later, visits, missed⟩ := ih (Option.map_eq_none_iff.mp missed)
        exact ⟨later, (Visits.start.escape read).trans visits, missed⟩
    | case3 rest fails => exact ⟨rest, .start, fails⟩
    | case4 char rest plain ih =>
        obtain ⟨later, visits, missed⟩ := ih (Option.map_eq_none_iff.mp missed)
        exact ⟨later, (Visits.start.plain plain).trans visits, missed⟩
  · rintro ⟨after, visits, missed⟩
    obtain ⟨before, split, unescaped⟩ := visits.unescaped
    exact unescape_eq_none_iff.mpr ⟨before, after, split, unescaped, missed⟩

/-- What a text is resolved to: the stretches outside its escapes are copied, and each escape is
replaced by the characters that it stands for. An escape takes with it the character that its
backslash hides and the group of digits after it, so a stretch reaches from the end of an escape to
the next backslash. -/
inductive Resolves : List Char → List Char → Prop
  | stretch {stretch : List Char} : '\\' ∉ stretch → Resolves stretch stretch
  | escape {stretch rest chars after resolved : List Char} : '\\' ∉ stretch →
      readEscape rest = some (chars, after) → Resolves after resolved →
      Resolves (stretch ++ '\\' :: rest) (stretch ++ (chars ++ resolved))

/-- **A stretch without a backslash is copied unchanged**, whatever comes after it. -/
theorem unescape_append {stretch : List Char} (plain : '\\' ∉ stretch) (rest : List Char) :
    unescape (stretch ++ rest) = (unescape rest).map (stretch ++ ·) := by
  induction stretch with
  | nil => simp
  | cons char stretch ih =>
      rw [List.mem_cons, not_or] at plain
      rw [List.cons_append, unescape_plain (Ne.symm plain.1), ih plain.2, Option.map_map]
      rfl

private theorem Resolves.cons {char : Char} {resolved : List Char} (plain : char ≠ '\\')
    (resolves : Resolves text resolved) : Resolves (char :: text) (char :: resolved) := by
  have longer {stretch : List Char} (free : '\\' ∉ stretch) : '\\' ∉ char :: stretch := by
    rw [List.mem_cons, not_or]
    exact ⟨Ne.symm plain, free⟩
  cases resolves with
  | stretch free => exact .stretch (longer free)
  | @escape stretch rest chars after resolved free read later =>
      exact @Resolves.escape (char :: stretch) _ _ _ _ (longer free) read later

/-- **What a text is resolved to** is what stands outside its escapes and what they stand for. -/
theorem unescape_eq_some_iff {resolved : List Char} :
    unescape text = some resolved ↔ Resolves text resolved := by
  constructor
  · intro found
    fun_induction unescape text generalizing resolved with
    | case1 =>
        cases found
        exact .stretch List.not_mem_nil
    | case2 rest chars after read ih =>
        obtain ⟨later, resolvedLater, rfl⟩ := Option.map_eq_some_iff.mp found
        exact @Resolves.escape [] _ _ _ _ List.not_mem_nil read (ih resolvedLater)
    | case3 => cases found
    | case4 char rest plain ih =>
        obtain ⟨later, resolvedLater, rfl⟩ := Option.map_eq_some_iff.mp found
        exact (ih resolvedLater).cons plain
  · intro resolves
    induction resolves with
    | @stretch stretch free =>
        have copied := unescape_append free []
        rwa [List.append_nil, unescape, Option.map_some, List.append_nil] at copied
    | escape free read _ ih =>
        rw [unescape_append free, unescape_escape read, ih, Option.map_some, Option.map_some]

end Text
end ThriftIdl
