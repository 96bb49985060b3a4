import ThriftIdl.Number.Digits

/-!
# Escapes in written strings

A backslash begins an escape. Some letters name a control character, `x` and `u` begin a group of
hexadecimal digits for a code point, a line break after a backslash joins two lines, and any other
character stands for itself. Main statement: `length_readEscape_le`.
-/

namespace ThriftIdl.Text

/-- The character of a code point given by a group of hexadecimal digits, which may begin with a
plus sign. -/
def pointOfGroup? (group : List Char) : Option Char :=
  match Number.ofPlusDigits? 16 group with
  | some point => if point.isValidChar then some (Char.ofNat point) else none
  | none => none

/-- The character of a group of a fixed length at the start of a text, and the text after it. -/
def readGroup (length : Nat) (text : List Char) : Option (List Char × List Char) :=
  let group := text.take length
  if group.length = length then
    (pointOfGroup? group).map fun char => ([char], text.drop length)
  else none

/-- The character of a group of one to six digits up to a closing brace, and the text after it. -/
def readBraced (text : List Char) : Option (List Char × List Char) :=
  let group := text.takeWhile (· != '\x7d')
  match text.dropWhile (· != '\x7d') with
  | [] => none
  | _ :: rest =>
    if 1 ≤ group.length ∧ group.length ≤ 6 then
      (pointOfGroup? group).map fun char => ([char], rest)
    else none

/-- What an escape stands for and the text after it, given the text after its backslash. -/
def readEscape : List Char → Option (List Char × List Char)
  | [] => none
  | 'n' :: rest => some (['\n'], rest)
  | 'r' :: rest => some (['\r'], rest)
  | 't' :: rest => some (['\t'], rest)
  | '0' :: rest => some (['\x00'], rest)
  | 'b' :: rest => some (['\x08'], rest)
  | 'f' :: rest => some (['\x0c'], rest)
  | 'v' :: rest => some (['\x0b'], rest)
  | 'x' :: rest => readGroup 2 rest
  | 'u' :: '\x7b' :: rest => readBraced rest
  | 'u' :: rest => readGroup 4 rest
  | '\r' :: '\n' :: rest => some ([], rest)
  | '\r' :: rest => some ([], rest)
  | '\n' :: rest => some ([], rest)
  | char :: rest => some ([char], rest)

private theorem length_readGroup_le {length : Nat} {text chars rest : List Char}
    (read : readGroup length text = some (chars, rest)) : rest.length ≤ text.length := by
  unfold readGroup at read
  dsimp only at read
  split at read
  · obtain ⟨_, _, equal⟩ := Option.map_eq_some_iff.mp read
    cases equal
    simp
  · cases read

private theorem length_readBraced_le {text chars rest : List Char}
    (read : readBraced text = some (chars, rest)) : rest.length ≤ text.length := by
  unfold readBraced at read
  dsimp only at read
  split at read
  · cases read
  · next brace after closing =>
    have within := (List.dropWhile_suffix (l := text) (· != '\x7d')).length_le
    rw [closing] at within
    split at read
    · obtain ⟨_, _, equal⟩ := Option.map_eq_some_iff.mp read
      cases equal
      simp only [List.length_cons] at within
      omega
    · cases read

/-- What follows an escape is part of what followed its backslash. -/
theorem length_readEscape_le {text chars rest : List Char}
    (read : readEscape text = some (chars, rest)) : rest.length ≤ text.length := by
  unfold readEscape at read
  split at read
  case h_1 => cases read
  case h_9 => exact Nat.le_succ_of_le (length_readGroup_le read)
  case h_10 =>
    exact Nat.le_succ_of_le (Nat.le_succ_of_le (length_readBraced_le read))
  case h_11 => exact Nat.le_succ_of_le (length_readGroup_le read)
  all_goals
    cases read
    simp only [List.length_cons]
    omega

/-- The text that a written string stands for, unless one of its escapes is malformed. -/
def unescape : List Char → Option (List Char)
  | [] => some []
  | char :: rest =>
    if char = '\\' then
      match _read : readEscape rest with
      | some (chars, after) => (unescape after).map (chars ++ ·)
      | none => none
    else (unescape rest).map (char :: ·)
termination_by text => text.length
decreasing_by
  · have within := length_readEscape_le _read
    simp only [List.length_cons]
    omega
  · simp only [List.length_cons]
    omega

/-- The raw text of a string up to its closing quote, given the text after its opening quote. With
escapes in force, a backslash takes the next character out of consideration. -/
def throughQuote? (quote : Char) (escapes : Bool) : List Char → Option (List Char)
  | [] => none
  | char :: rest =>
    if char = quote then some []
    else if escapes && char == '\\' then
      match rest with
      | [] => none
      | hidden :: others => (throughQuote? quote escapes others).map (char :: hidden :: ·)
    else (throughQuote? quote escapes rest).map (char :: ·)

/-- A raw text is what stands before its closing quote. -/
theorem append_quote_of_throughQuote? {quote : Char} {escapes : Bool} {text raw : List Char}
    (found : throughQuote? quote escapes text = some raw) : raw ++ [quote] <+: text := by
  fun_induction throughQuote? quote escapes text generalizing raw with
  | case1 => cases found
  | case2 rest =>
    cases found
    exact ⟨rest, rfl⟩
  | case3 => cases found
  | case4 char _ _ hidden others step =>
    obtain ⟨inner, innerFound, rfl⟩ := Option.map_eq_some_iff.mp found
    exact List.cons_prefix_cons.mpr ⟨rfl, List.cons_prefix_cons.mpr ⟨rfl, step innerFound⟩⟩
  | case5 char rest _ _ step =>
    obtain ⟨inner, innerFound, rfl⟩ := Option.map_eq_some_iff.mp found
    exact List.cons_prefix_cons.mpr ⟨rfl, step innerFound⟩

end ThriftIdl.Text
