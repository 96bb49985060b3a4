/-!
# White space around a text

The twenty-five characters with the `White_Space` property, and the removal of them from the end of
a text or from both of its ends.
-/

namespace ThriftIdl.Text

/-- The code points with the `White_Space` property. -/
def blankPoints : List Nat :=
  [0x9, 0xa, 0xb, 0xc, 0xd, 0x20, 0x85, 0xa0, 0x1680, 0x2000, 0x2001, 0x2002, 0x2003, 0x2004,
   0x2005, 0x2006, 0x2007, 0x2008, 0x2009, 0x200a, 0x2028, 0x2029, 0x202f, 0x205f, 0x3000]

/-- Whether a character has the `White_Space` property. -/
def isBlank (char : Char) : Bool :=
  blankPoints.contains char.toNat

/-- The text without the white space at its end. -/
def trimEnd (text : List Char) : List Char :=
  (text.reverse.dropWhile isBlank).reverse

/-- The text without the white space at its beginning and at its end. -/
def trim (text : List Char) : List Char :=
  trimEnd (text.dropWhile isBlank)

/-- What a trimmed text has lost is white space. -/
theorem exists_trimEnd_append (text : List Char) :
    ∃ lost, text = trimEnd text ++ lost ∧ ∀ char ∈ lost, isBlank char = true := by
  refine ⟨(text.reverse.takeWhile isBlank).reverse, ?_, ?_⟩
  · rw [trimEnd, ← List.reverse_append, List.takeWhile_append_dropWhile, List.reverse_reverse]
  · intro char member
    have inRun := List.mem_reverse.mp member
    exact List.all_eq_true.mp List.all_takeWhile char inRun

/-- The ASCII white space of the core library is white space here. -/
theorem isBlank_of_isWhitespace (char : Char) (white : char.isWhitespace = true) :
    isBlank char = true := by
  simp only [Char.isWhitespace, Bool.or_eq_true, decide_eq_true_eq] at white
  rcases white with ((rfl | rfl) | rfl) | rfl <;> rfl

end ThriftIdl.Text
