import ThriftIdl.Proofs.Layout.Text
import ThriftIdl.Proofs.Rule.View

/-!
# Places in a layout

A reading of laid out tokens stands before one token after the other, each time behind the gap after
the token before it: `past`. The comments in the gaps then wait. A place is quiet if none wait, and
tokens are calm if every place before one of them is quiet. Main statement: `Laid.behindToken`.
-/

namespace ThriftIdl

open ThriftIdl.Source (Stops opensGap)
open ThriftIdl.Parser (View)

namespace Layout

/-- Tokens begin with characters that open no gap. -/
def AreTokens (tokens : List Token) : Prop :=
  ∀ token ∈ tokens, ∃ first rest, token = first :: rest ∧ opensGap first = false

/-- Runs of tokens may be put together. -/
theorem AreTokens.append {first second : List Token} (front : AreTokens first)
    (back : AreTokens second) : AreTokens (first ++ second) := by
  intro token member
  rcases List.mem_append.mp member with member | member
  · exact front token member
  · exact back token member

namespace AreTokens

variable {first second : List Token}

/-- The first of two runs of tokens is one. -/
theorem front (areTokens : AreTokens (first ++ second)) : AreTokens first := fun token member =>
  areTokens token (List.mem_append_left _ member)

/-- The second of two runs of tokens is one. -/
theorem back (areTokens : AreTokens (first ++ second)) : AreTokens second := fun token member =>
  areTokens token (List.mem_append_right _ member)

/-- All but the first of some tokens are tokens. -/
theorem tail {token : Token} (areTokens : AreTokens (token :: second)) : AreTokens second :=
  fun other member => areTokens other (.tail _ member)

end AreTokens

/-- The view behind a token at the start of a text and the gap after it. -/
def pastToken (view : View) (token : Token) : View :=
  View.skip { view with rest := view.rest.drop token.length }

/-- The view behind several tokens. -/
def past (view : View) (tokens : List Token) : View :=
  tokens.foldl pastToken view

@[simp] theorem past_nil (view : View) : past view [] = view := rfl

@[simp] theorem past_cons (view : View) (token : Token) (tokens : List Token) :
    past view (token :: tokens) = past (pastToken view token) tokens := rfl

/-- To be past two runs of tokens is to be past one and then past the other. -/
theorem past_append (view : View) (front back : List Token) :
    past view (front ++ back) = past (past view front) back :=
  List.foldl_append

/-- Whether no comments wait. -/
def IsQuiet (view : View) : Prop :=
  view.head = [] ∧ view.tail = []

/-- Whether no comments wait before any of the tokens. -/
def Calm : View → List Token → Prop
  | _, [] => True
  | view, token :: tokens => IsQuiet view ∧ Calm (pastToken view token) tokens

/-- Two runs are calm if the first is, and the second behind it. -/
theorem calm_append {view : View} {front back : List Token} :
    Calm view (front ++ back) ↔ Calm view front ∧ Calm (past view front) back := by
  induction front generalizing view with
  | nil => exact ⟨fun calm => ⟨trivial, calm⟩, fun calm => calm.2⟩
  | cons token front ih => exact (and_congr_right fun _ => ih).trans and_assoc.symm

/-- No comments wait before calm tokens. -/
theorem Calm.isQuiet {view : View} {tokens : List Token} (calm : Calm view tokens)
    (nonempty : tokens ≠ []) : IsQuiet view := by
  cases tokens with
  | nil => exact absurd rfl nonempty
  | cons token tokens => exact calm.1

namespace Laid

variable {tokens : List Token} {text : List Char}

/-- A text of tokens begins with no gap. -/
theorem stops (laid : Laid tokens text) (areTokens : AreTokens tokens) : Stops opensGap text := by
  cases laid with
  | nil => rfl
  | @cons token _ _ _ _ _ _ =>
      obtain ⟨first, rest, rfl, plain⟩ := areTokens token (by simp)
      exact Source.stops_cons.mpr plain

/-- Only no tokens at all are laid out as the empty text. -/
theorem eq_nil (laid : Laid tokens []) (areTokens : AreTokens tokens) : tokens = [] := by
  generalize shape : ([] : List Char) = text at laid
  cases laid with
  | nil => rfl
  | cons =>
      obtain ⟨first, rest, rfl, -⟩ := areTokens _ (.head _)
      cases shape

/-- A token without a gap behind it. -/
theorem tight {token : Token} (apart : ¬GrowsInto token text) (laid : Laid tokens text) :
    Laid (token :: tokens) (token ++ text) :=
  .cons .nil apart laid

/-- A token with a blank behind it, with which it cannot grow together. -/
theorem spaced (token : Token) (laid : Laid tokens text) :
    Laid (token :: tokens) (token ++ ' ' :: text) := by
  have apart : ¬GrowsInto token (' ' :: text) := fun grows => nomatch grows.2
  exact .cons (.blank (.inl rfl) .nil) apart laid

/-- Only the empty text lays out no tokens. -/
theorem text_eq_nil (laid : Laid [] text) : text = [] := by
  cases laid
  rfl

/-- Behind a token the gap is passed and the other tokens remain. -/
theorem behindToken {token : Token} {view : View} (laid : Laid (token :: tokens) view.rest)
    (areTokens : AreTokens tokens) : Laid tokens (pastToken view token).rest := by
  obtain ⟨text, head, tail⟩ := view
  cases laid with
  | @cons _ _ gap rest isGap _ later =>
      have passed := gapChars_of_isGap isGap (later.stops areTokens) (fun none => by
        subst none
        exact later.text_eq_nil)
      have dropped : List.drop token.length (token ++ (gap ++ rest)) = gap ++ rest := List.drop_left
      have behind : (pastToken ⟨token ++ (gap ++ rest), head, tail⟩ token).rest = rest := by
        simp only [pastToken, View.skip, dropped, passed, List.drop_left]
      change Laid tokens (pastToken ⟨token ++ (gap ++ rest), head, tail⟩ token).rest
      rwa [behind]

end Laid

end Layout
end ThriftIdl
