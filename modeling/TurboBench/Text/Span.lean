/-!
Spans of code points, the entries of the character tables.

A class of characters that no formula describes is given by a list of spans. Membership is the
obvious test on each span; the lists are short enough to be searched from the front, and they are
only consulted for characters outside ASCII.
-/

namespace TurboBench.Text

/-- The code points from `first` to `last`, both included. -/
structure Span where
  first : Nat
  last : Nat
  deriving Repr, DecidableEq

namespace Span

/-- Whether a character lies in the span. -/
def covers (s : Span) (c : Char) : Bool :=
  s.first ≤ c.toNat && c.toNat ≤ s.last

/-- Whether a character lies in one of the spans. -/
def anyCovers (spans : List Span) (c : Char) : Bool :=
  spans.any (·.covers c)

theorem covers_iff (s : Span) (c : Char) :
    s.covers c = true ↔ s.first ≤ c.toNat ∧ c.toNat ≤ s.last := by
  simp [covers]

theorem anyCovers_iff (spans : List Span) (c : Char) :
    anyCovers spans c = true ↔ ∃ s ∈ spans, s.first ≤ c.toNat ∧ c.toNat ≤ s.last := by
  simp [anyCovers, covers_iff]

end Span

end TurboBench.Text
