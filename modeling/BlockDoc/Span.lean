/-!
Stretches of a text, given by the places around them.
-/

namespace BlockDoc

/-- A stretch of a text between two places. -/
structure Span where
  start : Nat
  stop : Nat
  ordered : start ≤ stop := by omega
  deriving Repr, DecidableEq

namespace Span

instance : Inhabited Span := ⟨⟨0, 0, Nat.le_refl 0⟩⟩

/-- The stretch that begins at `start` and ends at `stop`, or at once when `stop` lies before. -/
def of (start stop : Nat) : Span := ⟨start, max start stop, Nat.le_max_left _ _⟩

/-- The stretch moved to the right. -/
def shift (offset : Nat) (s : Span) : Span :=
  ⟨offset + s.start, offset + s.stop, Nat.add_le_add_left s.ordered offset⟩

end Span

end BlockDoc
