/-!
# Spans

A span is a half-open range of UTF-16 offsets, as the compiler reports it.
-/

namespace ScopedCheck

/-- The greatest offset, of 32 bits. -/
def maxOffset : Nat := 0xFFFFFFFF

structure Span where
  start : Nat
  stop : Nat
  deriving DecidableEq, Repr

namespace Span

/-- The span of a given length; its end stays within the offsets there are. -/
def ofLength (start length : Nat) : Span :=
  ⟨start, min (start + length) maxOffset⟩

def length (span : Span) : Nat :=
  span.stop - span.start

def isEmpty (span : Span) : Bool :=
  span.start == span.stop

/-- Moves both ends down to a limit. -/
def clamp (span : Span) (limit : Nat) : Span :=
  ⟨min span.start limit, min span.stop limit⟩

/-- Below a limit the end of a span is the exact sum. -/
theorem clamp_ofLength {start length limit : Nat} (h : limit ≤ maxOffset) :
    (Span.ofLength start length).clamp limit = ⟨min start limit, min (start + length) limit⟩ := by
  simp [Span.ofLength, clamp]
  omega

end Span

end ScopedCheck
