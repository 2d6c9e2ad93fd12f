/-!
# The byte budget

How many bytes the cached values take, against a limit. Sums do not leave
the range of 64 bits: they stop at its ends. Two percentages of the limit
say when the cache should shrink and how far.
-/

namespace CapabilityBroker

/-- The greatest number of bytes that can be counted. -/
def byteCountLimit : Nat := UInt64.size - 1

/-- The bytes in use, the limit, and the percentages of it above which
the use should shrink and down to which it then should. -/
structure ByteBudget where
  maxBytes : Nat
  threshold : Nat
  ratio : Nat
  current : Nat
  deriving DecidableEq, Repr

namespace ByteBudget

/-- An unused budget. Percentages above a hundred count as a hundred. -/
def new (maxBytes threshold ratio : Nat) : ByteBudget :=
  ⟨maxBytes, min threshold 100, min ratio 100, 0⟩

/-- The use after so many more bytes. -/
def after (b : ByteBudget) (size : Nat) : Nat := min (b.current + size) byteCountLimit

/-- Whether so many more bytes stay within the limit. -/
def fits (b : ByteBudget) (size : Nat) : Bool := b.after size ≤ b.maxBytes

/-- So many bytes more are in use. -/
def add (b : ByteBudget) (size : Nat) : ByteBudget := { b with current := b.after size }

/-- So many bytes fewer are in use. -/
def remove (b : ByteBudget) (size : Nat) : ByteBudget := { b with current := b.current - size }

/-- Nothing is in use. -/
def reset (b : ByteBudget) : ByteBudget := { b with current := 0 }

/-- A percentage of the limit, in whole bytes. -/
def share (b : ByteBudget) (percent : Nat) : Nat := b.maxBytes * percent / 100

/-- Whether the use is above the threshold. -/
def shouldReduce (b : ByteBudget) : Bool := b.share b.threshold < b.current

/-- The bytes above the level to shrink to. -/
def excess (b : ByteBudget) : Nat := b.current - b.share b.ratio

end ByteBudget

end CapabilityBroker
