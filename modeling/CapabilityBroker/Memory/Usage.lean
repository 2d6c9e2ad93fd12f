/-!
# Memory usage

A reading of the memory of a machine, and the share of it that is in use.
-/

namespace CapabilityBroker

/-- A reading: the bytes there are and the bytes that are available. -/
structure MemoryUsage where
  total : Nat
  available : Nat
  deriving DecidableEq, Repr

namespace MemoryUsage

/-- A number moved into the unit interval. What is not a number stays. -/
def clamp (x : Float) : Float := if x < 0.0 then 0.0 else if 1.0 < x then 1.0 else x

/-- The share of the memory in use; none of no memory. -/
def utilization (u : MemoryUsage) : Float :=
  if u.total = 0 then 0.0
  else clamp ((u.total - u.available).toUInt64.toFloat / u.total.toUInt64.toFloat)

/-- The bytes of a reading set by hand. -/
def manualTotal : Nat := 1000000

/-- A reading with a given share in use, to the nearest byte of a million. -/
def ofUtilization (x : Float) : MemoryUsage :=
  let used := (clamp x * manualTotal.toUInt64.toFloat).round.toUInt64.toNat
  ⟨manualTotal, manualTotal - used⟩

end MemoryUsage

end CapabilityBroker
