/-!
# Recency

The order in which keys were last used. Every use is stamped with a
counter that only goes up, so two uses at one instant are still in order.
The tracker holds the stamp of each key and the keys in the order of
their stamps; seen from outside it is the list of its keys, the least
recently used first.
-/

namespace CapabilityBroker

/-- The keys in use with the stamps of their last uses, the same pairs in
the order of the stamps, and the next stamp. -/
structure Recency (κ : Type) where
  stamps : List (κ × Nat)
  order : List (Nat × κ)
  next : Nat
  deriving Repr

namespace Recency

variable {κ : Type} [DecidableEq κ]

/-- No key is in use. -/
def empty : Recency κ := ⟨[], [], 0⟩

/-- The stamp of a key. -/
def stamp? (r : Recency κ) (k : κ) : Option Nat := (r.stamps.find? (·.1 = k)).map (·.2)

/-- The keys without one of them. -/
def erase (r : Recency κ) (k : κ) : Recency κ :=
  match r.stamp? k with
  | none => r
  | some s => { r with
      stamps := r.stamps.filter (·.1 ≠ k)
      order := r.order.filter (·.1 ≠ s) }

/-- A use of a key, which makes it the most recently used one. -/
def touch (r : Recency κ) (k : κ) : Recency κ :=
  let rest := r.erase k
  { stamps := (k, r.next) :: rest.stamps
    order := rest.order ++ [(r.next, k)]
    next := r.next + 1 }

/-- The keys, the least recently used first. -/
def toList (r : Recency κ) : List κ := r.order.map (·.2)

/-- Up to `n` keys, the least recently used first. -/
def oldest (r : Recency κ) (n : Nat) : List κ := r.toList.take n

/-- The least recently used key, and the keys without it. -/
def pop? (r : Recency κ) : Option (κ × Recency κ) :=
  match r.order with
  | [] => none
  | (_, k) :: rest => some (k, { r with stamps := r.stamps.filter (·.1 ≠ k), order := rest })

/-- No key is in use any more. The stamps go on. -/
def clear (r : Recency κ) : Recency κ := { r with stamps := [], order := [] }

end Recency

end CapabilityBroker
