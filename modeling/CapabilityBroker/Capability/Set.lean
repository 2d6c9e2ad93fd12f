import CapabilityBroker.Capability.Basic
/-!
# Capability sets

What is known of the capabilities of a model: which ones are supported,
and for each capability a version and a strength. The three are separate
tables and need not agree: a set that was read from a text may give the
version of a capability it does not support. A set built with the
operations of this file keeps them in step, which is what
`CapabilitySet.Consistent` says.

A set is given by what it answers for each capability, so two sets that
answer alike are equal.
-/

namespace CapabilityBroker

/-- A set of capabilities with versions and strengths. -/
@[ext] structure CapabilitySet where
  /-- Whether a capability is supported. -/
  supports : Capability → Bool
  /-- The version given for a capability. -/
  version : Capability → Option String
  /-- The strength given for a capability. -/
  strength : Capability → Option Strength

namespace CapabilitySet

/-- Two sets are compared capability by capability. -/
instance : DecidableEq CapabilitySet := fun a b =>
  decidable_of_iff
    (∀ c ∈ Capability.all,
      a.supports c = b.supports c ∧ a.version c = b.version c ∧ a.strength c = b.strength c)
    ⟨fun h => CapabilitySet.ext
        (funext fun c => (h c c.mem_all).1)
        (funext fun c => (h c c.mem_all).2.1)
        (funext fun c => (h c c.mem_all).2.2),
      fun h _ _ => h ▸ ⟨rfl, rfl, rfl⟩⟩

/-- The set that gives nothing. -/
def empty : CapabilitySet := ⟨fun _ => false, fun _ => none, fun _ => none⟩

instance : Inhabited CapabilitySet := ⟨empty⟩

/-- The version of a capability for which no other is named. -/
def defaultVersion : String := "1.0"

/-- A set that supports one more capability, in the version and the
strength given. What it gave for the capability before is replaced. -/
def insertWith (s : CapabilitySet) (c : Capability) (version : String) (strength : Strength) :
    CapabilitySet where
  supports d := d = c || s.supports d
  version d := if d = c then some version else s.version d
  strength d := if d = c then some strength else s.strength d

/-- A set that supports one more capability, in the first version and at
the basic strength. -/
def insert (s : CapabilitySet) (c : Capability) : CapabilitySet :=
  s.insertWith c defaultVersion .basic

/-- A set without a capability. -/
def erase (s : CapabilitySet) (c : Capability) : CapabilitySet where
  supports d := d ≠ c && s.supports d
  version d := if d = c then none else s.version d
  strength d := if d = c then none else s.strength d

/-- The supported capabilities, in the order of the list. -/
def toList (s : CapabilitySet) : List Capability := Capability.all.filter s.supports

/-- The number of supported capabilities. -/
def size (s : CapabilitySet) : Nat := s.toList.length

/-- Whether no capability is supported. -/
def isEmpty (s : CapabilitySet) : Bool := s.toList.isEmpty

/-- The strength at which a set offers a capability to another set: the
one it gives, or the basic one. -/
def offered (s : CapabilitySet) (c : Capability) : Strength := (s.strength c).getD .basic

/-- Whether an offered strength takes the place of the one that is there:
it does where there is none, and where it is the stronger of the two. -/
def prevails : Option Strength → Strength → Bool
  | none, _ => true
  | some .basic, .advanced => true
  | some _, _ => false

/-- Whether the second set decides what the union gives for a capability. -/
def decides (a b : CapabilitySet) (c : Capability) : Bool :=
  b.supports c && prevails (a.strength c) (b.offered c)

/-- The union of two sets. Where both give a capability, the stronger
entry is kept, and the first one of two that are equally strong. -/
def merge (a b : CapabilitySet) : CapabilitySet where
  supports c := a.supports c || decides a b c
  version c := if decides a b c then some ((b.version c).getD defaultVersion) else a.version c
  strength c := if decides a b c then some (b.offered c) else a.strength c

/-- The set of the listed capabilities with their strengths, all in the
first version. -/
def ofStrengths (entries : List (Capability × Strength)) : CapabilitySet :=
  entries.foldl (fun s e => s.insertWith e.1 defaultVersion e.2) empty

/-- The three tables agree: versions and strengths are given for the
supported capabilities and for no other. -/
def Consistent (s : CapabilitySet) : Prop :=
  ∀ c, (s.version c).isSome = s.supports c ∧ (s.strength c).isSome = s.supports c

/-- The supported capabilities are the ones listed. -/
theorem mem_toList {s : CapabilitySet} {c : Capability} : c ∈ s.toList ↔ s.supports c = true := by
  simp [toList, Capability.mem_all]

end CapabilitySet

end CapabilityBroker
