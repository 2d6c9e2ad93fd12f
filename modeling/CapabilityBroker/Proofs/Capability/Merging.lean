import CapabilityBroker.Capability.Set
import Mathlib.Order.Lattice
/-!
# The union of capability sets

A set whose tables agree says one thing of each capability: nothing, or a
version together with a strength (`offer?`), and it is determined by what
it says. These are the sets that can be built from the empty one
(`Construction`). The union of two of them chooses between two offers,
capability by capability (`prefer`): the stronger one is taken, and the
first of two that are equally strong. Everything about the union follows
from what holds of that choice.
-/

namespace CapabilityBroker

namespace Strength

/-- How much a strength counts for. -/
def rank : Strength → Nat
  | basic => 0
  | advanced => 1

theorem rank_injective : Function.Injective rank := by
  intro s t
  cases s <;> cases t <;> simp [rank]

/-- The advanced strength is the greater one. -/
instance : LinearOrder Strength := LinearOrder.lift' rank rank_injective

end Strength

namespace CapabilitySet

variable {a b s : CapabilitySet} {c : Capability}

/-! ## Sets whose tables agree -/

theorem consistent_empty : empty.Consistent := fun _ => ⟨rfl, rfl⟩

theorem Consistent.insertWith (h : s.Consistent) (c : Capability) (version : String)
    (strength : Strength) : (s.insertWith c version strength).Consistent := by
  intro d
  by_cases hd : d = c
  · simp [CapabilitySet.insertWith, hd]
  · simpa [CapabilitySet.insertWith, hd] using h d

theorem Consistent.erase (h : s.Consistent) (c : Capability) : (s.erase c).Consistent := by
  intro d
  by_cases hd : d = c
  · simp [CapabilitySet.erase, hd]
  · simpa [CapabilitySet.erase, hd] using h d

theorem consistent_ofStrengths (entries : List (Capability × Strength)) :
    (ofStrengths entries).Consistent := by
  suffices h : ∀ s : CapabilitySet, s.Consistent →
      (entries.foldl (fun s e => s.insertWith e.1 defaultVersion e.2) s).Consistent from
    h empty consistent_empty
  induction entries with
  | nil => exact fun _ h => h
  | cons e entries ih => exact fun s h => ih _ (h.insertWith e.1 defaultVersion e.2)

/-- **What such a set says of a capability**: nothing at all, or that it is
supported in some version and at some strength. -/
theorem Consistent.cases (h : s.Consistent) (c : Capability) :
    (s.supports c = false ∧ s.version c = none ∧ s.strength c = none) ∨
      ∃ v x, s.supports c = true ∧ s.version c = some v ∧ s.strength c = some x := by
  obtain ⟨hversion, hstrength⟩ := h c
  cases hc : s.supports c with
  | false =>
    rw [hc, Option.isSome_eq_false_iff, Option.isNone_iff_eq_none] at hversion hstrength
    exact Or.inl ⟨rfl, hversion, hstrength⟩
  | true =>
    obtain ⟨v, hv⟩ := Option.isSome_iff_exists.mp (hversion.trans hc)
    obtain ⟨x, hx⟩ := Option.isSome_iff_exists.mp (hstrength.trans hc)
    exact Or.inr ⟨v, x, rfl, hv, hx⟩

/-! ## Offers -/

/-- The version and the strength that a set gives for a capability. -/
def offer? (s : CapabilitySet) (c : Capability) : Option (String × Strength) :=
  match s.version c, s.strength c with
  | some v, some x => some (v, x)
  | _, _ => none

theorem offer?_insertWith {v : String} {x : Strength} {d : Capability} :
    (s.insertWith c v x).offer? d = if d = c then some (v, x) else s.offer? d := by
  by_cases hd : d = c <;> simp [offer?, insertWith, hd]

/-- Sets whose tables agree are equal if their offers are. -/
theorem Consistent.ext (ha : a.Consistent) (hb : b.Consistent)
    (h : ∀ c, a.offer? c = b.offer? c) : a = b := by
  have hsame (c : Capability) : a.supports c = b.supports c ∧ a.version c = b.version c ∧
      a.strength c = b.strength c := by
    have hc := h c
    rcases ha.cases c with ⟨hsa, hva, hta⟩ | ⟨v, x, hsa, hva, hta⟩ <;>
    rcases hb.cases c with ⟨hsb, hvb, htb⟩ | ⟨w, y, hsb, hvb, htb⟩ <;>
    simp_all [offer?]
  exact CapabilitySet.ext (funext fun c => (hsame c).1) (funext fun c => (hsame c).2.1)
    (funext fun c => (hsame c).2.2)

/-- The choice between two offers: the stronger one, and the first of two
that are equally strong. -/
def prefer : Option (String × Strength) → Option (String × Strength) →
    Option (String × Strength)
  | none, p => p
  | some o, none => some o
  | some o, some p => some (if o.2 < p.2 then p else o)

@[simp] theorem prefer_none (o : Option (String × Strength)) : prefer o none = o := by
  cases o <;> rfl

@[simp] theorem prefer_self (o : Option (String × Strength)) : prefer o o = o := by
  cases o <;> simp [prefer]

/-- Of three offers the strongest one is chosen, whichever two are compared
first. -/
theorem prefer_assoc (o p q : Option (String × Strength)) :
    prefer (prefer o p) q = prefer o (prefer p q) := by
  rcases o with - | ⟨u, x⟩
  · rfl
  · rcases p with - | ⟨v, y⟩
    · rfl
    · rcases q with - | ⟨w, z⟩
      · rfl
      · simp only [prefer]
        by_cases hxy : x < y <;> by_cases hyz : y < z
        · simp [hxy, hyz, hxy.trans hyz]
        · simp [hxy, hyz]
        · simp [hxy, hyz]
        · have hxz : ¬ x < z := not_lt.mpr ((not_lt.mp hyz).trans (not_lt.mp hxy))
          simp [hxy, hyz, hxz]

/-! ## The union -/

/-- A set outdoes another at a capability: it supports it alone, or at a
greater strength than the other one does. -/
def Outdoes (b a : CapabilitySet) (c : Capability) : Prop :=
  b.supports c = true ∧ (a.supports c = true → a.strength c < b.strength c)

/-- **A set is the union of two others.** -/
structure Unites (a b m : CapabilitySet) : Prop where
  consistent : m.Consistent
  /-- It supports what either of them does, -/
  supports_iff {c : Capability} :
    m.supports c = true ↔ a.supports c = true ∨ b.supports c = true
  /-- at the greater strength; giving none is less than giving one. -/
  strength_eq {c : Capability} : m.strength c = max (a.strength c) (b.strength c)
  /-- The version is that of the second where it outdoes the first, -/
  version_eq_second {c : Capability} : b.Outdoes a c → m.version c = b.version c
  /-- and that of the first everywhere else. -/
  version_eq_first {c : Capability} : ¬ b.Outdoes a c → m.version c = a.version c

/-- Between two strengths the greater one prevails. -/
theorem prevails_iff {x y : Strength} : prevails (some x) y = true ↔ x < y := by
  cases x <;> cases y <;> decide

/-- The second set decides where it outdoes the first. -/
theorem Consistent.decides_iff (ha : a.Consistent) (hb : b.Consistent) :
    decides a b c = true ↔ b.Outdoes a c := by
  rcases hb.cases c with ⟨hsb, -, -⟩ | ⟨w, y, hsb, -, hy⟩
  · simp [decides, Outdoes, hsb]
  · rcases ha.cases c with ⟨hsa, -, hx⟩ | ⟨v, x, hsa, -, hx⟩
    · simp [decides, Outdoes, hsa, hsb, hx, prevails]
    · simp [decides, Outdoes, hsa, hsb, hx, hy, offered, prevails_iff]

/-- Where the first set decides, the union says what it says. -/
theorem merge_of_not_decides (h : decides a b c = false) :
    (a.merge b).supports c = a.supports c ∧ (a.merge b).version c = a.version c ∧
      (a.merge b).strength c = a.strength c := by
  simp [merge, h]

/-- Where the second does, what that one says. -/
theorem Consistent.merge_of_decides (hb : b.Consistent) (h : decides a b c = true) :
    (a.merge b).supports c = b.supports c ∧ (a.merge b).version c = b.version c ∧
      (a.merge b).strength c = b.strength c := by
  have hsupports : b.supports c = true := (Bool.and_eq_true_iff.mp h).1
  rcases hb.cases c with ⟨hs, -, -⟩ | ⟨w, y, -, hw, hy⟩
  · rw [hs] at hsupports
    cases hsupports
  · simp [merge, h, hsupports, hw, hy, offered]

theorem Consistent.merge (ha : a.Consistent) (hb : b.Consistent) : (a.merge b).Consistent := by
  intro c
  cases h : decides a b c with
  | false =>
    obtain ⟨hsupports, hversion, hstrength⟩ := merge_of_not_decides h
    rw [hsupports, hversion, hstrength]
    exact ha c
  | true =>
    obtain ⟨hsupports, hversion, hstrength⟩ := hb.merge_of_decides h
    rw [hsupports, hversion, hstrength]
    exact hb c

/-- **The union chooses between two offers** for each capability. -/
theorem Consistent.offer?_merge (ha : a.Consistent) (hb : b.Consistent) (c : Capability) :
    (a.merge b).offer? c = prefer (a.offer? c) (b.offer? c) := by
  have hdecides : (a.merge b).offer? c = if decides a b c then b.offer? c else a.offer? c := by
    cases h : decides a b c with
    | false => simp [offer?, merge_of_not_decides h]
    | true => simp [offer?, hb.merge_of_decides h]
  rw [hdecides]
  rcases hb.cases c with ⟨hs, hw, hy⟩ | ⟨w, y, hs, hw, hy⟩
  · simp [offer?, decides, hs, hw, hy]
  · rcases ha.cases c with ⟨-, hv, hx⟩ | ⟨v, x, -, hv, hx⟩
    · simp [offer?, prefer, decides, prevails, hs, hw, hy, hv, hx]
    · simp only [offer?, prefer, decides, offered, hs, hw, hy, hv, hx, Option.getD_some,
        Bool.true_and, prevails_iff]
      split <;> rfl

theorem Consistent.unites_merge (ha : a.Consistent) (hb : b.Consistent) :
    Unites a b (a.merge b) where
  consistent := ha.merge hb
  supports_iff {c} := by
    rcases ha.cases c with ⟨hs, -, hx⟩ | ⟨v, x, hs, -, -⟩
    · simp [CapabilitySet.merge, decides, prevails, hs, hx]
    · simp [CapabilitySet.merge, hs]
  strength_eq {c} := by
    rcases hb.cases c with ⟨hs, -, hy⟩ | ⟨w, y, hs, -, hy⟩
    · simp [CapabilitySet.merge, decides, hs, hy]
    · rcases ha.cases c with ⟨-, -, hx⟩ | ⟨v, x, -, -, hx⟩
      · simp [CapabilitySet.merge, decides, prevails, offered, hs, hx, hy]
      · simp only [CapabilitySet.merge, decides, offered, hs, hx, hy, Option.getD_some,
          Bool.true_and, prevails_iff, Option.max_some_some, max_def_lt]
        split <;> rfl
  version_eq_second h := (hb.merge_of_decides ((ha.decides_iff hb).mpr h)).2.1
  version_eq_first h :=
    (merge_of_not_decides (Bool.eq_false_iff.mpr fun hd => h ((ha.decides_iff hb).mp hd))).2.1

/-! ## Its laws -/

theorem Consistent.merge_assoc {d : CapabilitySet} (ha : a.Consistent) (hb : b.Consistent)
    (hd : d.Consistent) : (a.merge b).merge d = a.merge (b.merge d) := by
  refine ((ha.merge hb).merge hd).ext (ha.merge (hb.merge hd)) fun c => ?_
  rw [(ha.merge hb).offer?_merge hd, ha.offer?_merge hb, ha.offer?_merge (hb.merge hd),
    hb.offer?_merge hd, prefer_assoc]

theorem Consistent.merge_self (ha : a.Consistent) : a.merge a = a :=
  (ha.merge ha).ext ha fun c => by rw [ha.offer?_merge ha, prefer_self]

theorem Consistent.empty_merge (ha : a.Consistent) : empty.merge a = a :=
  (consistent_empty.merge ha).ext ha fun c => by rw [consistent_empty.offer?_merge ha]; rfl

theorem merge_empty : a.merge empty = a := by
  simp [merge, decides, empty]

/-! ## Construction -/

/-- How a set is built from the empty one. -/
inductive Construction where
  | empty
  | insert (k : Construction) (c : Capability)
  | insertWith (k : Construction) (c : Capability) (version : String) (strength : Strength)
  | erase (k : Construction) (c : Capability)
  | merge (k l : Construction)

namespace Construction

/-- The set that is built. -/
def set : Construction → CapabilitySet
  | empty => .empty
  | insert k c => k.set.insert c
  | insertWith k c version strength => k.set.insertWith c version strength
  | erase k c => k.set.erase c
  | merge k l => k.set.merge l.set

/-- **Every step keeps the tables in agreement.** -/
theorem consistent (k : Construction) : k.set.Consistent := by
  induction k with
  | empty => exact consistent_empty
  | insert k c ih => exact ih.insertWith c defaultVersion .basic
  | insertWith k c version strength ih => exact ih.insertWith c version strength
  | erase k c ih => exact ih.erase c
  | merge k l ihk ihl => exact ihk.merge ihl

/-- What a set offers of some capabilities, put together. -/
def ofOffers (s : CapabilitySet) : List Capability → Construction
  | [] => empty
  | c :: cs =>
    match s.offer? c with
    | none => ofOffers s cs
    | some (v, x) => insertWith (ofOffers s cs) c v x

theorem offer?_ofOffers (s : CapabilitySet) (cs : List Capability) (d : Capability) :
    (ofOffers s cs).set.offer? d = if d ∈ cs then s.offer? d else none := by
  induction cs with
  | nil => rfl
  | cons c cs ih =>
    unfold ofOffers
    split
    · next hnone =>
      rw [ih]
      by_cases hd : d = c
      · simp [hd, hnone]
      · simp [hd]
    · next v x hsome =>
      rw [set, offer?_insertWith, ih]
      by_cases hd : d = c
      · simp [hd, hsome]
      · simp [hd]

/-- **What can be built** are the sets whose tables agree. -/
theorem exists_set_eq_iff : (∃ k : Construction, k.set = s) ↔ s.Consistent := by
  refine ⟨?_, fun h => ⟨ofOffers s Capability.all, ?_⟩⟩
  · rintro ⟨k, rfl⟩
    exact k.consistent
  · refine (consistent _).ext h fun c => ?_
    rw [offer?_ofOffers, if_pos c.mem_all]

end Construction

/-- **The union keeps the stronger offers.** The sets that can be built from
the empty one, by adding and erasing capabilities and by unions, are those
whose tables agree. The union of two such sets supports what either does,
at the greater strength, and in the version of the first set unless the
second outdoes it. Unions may be taken in any grouping, and neither the set
itself nor the empty set adds anything to a set. -/
theorem merge_keeps_stronger :
    (∀ s : CapabilitySet, (∃ k : Construction, k.set = s) ↔ s.Consistent) ∧
    ∀ a b d : CapabilitySet, a.Consistent → b.Consistent → d.Consistent →
      Unites a b (a.merge b) ∧ (a.merge b).merge d = a.merge (b.merge d) ∧
        a.merge a = a ∧ empty.merge a = a ∧ a.merge empty = a :=
  ⟨fun _ => Construction.exists_set_eq_iff, fun _ _ _ ha hb hd =>
    ⟨ha.unites_merge hb, ha.merge_assoc hb hd, ha.merge_self, ha.empty_merge, merge_empty⟩⟩

/-- Tools at the basic strength, -/
def basicTools : CapabilitySet := empty.insert .toolUse

/-- at the advanced one, beside images, -/
def advancedTools : CapabilitySet :=
  (empty.insertWith .toolUse "2.0" .advanced).insert .imageAnalysis

/-- and at the same strength in a later version. -/
def laterTools : CapabilitySet := empty.insertWith .toolUse "3.0" .advanced

/-- The first of the two equally strong offers is kept, in every grouping. -/
theorem first_advanced_tools_kept :
    (basicTools.Consistent ∧ advancedTools.Consistent ∧ laterTools.Consistent) ∧
    ((basicTools.merge advancedTools).merge laterTools).version .toolUse = some "2.0" ∧
    Unites basicTools advancedTools (basicTools.merge advancedTools) ∧
    (basicTools.merge advancedTools).merge laterTools =
      basicTools.merge (advancedTools.merge laterTools) ∧
    basicTools.merge basicTools = basicTools ∧ empty.merge basicTools = basicTools ∧
    basicTools.merge empty = basicTools := by
  have hbasic : basicTools.Consistent := consistent_empty.insertWith _ _ _
  have hadvanced : advancedTools.Consistent := (consistent_empty.insertWith _ _ _).insertWith _ _ _
  have hlater : laterTools.Consistent := consistent_empty.insertWith _ _ _
  exact ⟨⟨hbasic, hadvanced, hlater⟩, by decide,
    merge_keeps_stronger.2 basicTools advancedTools laterTools hbasic hadvanced hlater⟩

end CapabilitySet

end CapabilityBroker
