import Mathlib.Logic.ExistsUnique
import CapabilityBroker.Proofs.Lock.History
/-!
# The owner of a lock

A party owns a lock from the moment it is handed over until the party goes
away, whether or not it has looked in between. `Sound` is what every event
preserves: those who wait are those in line, each once, and a lock is
taken exactly if it has an owner, who is then the only one. That a party
which waits is in line is what carries the proof. Going away means leaving
the line or else passing the lock on, so a party outside the line that
owned nothing would pass on a lock that is not its own.

From outside a party is in one of three places (`Place`), and an operation
moves the party that takes it and no other: a lock that is handed over
leaves its new owner in line until that party looks.
-/

namespace CapabilityBroker

/-- Whether a stake is the lock itself, known to its party or not. -/
def Stake.owns : Stake → Bool
  | .waiting _ => false
  | .granted _ => true
  | .holding => true

namespace Lock

variable {ι : Type} [DecidableEq ι]

/-- Whether a party owns a lock. -/
def Owns (l : Lock ι) (i : ι) : Prop := ∃ s, l.stake? i = some s ∧ s.owns = true

/-- Whether a party waits for a lock. -/
def Waits (l : Lock ι) (i : ι) : Prop := ∃ limit, l.stake? i = some (.waiting limit)

/-- The line holds those who wait, each once. -/
structure Lined (l : Lock ι) : Prop where
  mem_queue (i : ι) : i ∈ l.queue ↔ l.Waits i
  nodup : l.queue.Nodup

/-- **The invariant of a lock.** -/
structure Sound (l : Lock ι) : Prop extends Lined l where
  held_iff : l.held = true ↔ ∃ i, l.Owns i
  owner_unique {i j : ι} : l.Owns i → l.Owns j → i = j
  queue_eq_nil : l.held = false → l.queue = []

variable {l : Lock ι} {i j : ι} {s : Stake}

/-! ## Owning and waiting after a change of stakes -/

@[simp] theorem owns_mk (held : Bool) (queue : List ι) :
    Owns ⟨held, queue, l.stakes⟩ i ↔ l.Owns i := Iff.rfl

@[simp] theorem waits_mk (held : Bool) (queue : List ι) :
    Waits ⟨held, queue, l.stakes⟩ i ↔ l.Waits i := Iff.rfl

theorem owns_setStake : (l.setStake i s).Owns j ↔ if j = i then s.owns = true else l.Owns j := by
  by_cases h : j = i
  · simp [Owns, h]
  · simp [Owns, h, stake?_setStake_of_ne h]

theorem owns_dropStake : (l.dropStake i).Owns j ↔ j ≠ i ∧ l.Owns j := by
  by_cases h : j = i
  · simp [Owns, h]
  · simp [Owns, h, stake?_dropStake_of_ne h]

theorem waits_setStake :
    (l.setStake i s).Waits j ↔ if j = i then s.owns = false else l.Waits j := by
  by_cases h : j = i
  · cases s <;> simp [Waits, h, Stake.owns]
  · simp [Waits, h, stake?_setStake_of_ne h]

theorem waits_dropStake : (l.dropStake i).Waits j ↔ j ≠ i ∧ l.Waits j := by
  by_cases h : j = i
  · simp [Waits, h]
  · simp [Waits, h, stake?_dropStake_of_ne h]

/-- Whoever owns a lock does not wait for it. -/
theorem Owns.not_waits (h : l.Owns i) : ¬ l.Waits i := by
  rintro ⟨limit, hw⟩
  obtain ⟨s, hs, ho⟩ := h
  rw [hw] at hs
  obtain rfl := Option.some.inj hs
  simp [Stake.owns] at ho

/-- A party with a stake waits or owns the lock. -/
theorem waits_or_owns (h : l.stake? i = some s) : l.Waits i ∨ l.Owns i := by
  cases s with
  | waiting limit => exact Or.inl ⟨limit, h⟩
  | granted limit => exact Or.inr ⟨_, h, rfl⟩
  | holding => exact Or.inr ⟨_, h, rfl⟩

namespace Sound

/-- An owner means that the lock is taken. -/
theorem held_of_owns (h : l.Sound) (hi : l.Owns i) : l.held = true := h.held_iff.mpr ⟨i, hi⟩

/-- A free lock is sound. -/
theorem free : (Lock.free : Lock ι).Sound where
  mem_queue i := by simp [Lock.free, Waits, stake?]
  nodup := List.nodup_nil
  held_iff := by simp [Lock.free, Owns, stake?]
  owner_unique := by
    rintro i j ⟨s, hs, -⟩ -
    simp at hs
  queue_eq_nil _ := rfl

/-! ## Giving back -/

/-- **Passing the lock on.** A lock that is taken although nobody owns it
has one owner once it is given back, or is free. -/
theorem release (hl : l.Lined) (hheld : l.held = true) (hno : ∀ i, ¬ l.Owns i) :
    l.release.Sound := by
  cases hq : l.queue with
  | nil =>
    have hw : ∀ i, ¬ l.Waits i := fun i hi => by
      have := (hl.mem_queue i).mpr hi
      simp [hq] at this
    rw [release_nil hq]
    exact {
      mem_queue := fun i => by simpa [hq] using hw i
      nodup := by simp [hq]
      held_iff := by simpa using hno
      owner_unique := fun hi => absurd hi (hno _)
      queue_eq_nil := fun _ => hq }
  | cons k rest =>
    obtain ⟨limit, hk⟩ := (hl.mem_queue k).mp (by simp [hq])
    have hnd : k ∉ rest ∧ rest.Nodup := by
      have := hl.nodup
      rwa [hq, List.nodup_cons] at this
    rw [release_cons hq hk]
    -- the first in line is the one owner: nobody else was one before
    have howner : ∀ i, (setStake { l with queue := rest } k (.granted limit)).Owns i ↔ i = k := by
      intro i
      simp [owns_setStake, Stake.owns, hno]
    exact {
      mem_queue := fun i => by
        have := hl.mem_queue i
        by_cases h : i = k
        · simp [waits_setStake, h, Stake.owns, hnd.1]
        · simpa [waits_setStake, hq, h] using this
      nodup := hnd.2
      held_iff := ⟨fun _ => ⟨k, (howner k).mpr rfl⟩, fun _ => hheld⟩
      owner_unique := fun hi hj => ((howner _).mp hi).trans ((howner _).mp hj).symm
      queue_eq_nil := fun h => by simp [hheld] at h }

/-- The line stands as before when the owner goes away. -/
theorem lined_dropStake (h : l.Sound) (hi : l.Owns i) : (l.dropStake i).Lined := by
  refine ⟨fun j => ?_, h.nodup⟩
  rw [dropStake_queue, h.mem_queue, waits_dropStake]
  refine ⟨fun hw => ⟨?_, hw⟩, And.right⟩
  rintro rfl
  exact hi.not_waits hw

/-- The owner goes away. -/
theorem pass (h : l.Sound) (hi : l.Owns i) : (l.dropStake i).release.Sound := by
  refine release (h.lined_dropStake hi) (h.held_of_owns hi) fun j hj => ?_
  obtain ⟨hne, hj⟩ := owns_dropStake.mp hj
  exact hne (h.owner_unique hj hi)

/-! ## Getting in line, and leaving it -/

/-- A party that waits leaves the line. Nobody else notices. -/
theorem withdraw (h : l.Sound) (hi : l.Waits i) :
    ({ l with queue := l.queue.erase i }.dropStake i).Sound where
  mem_queue j := by
    rw [dropStake_queue, h.nodup.mem_erase_iff, h.mem_queue, waits_dropStake]
    exact Iff.rfl
  nodup := h.nodup.erase i
  held_iff := by
    rw [dropStake_held, h.held_iff]
    refine exists_congr fun j => ?_
    rw [owns_dropStake, owns_mk]
    refine ⟨fun hj => ⟨?_, hj⟩, And.right⟩
    rintro rfl
    exact hj.not_waits hi
  owner_unique hj hk := h.owner_unique (owns_dropStake.mp hj).2 (owns_dropStake.mp hk).2
  queue_eq_nil hheld := by simp [h.queue_eq_nil hheld]

/-- A new party comes, and has the lock or stands last in line. -/
theorem enter (h : l.Sound) (hi : l.stake? i = none) (now : Nat) (timeout : Option Nat) :
    (l.enter now timeout i).1.Sound := by
  have hw : ¬ l.Waits i := by simp [Waits, hi]
  have ho : ¬ l.Owns i := by simp [Owns, hi]
  cases hheld : l.held with
  | true =>
    rw [enter_of_held hheld]
    have howns : ∀ j, (setStake { l with queue := l.queue ++ [i] } i
        (.waiting (timeout.map (WaitLimit.of now)))).Owns j ↔ l.Owns j := by
      intro j
      by_cases hj : j = i
      · simp [owns_setStake, hj, Stake.owns, ho]
      · simp [owns_setStake, hj]
    exact {
      mem_queue := fun j => by
        by_cases hj : j = i
        · simp [waits_setStake, hj, Stake.owns]
        · simp [waits_setStake, hj, h.mem_queue]
      nodup := by
        have hq : i ∉ l.queue := fun hq => hw ((h.mem_queue i).mp hq)
        simpa [List.nodup_append, h.nodup] using fun a ha => ne_of_mem_of_not_mem ha hq
      held_iff := h.held_iff.trans (exists_congr fun j => (howns j).symm)
      owner_unique := fun hj hk => h.owner_unique ((howns _).mp hj) ((howns _).mp hk)
      queue_eq_nil := fun hf => by simp [hheld] at hf }
  | false =>
    rw [enter_of_free hheld]
    have hno : ∀ j, ¬ l.Owns j := fun j hj => by simp [h.held_of_owns hj] at hheld
    have howns : ∀ j, (setStake { l with held := true } i .holding).Owns j ↔ j = i := by
      intro j
      simp [owns_setStake, Stake.owns, hno]
    exact {
      mem_queue := fun j => by
        by_cases hj : j = i
        · simp [waits_setStake, hj, Stake.owns, h.queue_eq_nil hheld]
        · simp [waits_setStake, hj, h.mem_queue]
      nodup := h.nodup
      held_iff := by simp [howns]
      owner_unique := fun hj hk => ((howns _).mp hj).trans ((howns _).mp hk).symm
      queue_eq_nil := fun hf => by simp at hf }

/-- The owner looks, and knows that it is the owner. -/
theorem take (h : l.Sound) (hi : l.Owns i) : (l.setStake i .holding).Sound := by
  have howns : ∀ j, (l.setStake i .holding).Owns j ↔ l.Owns j := by
    intro j
    by_cases hj : j = i
    · simp [owns_setStake, hj, Stake.owns, hi]
    · simp [owns_setStake, hj]
  exact {
    mem_queue := fun j => by
      by_cases hj : j = i
      · simp [waits_setStake, hj, Stake.owns, h.mem_queue, hi.not_waits]
      · simp [waits_setStake, hj, h.mem_queue]
    nodup := h.nodup
    held_iff := h.held_iff.trans (exists_congr fun j => (howns j).symm)
    owner_unique := fun hj hk => h.owner_unique ((howns _).mp hj) ((howns _).mp hk)
    queue_eq_nil := h.queue_eq_nil }

/-! ## What leaving and looking amount to -/

theorem leave_of_waits (h : l.Sound) (hi : l.Waits i) :
    l.leave i = { l with queue := l.queue.erase i }.dropStake i := by
  have hq : l.queue.contains i = true := by simpa using (h.mem_queue i).mpr hi
  obtain ⟨limit, hi⟩ := hi
  simp only [Lock.leave, hi, Lock.withdraw, hq]

theorem leave_of_owns (h : l.Sound) (hi : l.Owns i) : l.leave i = (l.dropStake i).release := by
  have hmem : i ∉ l.queue := fun hq => hi.not_waits ((h.mem_queue i).mp hq)
  have hq : l.queue.contains i = false := by simpa using hmem
  obtain ⟨s, hs, ho⟩ := hi
  cases s with
  | waiting limit => simp [Stake.owns] at ho
  | granted limit => simp only [Lock.leave, hs, Lock.withdraw, hq, List.erase_of_not_mem hmem]
  | holding => simp only [Lock.leave, hs]

theorem leave_of_none (hi : l.stake? i = none) : l.leave i = l := by
  simp only [Lock.leave, hi]

/-- **Looking**, in a lock that is sound. A party with a grant has the
lock from now on. One whose time is over goes away. Nothing else changes
anything. -/
theorem look_cases (h : l.Sound) (now : Nat) (i : ι) :
    (∃ limit, l.stake? i = some (.granted limit) ∧
      l.look now i = (l.setStake i .holding, .acquired)) ∨
    (∃ limit, l.stake? i = some (.waiting (some limit)) ∧ limit.deadline ≤ now ∧
      l.look now i = (l.leave i, .timedOut limit.after)) ∨
    ∃ look, l.look now i = (l, look) ∧ look ∈ [.absent, .held, .pending] := by
  cases hs : l.stake? i with
  | none => exact Or.inr (Or.inr ⟨.absent, by simp only [look, hs], by simp⟩)
  | some s =>
    cases s with
    | holding => exact Or.inr (Or.inr ⟨.held, by simp only [look, hs], by simp⟩)
    | granted limit => exact Or.inl ⟨limit, rfl, by simp only [look, hs]⟩
    | waiting limit =>
      cases limit with
      | none => exact Or.inr (Or.inr ⟨.pending, by simp only [look, hs], by simp⟩)
      | some limit =>
        by_cases hnow : now < limit.deadline
        · exact Or.inr (Or.inr ⟨.pending, by simp only [look, hs, if_pos hnow], by simp⟩)
        · have hq : l.queue.contains i = true := by
            simpa using (h.mem_queue i).mpr ⟨_, hs⟩
          refine Or.inr (Or.inl ⟨limit, rfl, by omega, ?_⟩)
          rw [h.leave_of_waits ⟨_, hs⟩]
          simp only [look, hs, if_neg hnow, Lock.withdraw, hq]

/-! ## Every event -/

/-- Whoever goes away leaves a sound lock. -/
theorem leave (h : l.Sound) (i : ι) : (l.leave i).Sound := by
  cases hs : l.stake? i with
  | none => rwa [leave_of_none hs]
  | some s =>
    rcases waits_or_owns hs with hi | hi
    · rw [h.leave_of_waits hi]
      exact h.withdraw hi
    · rw [h.leave_of_owns hi]
      exact h.pass hi

/-- And so does whoever looks. -/
theorem look (h : l.Sound) (now : Nat) (i : ι) : (l.look now i).1.Sound := by
  rcases h.look_cases now i with ⟨limit, hs, hl⟩ | ⟨limit, -, -, hl⟩ | ⟨look, hl, -⟩
  · rw [hl]
    exact h.take ⟨_, hs, rfl⟩
  · rw [hl]
    exact h.leave i
  · rwa [hl]

/-- **A step keeps a lock sound.** -/
theorem step (h : l.Sound) (now : Nat) (e : Event ι) : (l.step now e).Sound := by
  cases e with
  | ask i timeout =>
    simp only [Lock.step]
    split
    · exact h
    · next hs => exact h.enter (Option.not_isSome_iff_eq_none.mp hs) now timeout
  | look i => exact h.look now i
  | leave i => exact h.leave i

/-- **And so does a history.** -/
theorem run (h : l.Sound) (events : List (Nat × Event ι)) : (l.run events).Sound := by
  induction events generalizing l with
  | nil => exact h
  | cons e events ih => exact ih (h.step e.1 e.2)

end Sound

/-! ## Places -/

/-- Where a party stands. -/
inductive Place where
  | outside
  /-- It has asked and does not know that it has the lock. -/
  | inLine
  | inside
  deriving DecidableEq

/-- Where a party with a stake stands. -/
def Place.of : Option Stake → Place
  | none => .outside
  | some .holding => .inside
  | some _ => .inLine

/-- Where a party stands. -/
def place (l : Lock ι) (i : ι) : Place := .of (l.stake? i)

theorem place_setStake :
    (l.setStake i s).place j = if j = i then .of (some s) else l.place j := by
  simp only [place, stake?_setStake]
  split <;> rfl

theorem place_dropStake : (l.dropStake i).place j = if j = i then .outside else l.place j := by
  simp only [place, stake?_dropStake]
  split <;> rfl

theorem stake?_eq_none_iff : l.stake? i = none ↔ l.place i = .outside := by
  unfold place Place.of
  split <;> simp [*]

/-- Whoever is inside owns the lock. -/
theorem owns_of_inside (h : l.place i = .inside) : l.Owns i := by
  unfold place Place.of at h
  split at h
  · cases h
  · next hs => exact ⟨_, hs, rfl⟩
  · cases h

/-- Giving the lock back moves nobody: its new owner has not looked. -/
theorem place_release (h : l.Lined) : l.release.place j = l.place j := by
  cases hq : l.queue with
  | nil =>
    rw [release_nil hq]
    rfl
  | cons k rest =>
    obtain ⟨limit, hk⟩ := (h.mem_queue k).mp (by simp [hq])
    rw [release_cons hq hk, place_setStake]
    split
    · next hj =>
      subst hj
      simp [place, hk, Place.of]
    · rfl

/-! ## What a lock promises -/

/-- **A lock has one owner or none.** -/
structure Exclusive (l : Lock ι) : Prop where
  /-- It is taken exactly if there is one owner, -/
  held_iff : l.held = true ↔ ∃! i, l.Owns i
  /-- and there are never two. -/
  owner_unique (i j : ι) : l.Owns i → l.Owns j → i = j
  /-- Nobody is in line for a free lock. -/
  queue_eq_nil : l.held = false → l.queue = []
  /-- Whoever is in line still waits, -/
  waits_of_mem (i : ι) : i ∈ l.queue → l.Waits i
  /-- so that the first one has the lock when its owner goes away. -/
  hand_over (i j : ι) : l.Owns i → l.queue.head? = some j →
    (l.leave i).Owns j ∧ (l.leave i).queue = l.queue.tail
  /-- It is free when the owner goes away and nobody is in line, -/
  free_up (i : ι) : l.Owns i → l.queue = [] → (l.leave i).held = false
  /-- and whenever nobody has anything of it. -/
  free_of_gone : (∀ i, l.stake? i = none) → l.held = false ∧ l.queue = []

namespace Sound

/-- **One party at most is inside.** -/
theorem inside_unique (h : l.Sound) (hi : l.place i = .inside) (hj : l.place j = .inside) :
    i = j :=
  h.owner_unique (owns_of_inside hi) (owns_of_inside hj)

/-- **A lock that nobody has anything of is free, and nobody is in line.** -/
theorem free_of_outside (h : l.Sound) (hout : ∀ i, l.place i = .outside) :
    l.held = false ∧ l.queue = [] := by
  have hno : ¬ ∃ i, l.Owns i := by
    rintro ⟨i, s, hs, -⟩
    rw [stake?_eq_none_iff.mpr (hout i)] at hs
    cases hs
  have hheld : l.held = false := by
    rw [← h.held_iff] at hno
    simpa using hno
  exact ⟨hheld, h.queue_eq_nil hheld⟩

/-- Going away leads outside, and moves nobody else. -/
theorem place_leave (h : l.Sound) :
    (l.leave i).place j = if j = i then .outside else l.place j := by
  cases hs : l.stake? i with
  | none =>
    rw [leave_of_none hs]
    split
    · next hj => rw [hj, stake?_eq_none_iff.mp hs]
    · rfl
  | some s =>
    rcases waits_or_owns hs with hi | hi
    · rw [h.leave_of_waits hi, place_dropStake]
      rfl
    · rw [h.leave_of_owns hi, place_release (h.lined_dropStake hi), place_dropStake]

/-- **The owner passes the lock on.** Nobody owned it beside the one who
goes away, and the first in line, who waits, owns it next. -/
theorem leave_hands_over (h : l.Sound) (hi : l.Owns i) (hj : l.queue.head? = some j) :
    (l.leave i).Owns j ∧ (l.leave i).queue = l.queue.tail := by
  obtain ⟨rest, hq⟩ := List.head?_eq_some_iff.mp hj
  obtain ⟨limit, hw⟩ := ((h.lined_dropStake hi).mem_queue j).mp (by simp [hq])
  rw [h.leave_of_owns hi, release_cons (l := l.dropStake i) hq hw]
  simp [owns_setStake, Stake.owns, hq]

/-- And if nobody is in line, the lock is free. -/
theorem leave_frees (h : l.Sound) (hi : l.Owns i) (hq : l.queue = []) :
    (l.leave i).held = false := by
  rw [h.leave_of_owns hi, release_nil (l := l.dropStake i) hq]

/-- A sound lock keeps what a lock promises. -/
theorem exclusive (h : l.Sound) : l.Exclusive where
  held_iff := by
    rw [h.held_iff]
    exact ⟨fun ⟨i, hi⟩ => ⟨i, hi, fun _ hj => h.owner_unique hj hi⟩, fun ⟨i, hi, _⟩ => ⟨i, hi⟩⟩
  owner_unique _ _ := h.owner_unique
  queue_eq_nil := h.queue_eq_nil
  waits_of_mem i := (h.mem_queue i).mp
  hand_over _ _ := h.leave_hands_over
  free_up _ := h.leave_frees
  free_of_gone hnone := h.free_of_outside fun i => stake?_eq_none_iff.mp (hnone i)

end Sound

/-- Asking leads inside or into the line, and moves nobody else. -/
theorem place_enter (now : Nat) (timeout : Option Nat) :
    (l.enter now timeout i).1.place j =
      if j = i then (if (l.enter now timeout i).2 then .inside else .inLine) else l.place j := by
  cases hheld : l.held with
  | true => rw [enter_of_held hheld, place_setStake]; rfl
  | false => rw [enter_of_free hheld, place_setStake]; rfl

end Lock

end CapabilityBroker
