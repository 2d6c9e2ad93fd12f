import CapabilityBroker.Proofs.Cache.Invariants
import CapabilityBroker.Proofs.Cache.Lookups
import CapabilityBroker.Proofs.Cache.Storing
/-!
# How long a value is found

A value is found under its key from when it was stored until its time is
over, unless it is taken away before (`TakenAway`): replaced, removed,
dropped with all others or given up, which each operation tells. One event
leaves under a key what it stored there, or what was there if it does not
take it away (`find?_step`); so after a history the last value that was
stored and kept is there, if no later event took it away (`find?_run`).
Lookups do not count as new beginnings: they change the order of last uses
and leave the entries alone.
-/

namespace CapabilityBroker

namespace Cache

/-- The keys whose entries were given up for a value. -/
def Stored.evicted : Stored → List CacheKey
  | kept evicted => evicted.map (·.2)
  | refused _ => []

/-- **What is under a key is taken away by an event**: something is stored
under the key, whether it is kept or not, or its entry is removed, dropped
or given up. -/
def TakenAway (c : Cache) (now : Nat) (k : CacheKey) : Event → Prop
  | .insert j v => j = k ∨ k ∈ (c.insert now j v).2.evicted
  | .get j => j = k ∧ (c.get now j).2 = .expired
  | .contains _ => False
  | .remove j => j = k
  | .purge => k ∈ (c.purge now).2
  | .reduce => k ∈ c.reduce.2
  | .clear => True

/-- No event of a history takes away what is under a key. -/
def Spares (k : CacheKey) : Cache → List (Nat × Event) → Prop
  | _, [] => True
  | c, (t, event) :: events => ¬ c.TakenAway t k event ∧ Spares k (c.step t event) events

/-- **A value was stored** under a key at an instant of a history, was
kept, and was not taken away since. -/
def StillStored (c : Cache) (k : CacheKey) (events : List (Nat × Event)) (t : Nat)
    (v : CapabilitySet) : Prop :=
  ∃ before after, events = before ++ (t, .insert k v) :: after ∧
    ((c.run before).insert t k v).2.isKept = true ∧
    ((c.run before).insert t k v).1.Spares k after

/-- **A value that is found** becomes the most recently used one. -/
structure Refreshes (c : Cache) (k : CacheKey) (d : Cache) : Prop where
  keys_eq : d.keys = c.otherKeys k ++ [k]
  /-- Every entry is as it was, -/
  find?_eq (j : CacheKey) : d.find? j = c.find? j
  /-- and is found for as long as it would have been. -/
  get_eq (later : Nat) (j : CacheKey) : (d.get later j).2 = (c.get later j).2

/-- **An entry whose time is over** is given up when it is looked up. -/
structure Expires (c : Cache) (k : CacheKey) (e : Entry) (d : Cache) : Prop where
  gone : d.find? k = none
  /-- Every other entry is as it was, -/
  others {j : CacheKey} : j ≠ k → d.find? j = c.find? j
  /-- and so is the order of the other keys. -/
  keys_eq : d.keys = c.otherKeys k
  /-- The bytes of the entry are taken off, -/
  budget_eq : d.budget = c.budget.remove e.size
  /-- and are all free if bytes can be counted. -/
  current_eq : c.limits.maxBytes < byteCountLimit →
    d.budget.current + e.size = c.budget.current
  /-- The lookup counts as one that found nothing, -/
  lookups_eq : d.lookups = (c.hits, c.misses + 1)
  /-- and the entry as one that was given up. -/
  evictions_eq : d.evictions = c.evictions + 1

/-- **What a lookup does**, and what asking for a key tells. -/
structure LooksUp (c : Cache) (now : Nat) (k : CacheKey) : Prop where
  hit {v : CapabilitySet} : (c.get now k).2 = .hit v → c.Refreshes k (c.get now k).1
  expired {e : Entry} : c.find? k = some e → e.isExpired c.limits.ttl now = true →
    (c.get now k).2 = .expired ∧ c.Expires k e (c.get now k).1
  /-- A key is in the cache if a lookup would find it. -/
  contains_eq : c.contains now k = (c.get now k).2.isHit
  /-- Asking changes nothing. -/
  step_contains : c.step now (.contains k) = c

variable {c d : Cache} {j k : CacheKey} {v : CapabilitySet} {x : Entry} {t now : Nat}
  {event : Event} {events : List (Nat × Event)}

/-! ## What the loops give up -/

theorem find?_evictOldest? (h : c.evictOldest? = some (k, d)) :
    d.find? j = if j = k then none else c.find? j := by
  obtain ⟨⟨_, recency⟩, -, heq⟩ := Option.map_eq_some_iff.mp h
  obtain ⟨rfl, rfl⟩ := Prod.mk.inj heq
  exact find?_evict

theorem find?_evictUntil {enough : Cache → Bool} (bound : Nat) :
    (evictUntil enough bound c).1.find? j =
      if j ∈ (evictUntil enough bound c).2 then none else c.find? j := by
  induction bound generalizing c with
  | zero => rfl
  | succ bound ih =>
    unfold evictUntil
    split
    · rfl
    · split
      · rfl
      · next k d hd =>
        simp only [ih, find?_evictOldest? hd]
        exact ite_none_cons

/-! ## One event -/

/-- Under the key of a value is that value, if it is kept. -/
theorem find?_insert_self : (c.insert now k v).1.find? k =
    if (c.insert now k v).2.isKept then some ⟨k, v, now, v.byteSize⟩ else none := by
  rcases insert_cases c now k v with hi | ⟨d, evicted, -, hi⟩
  · rw [hi, find?_erase, if_pos rfl]
    rfl
  · rw [hi]
    simp [find?, Stored.isKept]

/-- Under every other key is what was there, if it was not given up. -/
theorem find?_insert_ne (hjk : j ≠ k) : (c.insert now k v).1.find? j =
    if j ∈ (c.insert now k v).2.evicted then none else c.find? j := by
  have herase : (c.erase k).find? j = c.find? j := by rw [find?_erase, if_neg hjk]
  -- what goes for the bytes comes after what went for the number of entries
  have hfill {d : Cache} (crowded : List CacheKey)
      (hd : d.find? j = if j ∈ crowded then none else c.find? j) :
      let r := evictUntil (·.budget.fits v.byteSize) d.recency.order.length d
      (r.1.store now k v).find? j = if j ∈ (Stored.kept (crowded.map (Reason.capacity, ·) ++
        r.2.map (Reason.budget, ·))).evicted then none else c.find? j := by
    intro r
    have hr : r.1.find? j = if j ∈ r.2 then none else d.find? j := find?_evictUntil _
    rw [find?_store_ne hjk, hr, hd]
    simp only [Stored.evicted, List.map_append, List.map_map, Function.comp_def, List.map_id',
      List.mem_append]
    by_cases hcrowded : j ∈ crowded
    · simp [hcrowded]
    · simp [hcrowded]
  unfold insert
  by_cases hrefused : (c.erase k).limits.maxEntries = 0 ∨ (c.erase k).budget.maxBytes < v.byteSize
  · rw [if_pos hrefused]
    exact herase
  · rw [if_neg hrefused]
    by_cases hfull : (c.erase k).limits.maxEntries ≤ (c.erase k).size
    · rw [if_pos hfull]
      cases hd : (c.erase k).evictOldest? with
      | none => exact hfill [] herase
      | some kd =>
        refine hfill [kd.1] ?_
        rw [find?_evictOldest? hd, herase]
        simp
    · rw [if_neg hfull]
      exact hfill [] herase

/-- A lookup takes an entry away if it finds that its time is over. -/
theorem find?_get : (c.get now k).1.find? j =
    if j = k ∧ (c.get now k).2 = .expired then none else c.find? j := by
  unfold get
  split
  · simp [find?]
  · split
    · simp only [and_true]
      exact find?_evict
    · simp [find?]

theorem find?_purge : (c.purge now).1.find? j =
    if j ∈ (c.purge now).2 then none else c.find? j := find?_evictAll

theorem find?_reduce : c.reduce.1.find? j = if j ∈ c.reduce.2 then none else c.find? j := by
  unfold reduce
  split
  · rfl
  · exact find?_evictUntil _

/-- **What an event leaves under a key** is what it stored there, or what
was there if it does not take it away. -/
theorem find?_step : (c.step t event).find? k = some x ↔
    (∃ v, event = .insert k v ∧ (c.insert t k v).2.isKept = true ∧ x = ⟨k, v, t, v.byteSize⟩) ∨
      (¬ c.TakenAway t k event ∧ c.find? k = some x) := by
  cases event with
  | insert j v =>
    by_cases hjk : k = j
    · subst hjk
      simp [step, TakenAway, find?_insert_self, eq_comm (b := x)]
    · have hkj : ¬ j = k := fun heq => hjk heq.symm
      simp [step, TakenAway, find?_insert_ne hjk, hkj]
  | get j => simp [step, TakenAway, find?_get, eq_comm (a := j)]
  | contains j => simp [step, TakenAway]
  | remove j => simp [step, TakenAway, remove, find?_erase, eq_comm (a := j)]
  | purge => simp [step, TakenAway, find?_purge]
  | reduce => simp [step, TakenAway, find?_reduce]
  | clear => simp [step, TakenAway, clear, find?]

/-! ## Histories -/

theorem run_append {later : List (Nat × Event)} :
    c.run (events ++ later) = (c.run events).run later := List.foldl_append ..

theorem limits_run : (c.run events).limits = c.limits := by
  induction events generalizing c with
  | nil => rfl
  | cons e events ih => exact ih.trans (limits_step c e.1 e.2)

/-- A value was stored by the first event and spared by the others, or was
stored later. -/
theorem stillStored_cons {s : Nat} : c.StillStored k ((s, event) :: events) t v ↔
    (s = t ∧ event = .insert k v ∧ (c.insert t k v).2.isKept = true ∧
      (c.insert t k v).1.Spares k events) ∨ (c.step s event).StillStored k events t v := by
  refine ⟨?_, ?_⟩
  · rintro ⟨before, after, heq, hkept, hspared⟩
    cases before with
    | nil =>
      obtain ⟨hevent, rfl⟩ := List.cons.inj heq
      obtain ⟨rfl, rfl⟩ := Prod.mk.inj hevent
      exact Or.inl ⟨rfl, rfl, hkept, hspared⟩
    | cons e before =>
      obtain ⟨rfl, rfl⟩ := List.cons.inj heq
      exact Or.inr ⟨before, after, rfl, hkept, hspared⟩
  · rintro (⟨rfl, rfl, hkept, hspared⟩ | ⟨before, after, rfl, hkept, hspared⟩)
    · exact ⟨[], events, rfl, hkept, hspared⟩
    · exact ⟨(s, event) :: before, after, rfl, hkept, hspared⟩

/-- **What a history leaves under a key** is the last value that was stored
there, or what was there if no event takes it away. -/
theorem find?_run : (c.run events).find? k = some x ↔
    (∃ t v, x = ⟨k, v, t, v.byteSize⟩ ∧ c.StillStored k events t v) ∨
      (c.Spares k events ∧ c.find? k = some x) := by
  induction events generalizing c with
  | nil => simp [run, StillStored, Spares]
  | cons e events ih =>
    obtain ⟨s, event⟩ := e
    change ((c.step s event).run events).find? k = some x ↔ _
    rw [ih, find?_step]
    simp only [stillStored_cons, Spares]
    -- what was there before the other events is what the first one stored or spared
    refine ⟨?_, ?_⟩
    · rintro (⟨t, v, hx, hstored⟩ | ⟨hspared, ⟨v, rfl, hkept, hx⟩ | ⟨hleft, hfound⟩⟩)
      · exact Or.inl ⟨t, v, hx, Or.inr hstored⟩
      · exact Or.inl ⟨s, v, hx, Or.inl ⟨rfl, rfl, hkept, hspared⟩⟩
      · exact Or.inr ⟨⟨hleft, hspared⟩, hfound⟩
    · rintro (⟨t, v, hx, ⟨rfl, rfl, hkept, hspared⟩ | hstored⟩ | ⟨⟨hleft, hspared⟩, hfound⟩)
      · exact Or.inr ⟨hspared, Or.inl ⟨v, rfl, hkept, hx⟩⟩
      · exact Or.inl ⟨t, v, hx, hstored⟩
      · exact Or.inr ⟨hspared, Or.inr ⟨hleft, hfound⟩⟩

/-- Nothing that was under a key outlives something stored there. -/
theorem stored_of_find?_run (h : (c.run ((t, .insert k v) :: events)).find? k = some x) :
    ∃ s w, x = ⟨k, w, s, w.byteSize⟩ ∧ c.StillStored k ((t, .insert k v) :: events) s w :=
  (find?_run.mp h).resolve_right fun hspared => hspared.1.1 (Or.inl rfl)

/-! ## Lookups -/

theorem get_snd : (c.get now k).2 = match c.find? k with
    | none => .absent
    | some e => if e.isExpired c.limits.ttl now then .expired else .hit e.value := by
  cases he : c.find? k with
  | none => simp only [get, he]
  | some e =>
    simp only [get, he]
    split <;> rfl

/-- **A lookup finds a value** that is under its key and not too old. -/
theorem get_eq_hit_iff : (c.get now k).2 = .hit v ↔
    ∃ e, c.find? k = some e ∧ e.value = v ∧ now - e.createdAt < c.limits.ttl := by
  rw [get_snd]
  cases c.find? k with
  | none => simp
  | some e =>
    by_cases hexpired : e.isExpired c.limits.ttl now = true
    · have hold : c.limits.ttl ≤ now - e.createdAt := of_decide_eq_true hexpired
      simp [hexpired, hold]
    · have hyoung : now - e.createdAt < c.limits.ttl :=
        Nat.lt_of_not_le fun hold => hexpired (decide_eq_true hold)
      simp [hexpired, hyoung]

theorem contains_eq_isHit : c.contains now k = (c.get now k).2.isHit := by
  rw [get_snd, contains]
  cases c.find? k with
  | none => rfl
  | some e =>
    by_cases hexpired : e.isExpired c.limits.ttl now = true
    · simp [hexpired, Lookup.isHit]
    · simp [hexpired, Lookup.isHit]

/-- The tables of the tracker always agree. -/
theorem invariant_linked : Invariant (·.recency.Linked) where
  erase k h := by
    unfold erase
    split
    · exact h
    · exact h.erase k
  pop hpop h := by
    rw [h.pop?_eq] at hpop
    obtain ⟨k, -, heq⟩ := Option.map_eq_some_iff.mp hpop
    obtain ⟨-, rfl⟩ := Prod.mk.inj heq
    exact h.erase k
  touch k h := h.touch k
  add k _ h := h.touch k
  clear _ := Recency.Linked.clear _
  count _ _ _ h := h

theorem refreshes_get (h : c.recency.Linked) (hhit : (c.get now k).2 = .hit v) :
    c.Refreshes k (c.get now k).1 := by
  rw [get_of_hit hhit]
  exact ⟨h.toList_touch, fun _ => rfl, fun later j => by rw [get_snd, get_snd]; rfl⟩

theorem expires_get (h : c.recency.Linked)
    (hcounted : c.limits.maxBytes < byteCountLimit → c.Consistent) (he : c.find? k = some x)
    (hexpired : x.isExpired c.limits.ttl now = true) :
    (c.get now k).2 = .expired ∧ c.Expires k x (c.get now k).1 := by
  have hget : (c.get now k).2 = .expired := by simp [get_snd, he, hexpired]
  have hmiss (v : CapabilitySet) : (c.get now k).2 ≠ .hit v := by simp [hget]
  have herase := erase_of_some he
  refine ⟨hget, ?_⟩
  rw [(get_of_not_hit hmiss).1]
  refine ⟨?_, fun hj => ?_, ?_, ?_, fun hmax => ?_, ?_, ?_⟩
  · exact find?_erase.trans (if_pos rfl)
  · exact find?_erase.trans (if_neg hj)
  · rw [herase]
    exact h.toList_erase
  · rw [herase]
  · have hcurrent := (hcounted hmax).current_erase k
    rwa [he] at hcurrent
  · rw [herase]
    rfl
  · simp [he]

/-- **A lookup tells the last value stored**, within its time. After every
history of a cache a lookup finds a value exactly when it is the last one
that was stored under the key, was kept, is not too old and was not taken
away since. Finding it does not make it last longer; an entry that is too
old goes, with its bytes; and no value outlives something that is stored
under its key, be that kept or not. -/
theorem lookup_tells_last_stored (limits : CacheLimits) (events : List (Nat × Event)) (now : Nat)
    (k : CacheKey) :
    ((new limits).run events).limits = limits ∧
    (∀ v, (((new limits).run events).get now k).2 = .hit v ↔
      ∃ t, (new limits).StillStored k events t v ∧ now - t < limits.ttl) ∧
    ((new limits).run events).LooksUp now k ∧
    ∀ before t v after w, events = before ++ (t, .insert k v) :: after →
      (((new limits).run events).get now k).2 = .hit w →
      ∃ s, ((new limits).run before).StillStored k ((t, .insert k v) :: after) s w := by
  have hlimits : ((new limits).run events).limits = limits := limits_run
  have hlinked := invariant_linked.run events (c := new limits) Recency.Linked.empty
  have hcounted (hmax : ((new limits).run events).limits.maxBytes < byteCountLimit) :=
    ((consistent_new limits).run (hlimits ▸ hmax) events).1
  refine ⟨hlimits, fun v => ?_, ⟨fun hhit => refreshes_get hlinked hhit,
    fun he hexpired => expires_get hlinked hcounted he hexpired, contains_eq_isHit, rfl⟩, ?_⟩
  · rw [get_eq_hit_iff, hlimits]
    refine ⟨?_, ?_⟩
    · rintro ⟨e, he, rfl, hyoung⟩
      obtain ⟨t, v, rfl, hstored⟩ := (find?_run.mp he).resolve_right fun hspared =>
        nomatch hspared.2
      exact ⟨t, hstored, hyoung⟩
    · rintro ⟨t, hstored, hyoung⟩
      exact ⟨⟨k, v, t, v.byteSize⟩, find?_run.mpr (Or.inl ⟨t, v, rfl, hstored⟩), rfl, hyoung⟩
  · -- what is found was stored after the beginning, which the next event takes away
    rintro before t v after w rfl hhit
    obtain ⟨e, he, rfl, -⟩ := get_eq_hit_iff.mp hhit
    rw [run_append] at he
    obtain ⟨s, w, rfl, hstored⟩ := stored_of_find?_run he
    exact ⟨s, hstored⟩

/-- A set is replaced by a larger one, which is used once more. -/
def renewedHistory : List (Nat × Event) :=
  [(0, .insert ⟨"a", false⟩ .empty),
    (5, .insert ⟨"a", false⟩ (CapabilitySet.empty.insert .toolUse)), (9, .get ⟨"a", false⟩)]

/-- It is found until ten instants after it was stored. -/
theorem renewed_set_found :
    (((new narrowLimits).run renewedHistory).get 14 ⟨"a", false⟩).2 =
      .hit (CapabilitySet.empty.insert .toolUse) ∧
    (((new narrowLimits).run renewedHistory).get 15 ⟨"a", false⟩).2 = .expired ∧
    (∃ t, (new narrowLimits).StillStored ⟨"a", false⟩ renewedHistory t
      (CapabilitySet.empty.insert .toolUse) ∧ 14 - t < narrowLimits.ttl) ∧
    ((new narrowLimits).run renewedHistory).LooksUp 15 ⟨"a", false⟩ ∧
    ∃ s, ((new narrowLimits).run [(0, .insert ⟨"a", false⟩ .empty)]).StillStored ⟨"a", false⟩
      [(5, .insert ⟨"a", false⟩ (CapabilitySet.empty.insert .toolUse)), (9, .get ⟨"a", false⟩)] s
      (CapabilitySet.empty.insert .toolUse) := by
  have hhit : (((new narrowLimits).run renewedHistory).get 14 ⟨"a", false⟩).2 =
      .hit (CapabilitySet.empty.insert .toolUse) := by decide +kernel
  obtain ⟨-, hiff, -, horigin⟩ :=
    lookup_tells_last_stored narrowLimits renewedHistory 14 ⟨"a", false⟩
  obtain ⟨-, -, hlooks, -⟩ := lookup_tells_last_stored narrowLimits renewedHistory 15 ⟨"a", false⟩
  exact ⟨hhit, by decide +kernel, (hiff _).mp hhit, hlooks,
    horigin [(0, .insert ⟨"a", false⟩ .empty)] _ _ _ _ rfl hhit⟩

end Cache

end CapabilityBroker
