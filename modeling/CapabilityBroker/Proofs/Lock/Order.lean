import CapabilityBroker.Proofs.Lock.Ownership
/-!
# The order of hand-overs

Whoever finds the lock taken stands last in line, and the lock goes to the
first in line. `Change` says everything that an event can do to a lock, and
the history of a line is kept in a ledger: one row for each wait, in the
order in which they began, with what became of it. The ledger looks at the
stakes and at nothing else, so what the line has to do with it is a theorem
(`InTurn`). Without the waits that were given up, the ledger begins with
those that were granted, each when as many had been granted before as stand
above it, and ends with those in line.

Nobody is passed over, therefore, and a grant given up before its party
looked counts as a turn like any other.
-/

namespace CapabilityBroker

namespace Lock

variable {ι : Type} [DecidableEq ι]

/-! ## What an event does to a lock -/

/-- What an event at an instant can make of a lock. -/
inductive Change (now : Nat) (l : Lock ι) : Event ι → Lock ι → Prop
  | unchanged (e : Event ι) : Change now l e l
  /-- A lock that is free is taken at once. -/
  | taken {i : ι} (timeout : Option Nat) (hnew : l.stake? i = none) (hfree : l.held = false) :
      Change now l (.ask i timeout) ({ l with held := true }.setStake i .holding)
  | joined {i : ι} (timeout : Option Nat) (hnew : l.stake? i = none) (hheld : l.held = true) :
      Change now l (.ask i timeout) ({ l with queue := l.queue ++ [i] }.setStake i
        (.waiting (timeout.map (WaitLimit.of now))))
  /-- The owner finds out that it is the owner. -/
  | learned {i : ι} (howns : l.Owns i) : Change now l (.look i) (l.setStake i .holding)
  /-- The time of a wait is over. -/
  | expired {i : ι} {limit : WaitLimit} (hwaits : l.stake? i = some (.waiting (some limit)))
      (hover : limit.deadline ≤ now) :
      Change now l (.look i) ({ l with queue := l.queue.erase i }.dropStake i)
  | withdrew {i : ι} (hwaits : l.Waits i) :
      Change now l (.leave i) ({ l with queue := l.queue.erase i }.dropStake i)
  /-- The lock is given back, and nobody waits. -/
  | freed {i : ι} (howns : l.Owns i) (hqueue : l.queue = []) :
      Change now l (.leave i) { l.dropStake i with held := false }
  | passed {i k : ι} {rest : List ι} {limit : Option WaitLimit} (howns : l.Owns i)
      (hqueue : l.queue = k :: rest) (hwaits : l.stake? k = some (.waiting limit)) :
      Change now l (.leave i)
        ({ l.dropStake i with queue := rest }.setStake k (.granted limit))

variable {l l' : Lock ι} {i j : ι} {now : Nat} {e : Event ι}

/-- **A step of a sound lock is one of these.** -/
theorem Sound.change_step (h : l.Sound) (now : Nat) (e : Event ι) :
    Change now l e (l.step now e) := by
  cases e with
  | ask i timeout =>
    cases hi : l.stake? i with
    | some s =>
      have hstep : l.step now (.ask i timeout) = l := by simp [Lock.step, hi]
      rw [hstep]
      exact .unchanged _
    | none =>
      have hstep : l.step now (.ask i timeout) = (l.enter now timeout i).1 := by
        simp [Lock.step, hi]
      rw [hstep]
      cases hheld : l.held with
      | true =>
        rw [enter_of_held hheld]
        exact .joined timeout hi hheld
      | false =>
        rw [enter_of_free hheld]
        exact .taken timeout hi hheld
  | look i =>
    simp only [Lock.step]
    rcases h.look_cases now i with ⟨limit, hs, hl⟩ | ⟨limit, hs, hover, hl⟩ | ⟨look, hl, -⟩
    · rw [hl]
      exact .learned ⟨_, hs, rfl⟩
    · rw [hl, h.leave_of_waits ⟨_, hs⟩]
      exact .expired hs hover
    · rw [hl]
      exact .unchanged _
  | leave i =>
    simp only [Lock.step]
    cases hi : l.stake? i with
    | none =>
      rw [leave_of_none hi]
      exact .unchanged _
    | some s =>
      rcases waits_or_owns hi with hwaits | howns
      · rw [h.leave_of_waits hwaits]
        exact .withdrew hwaits
      · rw [h.leave_of_owns howns]
        cases hq : l.queue with
        | nil =>
          rw [release_nil (l := l.dropStake i) hq]
          exact .freed howns hq
        | cons k rest =>
          obtain ⟨limit, hk⟩ := (h.mem_queue k).mp (by simp [hq])
          have hne : k ≠ i := by
            rintro rfl
            exact howns.not_waits ⟨limit, hk⟩
          rw [release_cons (l := l.dropStake i) hq (by rwa [stake?_dropStake_of_ne hne])]
          exact .passed howns hq hk

/-! ## The ledger -/

/-- What became of a wait. -/
inductive Fate where
  | waiting
  /-- The lock was handed over, when so many waits had been granted before. -/
  | granted (before : Nat)
  | withdrawn
  deriving DecidableEq

/-- What became of a wait whose party has the given stake now. -/
def Fate.of (before : Nat) : Option Stake → Fate
  | none => .withdrawn
  | some (.waiting _) => .waiting
  | some _ => .granted before

/-- Whether a wait ended with the lock. -/
def Fate.isGranted : Fate → Bool
  | .granted _ => true
  | _ => false

/-- One wait: who waited, and what became of it. -/
structure Wait (ι : Type) where
  party : ι
  fate : Fate
  deriving DecidableEq

/-- A wait that has not ended is followed to the next state of the lock. -/
def Wait.follow (before : Nat) (l : Lock ι) (w : Wait ι) : Wait ι :=
  if w.fate = .waiting then ⟨w.party, .of before (l.stake? w.party)⟩ else w

instance (l : Lock ι) (i : ι) : Decidable (l.Waits i) :=
  decidable_of_iff ((l.waitOf? i).isSome = true) (by
    simp only [Waits, Option.isSome_iff_exists, waitOf?_eq_some_iff])

/-- Who begins to wait between two states of a lock: the party that comes,
unless it has the lock at once. -/
def newcomers (l l' : Lock ι) : Event ι → List ι
  | .ask i _ => if l.stake? i = none ∧ l'.Waits i then [i] else []
  | .look _ => []
  | .leave _ => []

/-- All waits in the order in which they began. -/
abbrev Ledger (ι : Type) := List (Wait ι)

namespace Ledger

variable {ι : Type}

/-- How many waits have been granted. -/
def grants (r : Ledger ι) : Nat := r.countP (·.fate.isGranted)

/-- The waits that were not given up. -/
def kept (r : Ledger ι) : Ledger ι := r.filter fun w => w.fate ≠ .withdrawn

/-- The waits of some parties that were granted one after another. -/
def inTurn (parties : List ι) : Ledger ι := parties.mapIdx fun n i => ⟨i, .granted n⟩

/-- The waits of some parties that have not ended. -/
def inLine (parties : List ι) : Ledger ι := parties.map fun i => ⟨i, .waiting⟩

variable {r r' : Ledger ι} {parties : List ι}

@[simp] theorem kept_append : kept (r ++ r') = kept r ++ kept r' :=
  List.filter_append _ _

theorem kept_inTurn : kept (inTurn parties) = inTurn parties := by
  refine List.filter_eq_self.mpr fun w hw => ?_
  obtain ⟨n, hn, rfl⟩ := List.mem_mapIdx.mp hw
  rfl

theorem kept_inLine : kept (inLine parties) = inLine parties := by
  refine List.filter_eq_self.mpr fun w hw => ?_
  obtain ⟨i, -, rfl⟩ := List.mem_map.mp hw
  rfl

theorem inLine_append {others : List ι} :
    inLine (parties ++ others) = inLine parties ++ inLine others := List.map_append

theorem grants_kept : grants (kept r) = grants r := by
  rw [grants, kept, List.countP_filter]
  refine List.countP_congr fun w _ => ?_
  cases w.fate <;> simp [Fate.isGranted]

/-- The grants of a ledger are those that stand in it in turn. -/
theorem grants_eq {granted : List ι} (h : kept r = inTurn granted ++ inLine parties) :
    grants r = granted.length := by
  have hturn : (inTurn granted).countP (·.fate.isGranted) = (inTurn granted).length := by
    refine List.countP_eq_length.mpr fun w hw => ?_
    obtain ⟨n, hn, rfl⟩ := List.mem_mapIdx.mp hw
    rfl
  have hline : (inLine parties).countP (·.fate.isGranted) = 0 := by
    refine List.countP_eq_zero.mpr fun w hw => ?_
    obtain ⟨i, -, rfl⟩ := List.mem_map.mp hw
    simp [Fate.isGranted]
  rw [← grants_kept, h, grants, List.countP_append, hturn, hline, inTurn, List.length_mapIdx]
  rfl

/-- One more turn. -/
theorem inTurn_append_singleton {granted : List ι} {i : ι} :
    inTurn (granted ++ [i]) = inTurn granted ++ [⟨i, .granted granted.length⟩] := by
  simp [inTurn, List.mapIdx_append]

end Ledger

/-- The ledger after a history, continued from the ledger before it. -/
def ledger (l : Lock ι) (r : Ledger ι) : List (Nat × Event ι) → Ledger ι
  | [] => r
  | e :: events =>
    let l' := l.step e.1 e.2
    l'.ledger (r.map (.follow r.grants l') ++ Ledger.inLine (l.newcomers l' e.2)) events

/-! ## Following the waits -/

namespace Ledger

variable {r : Ledger ι} {before : Nat} {parties : List ι}

/-- A wait that was given up stays so. -/
theorem kept_follow : kept (r.map (.follow before l)) = kept ((kept r).map (.follow before l)) := by
  have hgone : ∀ w : Wait ι, (w.follow before l).fate ≠ .withdrawn → w.fate ≠ .withdrawn := by
    intro w hw hgone
    simp [Wait.follow, hgone] at hw
  simp only [kept, List.filter_map, List.filter_filter]
  refine congrArg _ (List.filter_congr fun w _ => ?_)
  by_cases hw : (w.follow before l).fate = .withdrawn
  · simp [hw]
  · simp [hw, hgone w hw]

/-- And so does one that was granted. -/
theorem follow_inTurn : (inTurn parties).map (.follow before l) = inTurn parties := by
  have hsame : ∀ w ∈ inTurn parties, w.follow before l = w := by
    intro w hw
    obtain ⟨n, hn, rfl⟩ := List.mem_mapIdx.mp hw
    rfl
  rw [List.map_congr_left hsame, List.map_id']

/-- Of those in line, the ones who still wait are kept, as long as nobody
has been granted the lock. -/
theorem kept_follow_inLine (h : ∀ i ∈ parties, ¬ l.Owns i) :
    kept ((inLine parties).map (.follow before l)) = inLine (parties.filter (l.Waits ·)) := by
  induction parties with
  | nil => rfl
  | cons i rest ih =>
    have hrest := ih fun j hj => h j (List.mem_cons_of_mem i hj)
    change kept (Wait.follow before l ⟨i, .waiting⟩ :: (inLine rest).map (.follow before l)) = _
    cases hs : l.stake? i with
    | none =>
      have hgone : ¬ l.Waits i := by simp [Waits, hs]
      rw [List.filter_cons_of_neg (by simpa using hgone), ← hrest]
      simp [kept, Wait.follow, hs, Fate.of]
    | some s =>
      have hwaits : l.Waits i := (waits_or_owns hs).resolve_right (h i List.mem_cons_self)
      rw [List.filter_cons_of_pos (by simpa using hwaits)]
      change _ = ⟨i, .waiting⟩ :: inLine (rest.filter (l.Waits ·))
      obtain ⟨limit, hlimit⟩ := hwaits
      rw [← hrest]
      simp [kept, Wait.follow, hlimit, Fate.of]

end Ledger

/-- **The invariant of the ledger.** Without the waits that were given up
it has those that were granted, each in its turn, and those in line. -/
def InTurn (l : Lock ι) (r : Ledger ι) : Prop :=
  ∃ granted, r.kept = .inTurn granted ++ .inLine l.queue

theorem filter_waits_self (h : ∀ i ∈ l.queue, l'.Waits i) :
    l.queue.filter (l'.Waits ·) = l.queue :=
  List.filter_eq_self.mpr fun i hi => decide_eq_true (h i hi)

/-- Nobody comes where nothing happens. -/
theorem newcomers_self : l.newcomers l e = [] := by
  cases e with
  | ask i timeout =>
    refine if_neg ?_
    rintro ⟨hnone, limit, hwaits⟩
    rw [hnone] at hwaits
    cases hwaits
  | look i => rfl
  | leave i => rfl

/-- Whoever is not in line leaves those in it waiting, whatever becomes of
its own stake. -/
theorem Sound.line_setStake (h : l.Sound) (hi : ¬ l.Waits i) (s : Stake) :
    ∀ j ∈ l.queue, ¬ (l.setStake i s).Owns j ∧ (l.setStake i s).Waits j := by
  intro j hj
  have hwaits : l.Waits j := (h.mem_queue j).mp hj
  have hne : j ≠ i := by
    rintro rfl
    exact hi hwaits
  rw [owns_setStake, if_neg hne, waits_setStake, if_neg hne]
  exact ⟨fun howns => howns.not_waits hwaits, hwaits⟩

/-- Whoever leaves the line leaves the others in it. -/
theorem Sound.line_withdraw (h : l.Sound) (i : ι) :
    (∀ j ∈ l.queue, ¬ (({ l with queue := l.queue.erase i } : Lock ι).dropStake i).Owns j) ∧
      l.queue.erase i =
        l.queue.filter ((({ l with queue := l.queue.erase i } : Lock ι).dropStake i).Waits ·) := by
  constructor
  · intro j hj howns
    exact (owns_dropStake.mp howns).2.not_waits ((h.mem_queue j).mp hj)
  · rw [h.nodup.erase_eq_filter]
    refine List.filter_congr fun j hj => ?_
    have hwaits := (h.mem_queue j).mp hj
    by_cases hji : j = i
    · simp [waits_dropStake, hji]
    · simp [waits_dropStake, hji, hwaits]

/-- What an event does to the line: either nobody in it is granted the
lock, and those who still wait are joined by whoever comes, or the first
one is granted the lock and nothing else happens to the line. -/
theorem Change.line (hc : Change now l e l') (h : l.Sound) :
    ((∀ i ∈ l.queue, ¬ l'.Owns i) ∧
      l'.queue = l.queue.filter (l'.Waits ·) ++ l.newcomers l' e) ∨
    ∃ k limit, l.queue = k :: l'.queue ∧ l'.stake? k = some (.granted limit) ∧
      (∀ i ∈ l'.queue, l'.Waits i) ∧ l.newcomers l' e = [] := by
  have hwait : ∀ i ∈ l.queue, l.Waits i := fun i => (h.mem_queue i).mp
  have hstays : ∀ i ∈ l.queue, ¬ l.Owns i := fun i hi howns => howns.not_waits (hwait i hi)
  cases hc with
  | unchanged =>
    refine Or.inl ⟨hstays, ?_⟩
    rw [filter_waits_self hwait, newcomers_self, List.append_nil]
  | @taken i timeout hnew hfree =>
    have hqueue := h.queue_eq_nil hfree
    refine Or.inl ⟨by simp [hqueue], ?_⟩
    simp [hqueue, newcomers, waits_setStake, Stake.owns]
  | @joined i timeout hnew hheld =>
    have hout : ¬ l.Waits i := by simp [Waits, hnew]
    have hothers := h.line_setStake hout (.waiting (timeout.map (WaitLimit.of now)))
    have hline : l.queue.filter ((({ l with queue := l.queue ++ [i] } : Lock ι).setStake i
        (.waiting (timeout.map (WaitLimit.of now)))).Waits ·) = l.queue :=
      filter_waits_self fun j hj => (hothers j hj).2
    refine Or.inl ⟨fun j hj => (hothers j hj).1, ?_⟩
    rw [hline]
    simp [newcomers, hnew, waits_setStake, Stake.owns]
  | @learned i howns =>
    have hothers := h.line_setStake howns.not_waits .holding
    refine Or.inl ⟨fun j hj => (hothers j hj).1, ?_⟩
    rw [filter_waits_self fun j hj => (hothers j hj).2]
    simp [newcomers]
  | @expired i limit hwaits hover =>
    obtain ⟨hno, hline⟩ := h.line_withdraw i
    exact Or.inl ⟨hno, hline.trans (List.append_nil _).symm⟩
  | @withdrew i hwaits =>
    obtain ⟨hno, hline⟩ := h.line_withdraw i
    exact Or.inl ⟨hno, hline.trans (List.append_nil _).symm⟩
  | @freed i howns hqueue =>
    exact Or.inl ⟨by simp [hqueue], by simp [hqueue, newcomers]⟩
  | @passed i k rest limit howns hqueue hwaits =>
    have hfirst : k ∉ rest := by
      have hnodup := h.nodup
      rw [hqueue, List.nodup_cons] at hnodup
      exact hnodup.1
    have hrest : ∀ j ∈ rest, j ≠ k ∧ j ≠ i ∧ l.Waits j := by
      intro j hj
      have hmem : j ∈ l.queue := by simp [hqueue, hj]
      refine ⟨ne_of_mem_of_not_mem hj hfirst, ?_, hwait j hmem⟩
      rintro rfl
      exact hstays j hmem howns
    refine Or.inr ⟨k, limit, hqueue, stake?_setStake_self, fun j hj => ?_, rfl⟩
    obtain ⟨hjk, hji, hwaits⟩ := hrest j hj
    rw [waits_setStake, if_neg hjk]
    exact waits_dropStake.mpr ⟨hji, hwaits⟩

/-! ## The invariant -/

/-- **A step keeps the turns.** -/
theorem InTurn.step {r : Ledger ι} (hr : l.InTurn r) (h : l.Sound) (now : Nat) (e : Event ι) :
    (l.step now e).InTurn
      (r.map (.follow r.grants (l.step now e)) ++ Ledger.inLine (l.newcomers (l.step now e) e)) := by
  obtain ⟨granted, hkept⟩ := hr
  have hgrants : r.grants = granted.length := Ledger.grants_eq hkept
  have hline := (h.change_step now e).line h
  generalize l.step now e = l' at hline ⊢
  -- the waits that go on are those in line, and all others stay as they are
  have hfollow : Ledger.kept (r.map (.follow r.grants l')) =
      .inTurn granted ++ Ledger.kept ((Ledger.inLine l.queue).map (.follow r.grants l')) := by
    rw [Ledger.kept_follow, hkept, List.map_append, Ledger.kept_append, Ledger.follow_inTurn,
      Ledger.kept_inTurn]
  rcases hline with ⟨hno, hqueue⟩ | ⟨k, limit, hqueue, hk, hwaits, hnobody⟩
  · refine ⟨granted, ?_⟩
    rw [Ledger.kept_append, hfollow, Ledger.kept_follow_inLine hno, Ledger.kept_inLine, hqueue,
      Ledger.inLine_append, List.append_assoc]
  · refine ⟨granted ++ [k], ?_⟩
    have hrest : Ledger.kept ((Ledger.inLine l'.queue).map (.follow r.grants l')) =
        Ledger.inLine l'.queue := by
      rw [Ledger.kept_follow_inLine fun i hi howns => howns.not_waits (hwaits i hi),
        filter_waits_self hwaits]
    have hfirst : Ledger.kept ((Ledger.inLine l.queue).map (.follow r.grants l')) =
        ⟨k, .granted granted.length⟩ :: Ledger.inLine l'.queue := by
      rw [← hrest, hqueue, ← hgrants]
      simp [Ledger.kept, Ledger.inLine, Wait.follow, hk, Fate.of]
    rw [Ledger.kept_append, hfollow, hfirst, hnobody, Ledger.inTurn_append_singleton]
    simp [Ledger.kept, Ledger.inLine]

/-- **And so does a history.** -/
theorem InTurn.run {r : Ledger ι} (hr : l.InTurn r) (h : l.Sound)
    (events : List (Nat × Event ι)) : (l.run events).InTurn (l.ledger r events) := by
  induction events generalizing l r with
  | nil => exact hr
  | cons e events ih => exact ih (hr.step h e.1 e.2) (h.step e.1 e.2)

/-! ## What parties do to each other -/

namespace Sound

/-- **Nobody is faster than those who wait.** A lock is taken at once
exactly if nobody has anything of it. -/
theorem enter_iff (h : l.Sound) (now : Nat) (timeout : Option Nat) (i : ι) :
    (l.enter now timeout i).2 = true ↔ ∀ j, l.stake? j = none := by
  cases hheld : l.held with
  | true =>
    obtain ⟨j, s, hs, -⟩ := h.held_iff.mp hheld
    rw [enter_of_held hheld]
    refine ⟨fun hfalse => ?_, fun hnone => ?_⟩
    · cases hfalse
    · rw [hnone j] at hs
      cases hs
  | false =>
    rw [enter_of_free hheld]
    refine ⟨fun _ j => Option.eq_none_iff_forall_ne_some.mpr fun s hs => ?_, fun _ => rfl⟩
    rcases waits_or_owns hs with hwaits | howns
    · have hmem := (h.mem_queue j).mpr hwaits
      simp [h.queue_eq_nil hheld] at hmem
    · simp [h.held_of_owns howns] at hheld

end Sound

/-- Only a party whose stake is dropped loses it. -/
theorem eq_of_dropStake (hi : l.stake? i ≠ none) (hgone : (l.dropStake j).stake? i = none) :
    i = j := by
  rw [stake?_dropStake] at hgone
  split at hgone
  · assumption
  · exact absurd hgone hi

/-- No stake is lost by giving another. -/
theorem stake?_setStake_ne_none (hi : l.stake? i ≠ none) (s : Stake) :
    (l.setStake j s).stake? i ≠ none := by
  rw [stake?_setStake]
  split
  · simp
  · exact hi

/-- **A wait is given up without anybody noticing.** The party looks after
its time is over, or goes away. The others stand as they stood, with what
they had. -/
theorem Change.withdrawal (hc : Change now l e l') (hi : l.Waits i) (hgone : l'.stake? i = none) :
    (e = .leave i ∨ e = .look i ∧ ∃ limit, l.stake? i = some (.waiting (some limit)) ∧
      limit.deadline ≤ now) ∧
    l'.held = l.held ∧ l'.queue = l.queue.erase i ∧ ∀ j, j ≠ i → l'.stake? j = l.stake? j := by
  have hstake : l.stake? i ≠ none := by
    obtain ⟨limit, hs⟩ := hi
    simp [hs]
  -- whoever owns the lock does not wait, so the stake of another is dropped
  have hother : ∀ k, l.Owns k → (l.dropStake k).stake? i ≠ none := by
    intro k howns hdropped
    obtain rfl := eq_of_dropStake hstake hdropped
    exact howns.not_waits hi
  cases hc with
  | unchanged => exact absurd hgone hstake
  | taken => exact absurd hgone (stake?_setStake_ne_none (l := { l with held := true }) hstake _)
  | @joined k =>
    exact absurd hgone (stake?_setStake_ne_none (l := { l with queue := l.queue ++ [k] }) hstake _)
  | learned => exact absurd hgone (stake?_setStake_ne_none hstake _)
  | @expired k limit hwaits hover =>
    obtain rfl := eq_of_dropStake (l := { l with queue := l.queue.erase k }) hstake hgone
    exact ⟨Or.inr ⟨rfl, limit, hwaits, hover⟩, rfl, rfl, fun j hj => stake?_dropStake_of_ne hj⟩
  | @withdrew k hwaits =>
    obtain rfl := eq_of_dropStake (l := { l with queue := l.queue.erase k }) hstake hgone
    exact ⟨Or.inl rfl, rfl, rfl, fun j hj => stake?_dropStake_of_ne hj⟩
  | @freed k howns hqueue => exact absurd hgone (hother k howns)
  | @passed k first rest limit howns hqueue hwaits =>
    exact absurd hgone
      (stake?_setStake_ne_none (l := { l.dropStake k with queue := rest }) (hother k howns) _)

/-- **The lock is handed over in the order in which its parties came.**
After every history, the waits that were not given up are those that were
granted, the first one first and so on, and then those that go on, as they
stand in line. Whoever comes has the lock at once exactly if nobody has
anything of it, and stands last in line otherwise. A party that gives up
its wait, by going away or when its time is over, changes the owner of the
lock as little as the order of the others. -/
theorem handed_over_in_turn (events : List (Nat × Event ι)) :
    let l := (free : Lock ι).run events
    (∃ granted, ((free : Lock ι).ledger [] events).kept = .inTurn granted ++ .inLine l.queue) ∧
    (∀ now timeout i,
      ((l.enter now timeout i).2 = true ↔ ∀ j, l.stake? j = none) ∧
      ((l.enter now timeout i).2 = false → (l.enter now timeout i).1.queue = l.queue ++ [i])) ∧
    ∀ now e i, l.Waits i → (l.step now e).stake? i = none →
      (e = .leave i ∨ e = .look i ∧ ∃ limit, l.stake? i = some (.waiting (some limit)) ∧
        limit.deadline ≤ now) ∧
      (l.step now e).held = l.held ∧ (∀ j, (l.step now e).Owns j ↔ l.Owns j) ∧
      (l.step now e).queue = l.queue.erase i ∧
      ∀ j, j ≠ i → (l.step now e).stake? j = l.stake? j := by
  intro l
  have h : l.Sound := Sound.free.run events
  have hstart : (free : Lock ι).InTurn [] := ⟨[], rfl⟩
  refine ⟨hstart.run Sound.free events, fun now timeout i => ⟨h.enter_iff now timeout i, ?_⟩, ?_⟩
  · intro hlast
    cases hheld : l.held with
    | true => rw [enter_of_held hheld]; rfl
    | false => simp [enter_of_free hheld] at hlast
  · intro now e i hi hgone
    obtain ⟨hevent, hheld, hqueue, hothers⟩ := (h.change_step now e).withdrawal hi hgone
    refine ⟨hevent, hheld, fun j => ?_, hqueue, hothers⟩
    by_cases hj : j = i
    · subst hj
      exact iff_of_false (by simp [Owns, hgone]) fun howns => howns.not_waits hi
    · simp only [Owns, hothers j hj]

/-- One party has the lock, and three wait for it, the first of them not for
long. -/
def threeInLine : List (Nat × Event Nat) :=
  [(0, .ask 0 none), (0, .ask 1 (some 1000000)), (0, .ask 2 none), (0, .ask 3 none)]

/-- The first one looks too late, and the others move up. -/
theorem late_look_gives_way :
    ((free : Lock Nat).run threeInLine).Waits 1 ∧
      (((free : Lock Nat).run threeInLine).step 5000000 (.look 1)).stake? 1 = none ∧
      (((free : Lock Nat).run threeInLine).step 5000000 (.look 1)).held = true ∧
      (((free : Lock Nat).run threeInLine).step 5000000 (.look 1)).queue = [2, 3] := by
  have hwaits : ((free : Lock Nat).run threeInLine).Waits 1 := by decide
  have hgone : (((free : Lock Nat).run threeInLine).step 5000000 (.look 1)).stake? 1 = none := by
    decide
  obtain ⟨-, -, hwithdrawal⟩ := handed_over_in_turn threeInLine
  obtain ⟨-, hheld, -, hqueue, -⟩ := hwithdrawal 5000000 (.look 1) 1 hwaits hgone
  exact ⟨hwaits, hgone, hheld.trans (by decide), hqueue.trans (by decide)⟩

/-- The second one is granted the lock then, and goes away without having
looked. -/
example : (free : Lock Nat).ledger [] (threeInLine ++
    [(5000000, .look 1), (5000000, .leave 0), (5000000, .leave 2)]) =
      [⟨1, .withdrawn⟩, ⟨2, .granted 0⟩, ⟨3, .granted 1⟩] := by decide

end Lock

end CapabilityBroker
