import CapabilityBroker.Proofs.Bucket.Emptied
/-!
# Reading a bucket

A read mints what is due, so a bucket that was read may differ from one that
was not. What it is asked later is answered the same if the two are refilled
to the same bucket whenever that is (`Alike`). A read that finds less than a
token due does nothing at all; one that mints and leaves the bucket below its
capacity is made up for by the next refill, if a token takes a whole number
of nanoseconds (`Sound.alike_afterMinting`). A read that finds tokens due to a bucket
that is full then sets its clock to the present, where a refill an instant
later would have set it to that instant (`Fills.alike_iff`).
-/

namespace CapabilityBroker

namespace TokenBucket

open RateLimit

variable {b d : TokenBucket Rat} {limit : RateLimit} {queries : List (Nat × Query)}
variable {start now later elapsed m : Nat}

/-! ## Buckets that answer alike -/

/-- **Two buckets are alike** from an instant on: whenever they are refilled
then, they come to the same. -/
def Alike (b d : TokenBucket Rat) (now : Nat) : Prop :=
  ∀ later, now ≤ later → b.refill later = d.refill later

/-- A query sees a bucket refilled. -/
theorem ask_congr (h : b.refill now = d.refill now) (query : Query) :
    b.ask now query = d.ask now query := by
  cases query with
  | consume => simp only [ask, consume, h]
  | available => simp only [ask, available, h]
  | timeUntilNext => simp only [ask, timeUntilNext, h]

namespace Alike

theorem refl (b : TokenBucket Rat) (now : Nat) : Alike b b now := fun _ _ => rfl

theorem trans {e : TokenBucket Rat} (h : Alike b d now) (h' : Alike d e now) : Alike b e now :=
  fun t ht => (h t ht).trans (h' t ht)

theorem mono (h : Alike b d now) (hle : now ≤ later) : Alike b d later :=
  fun t ht => h t (hle.trans ht)

/-- **Buckets that are alike answer alike.** -/
theorem answers_eq (h : Alike b d now) (horder : InOrder now queries) :
    b.answers queries = d.answers queries := by
  cases queries with
  | nil => rfl
  | cons q queries =>
    have hq : b.ask q.1 q.2 = d.ask q.1 q.2 := ask_congr (h q.1 (inOrder_cons.mp horder).1) q.2
    simp only [answers, hq]

end Alike

/-! ## Histories with further reads -/

/-- A query of a history, and whether it was put in. -/
structure Entry where
  time : Nat
  query : Query
  extra : Bool
  deriving DecidableEq, Repr

/-- Everything that is asked. -/
def everything (entries : List Entry) : List (Nat × Query) :=
  entries.map fun e => (e.time, e.query)

/-- The history in which nothing was put in. -/
def original (entries : List Entry) : List (Nat × Query) :=
  everything (entries.filter (!·.extra))

/-- Nothing but reads was put in. -/
def OnlyReads (entries : List Entry) : Prop :=
  ∀ e ∈ entries, e.extra = true → e.query ≠ .consume

instance (entries : List Entry) : Decidable (OnlyReads entries) :=
  inferInstanceAs (Decidable (∀ e ∈ entries, _))

/-- The answers to the history in which nothing was put in, when everything
is asked. -/
def keptAnswers (b : TokenBucket Rat) : List Entry → List (Nat × Answer)
  | [] => []
  | e :: entries =>
    let rest := (b.ask e.time e.query).1.keptAnswers entries
    if e.extra then rest else (e.time, (b.ask e.time e.query).2) :: rest

/-- Whatever was put in, it finds the bucket so. -/
def ReadsFind (P : TokenBucket Rat → Nat → Prop) (b : TokenBucket Rat) : List Entry → Prop
  | [] => True
  | e :: entries =>
    (e.extra = true → P b e.time) ∧ ReadsFind P (b.ask e.time e.query).1 entries

/-- A history in which nothing is put in. -/
def plain (queries : List (Nat × Query)) : List Entry :=
  queries.map fun q => ⟨q.1, q.2, false⟩

theorem readsFind_true (b : TokenBucket Rat) (entries : List Entry) :
    ReadsFind (fun _ _ => True) b entries := by
  induction entries generalizing b with
  | nil => exact True.intro
  | cons e entries ih => exact ⟨fun _ => True.intro, ih _⟩

/-- **Reads that leave a bucket like itself** change no answer. -/
theorem keptAnswers_eq {P : TokenBucket Rat → Nat → Prop}
    (hP : ∀ b now, Sound b now → b.limit = limit → P b now → Alike (b.refill now) b now)
    {entries : List Entry} (hb : Sound b now) (hlimit : b.limit = limit) (h : Alike b d now)
    (horder : InOrder now (everything entries)) (hreads : OnlyReads entries)
    (hfind : ReadsFind P b entries) : b.keptAnswers entries = d.answers (original entries) := by
  induction entries generalizing b d now with
  | nil => rfl
  | cons e entries ih =>
    obtain ⟨hle, horder'⟩ := inOrder_cons.mp horder
    obtain ⟨hfound, hfind'⟩ := hfind
    have he : Sound b e.time := hb.mono hle
    have hlimit' : (b.ask e.time e.query).1.limit = limit := (he.limit_ask e.query).trans hlimit
    have hreads' : OnlyReads entries := fun r hr => hreads r (List.mem_cons_of_mem _ hr)
    cases hextra : e.extra with
    | true =>
      -- a read was put in: the bucket is like itself, and so like the other
      have hread : (b.ask e.time e.query).1 = b.refill e.time :=
        ask_read (hreads e List.mem_cons_self hextra)
      have halike : Alike (b.ask e.time e.query).1 d e.time := by
        rw [hread]
        exact (hP b e.time he hlimit (hfound hextra)).trans (h.mono hle)
      have hrest := ih (he.ask e.query) hlimit' halike horder' hreads' hfind'
      simpa [keptAnswers, original, everything, hextra] using hrest
    | false =>
      have hsame : b.ask e.time e.query = d.ask e.time e.query := ask_congr (h e.time hle) e.query
      have hrest := ih (he.ask e.query) hlimit' (.refl _ e.time) horder' hreads' hfind'
      rw [hsame] at hrest
      simp only [original, everything] at hrest ⊢
      simp [keptAnswers, answers, hextra, hrest, hsame]

/-- One read is put in. -/
theorem keptAnswers_insert (b : TokenBucket Rat) (before after : List (Nat × Query)) (now : Nat) :
    b.keptAnswers (plain before ++ ⟨now, .available, true⟩ :: plain after)
      = b.answers before ++ ((b.run before).refill now).answers after := by
  have hplain : ∀ d : TokenBucket Rat, d.keptAnswers (plain after) = d.answers after := by
    induction after with
    | nil => exact fun _ => rfl
    | cons q after ih => exact fun d => congrArg _ (ih _)
  induction before generalizing b with
  | nil => exact hplain _
  | cons q before ih => exact congrArg _ (ih _)

theorem everything_insert (before after : List (Nat × Query)) (now : Nat) :
    everything (plain before ++ ⟨now, .available, true⟩ :: plain after)
      = before ++ (now, .available) :: after := by
  simp [everything, plain, Function.comp_def]

theorem original_insert (before after : List (Nat × Query)) (now : Nat) :
    original (plain before ++ ⟨now, .available, true⟩ :: plain after) = before ++ after := by
  simp [original, everything, plain, List.filter_map, Function.comp_def]

theorem onlyReads_insert (before after : List (Nat × Query)) (now : Nat) :
    OnlyReads (plain before ++ ⟨now, .available, true⟩ :: plain after) := by
  intro e he hextra
  simp only [plain, List.mem_append, List.mem_cons, List.mem_map] at he
  rcases he with ⟨q, -, rfl⟩ | rfl | ⟨q, -, rfl⟩
  · cases hextra
  · exact fun heq => nomatch heq
  · cases hextra

/-! ## Reads that are made up for -/

/-- A read that finds less than a token due does nothing. -/
theorem Sound.alike_of_due_lt (h : Sound b now) (hdue : b.due now < 1) :
    Alike (b.refill now) b now := by
  rw [h.refilled.eq_of_due_lt hdue]
  exact .refl b now

/-- If a token takes a whole number of nanoseconds, it does not matter
whether tokens are minted together or one after the other. -/
theorem mintingTime_add (hcapacity : 1 ≤ limit.capacity) (hwindow : 0 < limit.window)
    (hdvd : limit.capacity ∣ limit.window) (m n : Nat) :
    mintingTime limit ((m + n : Nat) : Rat)
      = mintingTime limit (m : Rat) + mintingTime limit (n : Rat) := by
  have hboth := mintingTime_mul_rate (m := m + n) hcapacity hwindow hdvd
  have hfirst := mintingTime_mul_rate (m := m) hcapacity hwindow hdvd
  have hsecond := mintingTime_mul_rate (m := n) hcapacity hwindow hdvd
  have hrate : limit.rate ≠ 0 := (rate_pos hcapacity hwindow).ne'
  have hsum : (mintingTime limit ((m + n : Nat) : Rat) : Rat) * limit.rate
      = (mintingTime limit (m : Rat) + mintingTime limit (n : Rat)) * limit.rate := by
    rw [hboth, add_mul, hfirst, hsecond, Nat.cast_add]
  exact_mod_cast mul_right_cancel₀ hrate hsum

/-- A bucket that minted what was due, but not up to its capacity. -/
def afterMinting (b : TokenBucket Rat) (m : Nat) : TokenBucket Rat :=
  { b with tokens := b.tokens + m, clock := b.clock + mintingTime b.limit (m : Rat) }

theorem Sound.due_afterMinting (h : Sound b now) (hdvd : b.limit.capacity ∣ b.limit.window)
    (m later : Nat) : (b.afterMinting m).due later = b.due later - m := by
  have hmoved := mintingTime_mul_rate (m := m) h.capacity_pos h.window_pos hdvd
  simp only [due, afterMinting, Nat.cast_add]
  linarith

/-- **What was minted early is not minted again**: a later refill of the
bucket comes to the same as if nothing had been minted before. -/
theorem Sound.alike_afterMinting (h : Sound b now) (hdvd : b.limit.capacity ∣ b.limit.window)
    (hone : 1 ≤ m) (hdue : m ≤ b.due now) (hless : b.due now < m + 1)
    (hfew : b.tokens + m < b.limit.capacity) : Alike (b.afterMinting m) b now := by
  intro later hlater
  have hafter : Sound (b.afterMinting m) later :=
    ((Refilled.minting m hone hdue hless hfew).sound h).mono hlater
  have hrest : (b.afterMinting m).due later = b.due later - m := h.due_afterMinting hdvd m later
  have hmore : m ≤ b.due later := hdue.trans (due_mono hlater)
  have htwice := hafter.refilled
  have honce := (h.mono hlater).refilled
  generalize (b.afterMinting m).refill later = x at htwice ⊢
  generalize b.refill later = y at honce ⊢
  cases honce with
  | idle hidle =>
    have hone' : (1 : Rat) ≤ m := Nat.one_le_cast.mpr hone
    linarith
  | filled n hone' hn hfull =>
    -- more are due than were minted, and they fill the bucket as well
    have hlt : m < n := by exact_mod_cast lt_of_add_lt_add_left (hfew.trans_le hfull)
    have hcast : ((n - m : Nat) : Rat) = n - m := Nat.cast_sub hlt.le
    refine htwice.eq_filled (le_refl later) (m := n - m) (by omega) ?_ ?_
    · rw [hrest, hcast]
      linarith
    · simp only [afterMinting]
      rw [hcast]
      linarith
  | minting n hone' hn hbound hfew' =>
    cases htwice with
    | idle hidle =>
      have hle : n < m + 1 := by exact_mod_cast (show (n : Rat) < m + 1 by linarith)
      have hge : m < n + 1 := by exact_mod_cast (show (m : Rat) < n + 1 by linarith)
      obtain rfl : m = n := by omega
      rfl
    | filled k _ hk hfull =>
      have hle : m + k < n + 1 := by exact_mod_cast (show (m : Rat) + k < n + 1 by linarith)
      have hcast : (m : Rat) + k ≤ n := by exact_mod_cast Nat.le_of_lt_succ hle
      simp only [afterMinting] at hfull
      linarith
    | minting k _ hk hbound' _ =>
      have hle : m + k < n + 1 := by exact_mod_cast (show (m : Rat) + k < n + 1 by linarith)
      have hge : n < m + k + 1 := by exact_mod_cast (show (n : Rat) < m + k + 1 by linarith)
      obtain rfl : n = m + k := by omega
      have htime := mintingTime_add h.capacity_pos h.window_pos hdvd m k
      rw [htime]
      simp only [afterMinting, Nat.cast_add, add_assoc]

/-! ## Reads that fill the bucket -/

/-- **A read fills a bucket**, or finds it full and tokens due. -/
def Fills (b : TokenBucket Rat) (now : Nat) : Prop :=
  1 ≤ b.due now ∧ (b.refill now).tokens = b.limit.capacity

theorem Sound.fills_of_capacity_le (h : Sound b now) (hdue : b.limit.capacity ≤ b.due now) :
    Fills b now := by
  have hone : (1 : Rat) ≤ b.limit.capacity := Nat.one_le_cast.mpr h.capacity_pos
  have hrefilled := h.refilled
  refine ⟨hone.trans hdue, ?_⟩
  generalize b.refill now = d at hrefilled ⊢
  cases hrefilled with
  | idle hless => linarith
  | filled m _ _ _ => rfl
  | minting m _ _ hless hfew =>
    have hmissing := h.add_one_le hfew
    have hnonneg := h.tokens_nonneg
    linarith

namespace Fills

theorem filled (h : Fills b now) (hb : Sound b now) :
    ∃ m : Nat, 1 ≤ m ∧ m ≤ b.due now ∧ b.limit.capacity ≤ b.tokens + m := by
  obtain ⟨hdue, hfull⟩ := h
  have hrefilled := hb.refilled
  generalize b.refill now = d at hrefilled hfull
  cases hrefilled with
  | idle hless => exact absurd hdue (not_le.mpr hless)
  | filled m hone hm hcapacity => exact ⟨m, hone, hm, hcapacity⟩
  | minting m _ _ _ hfew => exact absurd hfull hfew.ne

/-- From then on every refill fills it. -/
theorem refill_eq (h : Fills b now) (hb : Sound b now) (hle : now ≤ later) :
    b.refill later = { b with tokens := b.limit.capacity, clock := later } := by
  obtain ⟨m, hone, hm, hcapacity⟩ := h.filled hb
  exact (hb.mono hle).refilled.eq_filled hle hone hm hcapacity

end Fills

/-- A full bucket whose clock is right. -/
def fullAt (b : TokenBucket Rat) (now : Nat) : TokenBucket Rat :=
  { b with tokens := b.limit.capacity, clock := now }

theorem Sound.fullAt (h : Sound b now) (later : Nat) : Sound (b.fullAt later) later :=
  ⟨h.capacity_pos, h.window_pos, ⟨b.limit.capacity, rfl⟩, le_refl _, le_refl _⟩

theorem due_fullAt (b : TokenBucket Rat) (now later : Nat) :
    (b.fullAt now).due later = (later - now) * b.limit.rate := rfl

/-- If a token and more falls due in every nanosecond, a full bucket is
filled at every instant. -/
theorem Fills.alike (h : Fills b now) (hb : Sound b now)
    (hfast : b.limit.window ≤ b.limit.capacity) : Alike (b.refill now) b now := by
  intro later hlater
  rw [h.refill_eq hb hlater, h.refill_eq hb (le_refl now)]
  have hfull : Sound (b.fullAt now) later := (hb.fullAt now).mono hlater
  have hrefilled := hfull.refilled
  rcases hlater.eq_or_lt with rfl | hlt
  · refine hrefilled.eq_of_due_lt ?_
    rw [due_fullAt, sub_self, zero_mul]
    exact zero_lt_one
  · refine hrefilled.eq_filled (le_refl later) (le_refl 1) ?_ ?_
    · have hwindow : (0 : Rat) < b.limit.window := Nat.cast_pos.mpr hb.window_pos
      have hrate : 1 ≤ b.limit.rate := (one_le_div hwindow).mpr (Nat.cast_le.mpr hfast)
      have hspan : (1 : Rat) ≤ later - now := by
        have hnext : ((now + 1 : Nat) : Rat) ≤ later := Nat.cast_le.mpr hlt
        rw [Nat.cast_succ] at hnext
        linarith
      rw [due_fullAt, Nat.cast_one]
      exact one_le_mul_of_one_le_of_one_le hspan hrate
    · simp [fullAt]

/-- What a bucket is asked to tell where its clock was set: all of its
tokens at one instant, and another one as soon as the earlier clock accounts
for it. -/
def probe (limit : RateLimit) (now : Nat) : List (Nat × Query) :=
  (now + 1, .available) :: drain limit (now + 1)

/-- A bucket that the first read fills is emptied. -/
theorem Sound.run_probe {clock : Nat} (h : Sound b (now + 1))
    (hrefill : b.refill (now + 1) = b.fullAt clock) (hclock : clock ≤ now + 1)
    (hdue : (b.fullAt clock).due (now + 1) < 1) :
    b.run (probe b.limit now) = drained b.limit clock := by
  have hfull : Sound (b.fullAt clock) (now + 1) := (h.fullAt clock).mono hclock
  have hread : b.run (probe b.limit now) = (b.fullAt clock).run (drain b.limit (now + 1)) :=
    congrArg (fun d : TokenBucket Rat => d.run (drain b.limit (now + 1))) hrefill
  rw [hread]
  exact (hfull.spend hdue (le_refl _) rfl).1

/-- Histories with one more request at the end are told apart by it. -/
theorem passes_eq_of_answers_eq
    (h : b.answers (queries ++ [(later, .consume)]) = d.answers (queries ++ [(later, .consume)])) :
    ((b.run queries).consume later).2 = ((d.run queries).consume later).2 := by
  rw [answers_append, answers_append] at h
  have hlast := (List.append_inj' h rfl).2
  exact Answer.consumed.inj (Prod.mk.inj (List.cons.inj hlast).1).2

/-- **A read that fills a bucket tells**, unless in every nanosecond a token
falls due: it sets the clock to the present, where a refill in a nanosecond
would set it to that. -/
theorem Fills.alike_iff (h : Fills b now) (hb : Sound b now) :
    (∀ later, InOrder now later → (b.refill now).answers later = b.answers later) ↔
      b.limit.window ≤ b.limit.capacity := by
  refine ⟨fun hsame => not_lt.mp fun hslow => ?_, fun hfast later horder =>
    (h.alike hb hfast).answers_eq horder⟩
  have hread : b.refill now = b.fullAt now := h.refill_eq hb (le_refl now)
  have hnext : b.refill (now + 1) = b.fullAt (now + 1) := h.refill_eq hb (Nat.le_succ now)
  have hwindow : (0 : Rat) < b.limit.window := Nat.cast_pos.mpr hb.window_pos
  have hrate : b.limit.rate < 1 := (div_lt_one hwindow).mpr (Nat.cast_lt.mpr hslow)
  -- with the read the clock stays where it was set
  have hfull : Sound (b.fullAt now) (now + 1) := (hb.fullAt now).mono (Nat.le_succ now)
  have hdue : (b.fullAt now).due (now + 1) < 1 := by
    rw [due_fullAt, Nat.cast_succ, add_sub_cancel_left, one_mul]
    exact hrate
  have hidle : (b.fullAt now).refill (now + 1) = (b.fullAt now).fullAt now :=
    hfull.refilled.eq_of_due_lt hdue
  have hwith : (b.refill now).run (probe b.limit now) = drained b.limit now := by
    rw [hread]
    exact hfull.run_probe hidle (Nat.le_succ now) hdue
  -- and without the read it is set later
  have hwithout : b.run (probe b.limit now) = drained b.limit (now + 1) := by
    refine (hb.mono (Nat.le_succ now)).run_probe hnext (le_refl _) ?_
    rw [due_fullAt, sub_self, zero_mul]
    exact zero_lt_one
  have hlast : now + 1 ≤ now + wholeInterval b.limit :=
    Nat.add_le_add_left (one_le_wholeInterval b.limit) now
  have horder : InOrder now (probe b.limit now ++ [(now + wholeInterval b.limit, .consume)]) := by
    refine inOrder_cons.mpr ⟨Nat.le_succ now, ?_⟩
    exact inOrder_replicate _ (inOrder_cons.mpr ⟨hlast, .nil _⟩)
  have hpass := passes_eq_of_answers_eq (hsame _ horder)
  rw [hwith, hwithout] at hpass
  have hpasses : ((drained b.limit now).consume (now + wholeInterval b.limit)).2 = true :=
    (passes_drained_iff hb.capacity_pos hb.window_pos (Nat.le_add_right _ _)).mpr (le_refl _)
  rw [hpasses] at hpass
  have hearly := (passes_drained_iff hb.capacity_pos hb.window_pos hlast).mp hpass.symm
  omega

/-! ## Whole tokens in every nanosecond -/

/-- If whole tokens fall due in every nanosecond, a refill leaves nothing
behind. -/
theorem Sound.refill_of_dvd (h : Sound b now) {q n : Nat}
    (hq : b.limit.capacity = b.limit.window * q) (hn : b.tokens = n) :
    b.refill now = ⟨b.limit, (min (n + (now - b.clock) * q) b.limit.capacity : Nat), now⟩ := by
  have hwindow : (b.limit.window : Rat) ≠ 0 := Nat.cast_ne_zero.mpr h.window_pos.ne'
  have hrate : b.limit.rate = q := by
    rw [rate, hq, Nat.cast_mul, mul_div_cancel_left₀ _ hwindow]
  have hq_pos : 1 ≤ q := Nat.pos_of_mul_pos_left (hq ▸ h.capacity_pos)
  have hdue : b.due now = ((now - b.clock) * q : Nat) := by
    rw [h.due_eq, hrate, Nat.cast_mul]
  have hclock := h.clock_le
  have hrefilled := h.refilled
  generalize b.refill now = d at hrefilled ⊢
  cases hrefilled with
  | idle hless =>
    rw [hdue] at hless
    have hnone : (now - b.clock) * q = 0 := Nat.lt_one_iff.mp (mod_cast hless)
    have hnow : now = b.clock := by
      rcases Nat.mul_eq_zero.mp hnone with hspan | hzero <;> omega
    have hle : n ≤ b.limit.capacity := Nat.cast_le.mp (hn ▸ h.tokens_le)
    rw [hnone, Nat.add_zero, Nat.min_eq_left hle, ← hn, hnow]
  | filled m hone hm hfull =>
    rw [hdue] at hm
    rw [hn] at hfull
    have hmore : m ≤ (now - b.clock) * q := Nat.cast_le.mp hm
    have hcapacity : b.limit.capacity ≤ n + m := by exact_mod_cast hfull
    rw [Nat.min_eq_right (by omega)]
  | minting m hone hm hless hfew =>
    have hspan : mintingTime b.limit (m : Rat) ≤ now - b.clock :=
      mintingTime_le h.capacity_pos h.window_pos (h.due_eq ▸ hm)
    rw [hdue] at hm hless
    rw [hn] at hfew
    have hall : m = (now - b.clock) * q := by
      have hle : m ≤ (now - b.clock) * q := Nat.cast_le.mp hm
      have hlt : (now - b.clock) * q < m + 1 := by exact_mod_cast hless
      omega
    -- their time is all the time that has passed, for it is rounded to the nearest
    have htime : mintingTime b.limit (m : Rat) = now - b.clock := by
      have hlower := (mintingTime_bounds (m := m) h.capacity_pos h.window_pos).1
      generalize mintingTime b.limit (m : Rat) = moved at hspan hlower ⊢
      rw [hrate, hall, Nat.cast_mul] at hlower
      have hscaled : (2 * (now - b.clock : Nat) : Rat) * q ≤ (2 * moved + 1) * q := by linarith
      have hle : 2 * (now - b.clock) ≤ 2 * moved + 1 := by
        exact_mod_cast le_of_mul_le_mul_right hscaled (Nat.cast_pos.mpr hq_pos)
      omega
    have hfew' : n + m < b.limit.capacity := by exact_mod_cast hfew
    rw [← hall, Nat.min_eq_left hfew'.le, htime, hn, Nat.cast_add, Nat.add_sub_cancel' hclock]

theorem Sound.alike_of_dvd (h : Sound b now) (hdvd : b.limit.window ∣ b.limit.capacity) :
    Alike (b.refill now) b now := by
  obtain ⟨q, hq⟩ := hdvd
  obtain ⟨n, hn⟩ := h.tokens_whole
  intro later hlater
  have hclock := h.clock_le
  have honce := (h.mono hlater).refill_of_dvd hq hn
  have hfirst := h.refill_of_dvd hq hn
  have hsound := h.refill.mono hlater
  rw [hfirst] at hsound ⊢
  rw [honce, hsound.refill_of_dvd hq rfl]
  have hspan : (later - b.clock) * q = (now - b.clock) * q + (later - now) * q := by
    rw [← Nat.add_mul]
    congr 1
    omega
  simp only [hspan]
  congr 2
  omega

/-- No bucket but one of a nanosecond's window is filled in a nanosecond, -/
theorem rate_lt_capacity (hcapacity : 1 ≤ limit.capacity) (hwindow : 0 < limit.window)
    (hdvd : ¬ limit.window ∣ limit.capacity) : limit.rate < limit.capacity := by
  have hlong : 1 < limit.window := by
    have hunit : limit.window ≠ 1 := fun hone => hdvd (hone ▸ one_dvd _)
    omega
  exact div_lt_self (Nat.cast_pos.mpr hcapacity) (Nat.one_lt_cast.mpr hlong)

/-- and none gets whole tokens in a nanosecond if the window does not divide
the capacity. -/
theorem rate_ne_cast (hwindow : 0 < limit.window) (hdvd : ¬ limit.window ∣ limit.capacity)
    (m : Nat) : (m : Rat) ≠ limit.rate := by
  intro hexact
  have hwindow' : (limit.window : Rat) ≠ 0 := Nat.cast_ne_zero.mpr hwindow.ne'
  rw [rate, eq_div_iff hwindow'] at hexact
  exact hdvd ⟨m, by rw [mul_comm]; exact_mod_cast hexact.symm⟩

/-- If tokens fall due faster than one in a nanosecond, but not in whole
numbers, an emptied bucket that is read after a nanosecond is not full again
when the window is over. -/
theorem drained_read_tells (hcapacity : 1 ≤ limit.capacity) (hwindow : 0 < limit.window)
    (hfast : limit.window < limit.capacity) (hdvd : ¬ limit.window ∣ limit.capacity) (start : Nat) :
    (((drained limit start).refill (start + 1)).refill (start + limit.window)).tokens
      < limit.capacity := by
  have hsound : Sound (drained limit start) (start + 1) :=
    (sound_drained hcapacity hwindow start).mono (Nat.le_succ start)
  have hwindow' : (0 : Rat) < limit.window := Nat.cast_pos.mpr hwindow
  have hrate : limit.rate * limit.window = limit.capacity := div_mul_cancel₀ _ hwindow'.ne'
  have hdue : (drained limit start).due (start + 1) = limit.rate := by
    rw [due_drained, Nat.cast_succ, add_sub_cancel_left, one_mul]
  have hlater : Sound ((drained limit start).refill (start + 1)) (start + limit.window) :=
    hsound.refill.mono (by omega)
  have honce := hsound.refilled
  generalize (drained limit start).refill (start + 1) = d at honce hlater ⊢
  have htwice := hlater.refilled
  generalize d.refill (start + limit.window) = e at htwice ⊢
  cases honce with
  | idle hless =>
    have hmore : 1 < limit.rate := (one_lt_div hwindow').mpr (Nat.cast_lt.mpr hfast)
    linarith
  | filled m hone hm hfull =>
    have hless : (limit.capacity : Rat) ≤ limit.rate := by
      rw [hdue] at hm
      exact (hfull.trans_eq (zero_add _)).trans hm
    exact absurd hless (not_le.mpr (rate_lt_capacity hcapacity hwindow hdvd))
  | minting m hone hm hless hfew =>
    have hmoved : mintingTime limit (m : Rat) = 1 := by
      rw [hdue, ← one_mul limit.rate, ← Nat.cast_one] at hm hless
      have hle := mintingTime_le hcapacity hwindow hm
      have hge := one_le_mintingTime hcapacity hwindow hone hm hless
      omega
    cases htwice with
    | idle _ => exact hfew
    | filled k _ hk hfull =>
      -- what the first refill leaves behind is missing
      have hrest : (k : Rat) ≤ limit.capacity - limit.rate := by
        simp only [due, drained, hmoved] at hk
        push_cast at hk
        rw [← hrate]
        linarith
      have hexact : (m : Rat) = limit.rate := by
        simp only [drained] at hfull
        rw [hdue] at hm
        linarith
      exact absurd hexact (rate_ne_cast hwindow hdvd m)
    | minting k _ _ _ hfew' => exact hfew'

/-! ## All histories -/

/-- If no reads change anything, no single read does. -/
theorem answers_of_insert {start : Nat} {before : List (Nat × Query)}
    (hall : ∀ entries, InOrder start (everything entries) → OnlyReads entries →
      b.keptAnswers entries = b.answers (original entries))
    (horder : InOrder start (before ++ (now, .available) :: queries)) :
    ((b.run before).refill now).answers queries = (b.run before).answers queries := by
  have hsame := hall (plain before ++ ⟨now, .available, true⟩ :: plain queries)
    (by rwa [everything_insert]) (onlyReads_insert before queries now)
  rw [keptAnswers_insert, original_insert, answers_append] at hsame
  exact List.append_cancel_left hsame

/-- A read is made up for: less than a token is due, or a token takes a whole
number of nanoseconds and the bucket is not filled. -/
def MadeUpFor (limit : RateLimit) (b : TokenBucket Rat) (now : Nat) : Prop :=
  b.due now < 1 ∨ limit.capacity ∣ limit.window ∧ ¬ b.Fills now

theorem Sound.alike_of_madeUpFor (h : Sound b now) (hmade : MadeUpFor b.limit b now) :
    Alike (b.refill now) b now := by
  rcases hmade with hdue | ⟨hdvd, hfills⟩
  · exact h.alike_of_due_lt hdue
  have hrefilled := h.refilled
  generalize hd : b.refill now = d at hrefilled ⊢
  cases hrefilled with
  | idle _ => exact .refl b now
  | filled m hone hm _ =>
    have hdue : 1 ≤ b.due now := (Nat.one_le_cast.mpr hone).trans hm
    exact absurd ⟨hdue, congrArg TokenBucket.tokens hd⟩ hfills
  | minting m hone hm hless hfew => exact h.alike_afterMinting hdvd hone hm hless hfew

/-- When a window is over, a bucket that was started then is filled, however
many of its tokens were spent at once. -/
theorem Sound.fills_of_window (h : Sound b now) (hclock : b.clock = now) :
    Fills b (now + b.limit.window) := by
  have hwindow : (b.limit.window : Rat) ≠ 0 := Nat.cast_ne_zero.mpr h.window_pos.ne'
  refine (h.mono (Nat.le_add_right _ _)).fills_of_capacity_le ?_
  rw [due, hclock, Nat.cast_add, add_sub_cancel_left, rate, mul_div_cancel₀ _ hwindow]

/-- A read tells how many tokens there are. -/
theorem answer_available {n : Nat} (hn : (b.refill now).tokens = n) :
    (b.ask now .available).2 = .available n := by
  have hwhole : Scalar.wholePart (n : Rat) = n := rfl
  simp only [ask, available, hn, hwhole]

/-- **When reading a bucket is harmless.** Whatever is read whenever, the
answers stay the same just if whole tokens fall due in every nanosecond. For
any limit they stay the same if the reads are made up for, and a read that
fills the bucket tells unless in every nanosecond a token falls due. -/
theorem reads_harmless_iff (limit : RateLimit) (hcapacity : 1 ≤ limit.capacity)
    (hwindow : 0 < limit.window) :
    ((∀ start entries, InOrder start (everything entries) → OnlyReads entries →
      (full limit start : TokenBucket Rat).keptAnswers entries
        = (full limit start : TokenBucket Rat).answers (original entries)) ↔
      limit.window ∣ limit.capacity) ∧
    (∀ start entries, InOrder start (everything entries) → OnlyReads entries →
      ReadsFind (MadeUpFor limit) (full limit start) entries →
      (full limit start : TokenBucket Rat).keptAnswers entries
        = (full limit start : TokenBucket Rat).answers (original entries)) ∧
    (∀ start queries now, InOrder start queries → (∀ q ∈ queries, q.1 ≤ now) → start ≤ now →
      Fills ((full limit start).run queries) now →
      ((∀ later, InOrder now later →
        (((full limit start : TokenBucket Rat).run queries).refill now).answers later
          = ((full limit start : TokenBucket Rat).run queries).answers later) ↔
        limit.window ≤ limit.capacity)) := by
  have hfull : ∀ start, Sound (full limit start) start := sound_full hcapacity hwindow
  refine ⟨⟨fun hall => ?_, fun hdvd start entries horder hreads => ?_⟩,
    fun start entries horder hreads hfind => ?_,
    fun start queries now horder hpast hstart hfills => ?_⟩
  · by_contra hdvd
    rcases lt_trichotomy limit.capacity limit.window with hslow | heq | hfast
    · -- the bucket is full, and a read sets its clock
      have hfills : Fills (full limit 0) (0 + limit.window) := (hfull 0).fills_of_window rfl
      have hsame := (hfills.alike_iff ((hfull 0).mono (Nat.zero_le _))).not.mpr (not_le.mpr hslow)
      refine hsame fun later horder => ?_
      have horder' : InOrder 0 ([] ++ (0 + limit.window, .available) :: later) :=
        inOrder_cons.mpr ⟨Nat.zero_le _, horder⟩
      exact answers_of_insert (hall 0) horder'
    · exact hdvd (heq ▸ dvd_refl _)
    · -- the bucket is emptied, and a read rounds
      have hempty : Sound (drained limit 0) 0 := sound_drained hcapacity hwindow 0
      have hread := drained_read_tells hcapacity hwindow hfast hdvd 0
      obtain ⟨n, hn⟩ := ((hempty.mono (Nat.zero_le (0 + 1))).refill.mono
        (by omega : 0 + 1 ≤ 0 + limit.window)).refill.tokens_whole
      have hunread : ((drained limit 0).refill (0 + limit.window)).tokens = limit.capacity :=
        (hempty.fills_of_window rfl).2
      have horder : InOrder 0 (drain limit 0 ++
          (0 + 1, .available) :: [(0 + limit.window, .available)]) :=
        inOrder_replicate _ (inOrder_cons.mpr ⟨Nat.zero_le _,
          inOrder_cons.mpr ⟨by simp only; omega, .nil _⟩⟩)
      have hsame := answers_of_insert (hall 0) horder
      rw [run_drain hcapacity hwindow] at hsame
      have hanswer := (Prod.mk.inj (List.cons.inj hsame).1).2
      simp only [answer_available hn, answer_available hunread] at hanswer
      rw [hn, Answer.available.inj hanswer] at hread
      exact lt_irrefl _ hread
  · refine keptAnswers_eq (P := fun _ _ => True) (fun b now hb hlimit _ => ?_) (hfull start) rfl
      (.refl _ start) horder hreads (readsFind_true _ entries)
    exact hb.alike_of_dvd (hlimit ▸ hdvd)
  · refine keptAnswers_eq (fun b now hb hlimit hmade => ?_) (hfull start) rfl (.refl _ start) horder
      hreads hfind
    exact hb.alike_of_madeUpFor (hlimit ▸ hmade)
  · obtain ⟨hsound, hlimit⟩ := (hfull start).run horder hpast hstart
    have hiff := hfills.alike_iff hsound
    rwa [hlimit] at hiff

/-- The bucket of `slowLimit` is emptied, and read half a window later. -/
def earlyRead : List Entry :=
  [⟨0, .consume, false⟩, ⟨5000000000, .available, true⟩, ⟨10000000000, .consume, false⟩]

/-- It is read when a window is over, and asked half a window and a window
later. -/
def fillingRead : List Entry :=
  [⟨10000000000, .available, true⟩, ⟨15000000000, .consume, false⟩,
    ⟨20000000000, .consume, false⟩]

theorem early_read_harmless_filling_read_not :
    1 ≤ slowLimit.capacity ∧ 0 < slowLimit.window ∧ InOrder 0 (everything earlyRead) ∧
    OnlyReads earlyRead ∧
    (full slowLimit 0 : TokenBucket Rat).keptAnswers earlyRead
      = (full slowLimit 0 : TokenBucket Rat).answers (original earlyRead) ∧
    ¬ ∀ later, InOrder 10000000000 later →
      (((full slowLimit 0 : TokenBucket Rat).run []).refill 10000000000).answers later
        = ((full slowLimit 0 : TokenBucket Rat).run []).answers later :=
  ⟨by decide, by decide, by decide, by decide,
    (reads_harmless_iff slowLimit (by decide) (by decide)).2.1 0 earlyRead (by decide) (by decide)
      ⟨nofun, fun _ => .inl (by decide +kernel), nofun, trivial⟩,
    ((reads_harmless_iff slowLimit (by decide) (by decide)).2.2 0 [] 10000000000 (by decide)
      (by simp) (by decide) ⟨by decide +kernel, by decide +kernel⟩).not.mpr (by decide)⟩

/-- **Reads do change what passes**: of the two requests to a bucket of one
token in ten seconds the second one is refused, and passes if the full bucket
is read before. -/
theorem read_lets_a_request_through :
    ¬ ∀ (limit : RateLimit) (start : Nat) (entries : List Entry), 1 ≤ limit.capacity →
      0 < limit.window → InOrder start (everything entries) → OnlyReads entries →
      (full limit start : TokenBucket Rat).keptAnswers entries
        = (full limit start : TokenBucket Rat).answers (original entries) := by
  intro hall
  have hsame := hall slowLimit 0 fillingRead (by decide) (by decide) (by decide) (by decide)
  revert hsame
  decide +kernel

end TokenBucket

end CapabilityBroker
