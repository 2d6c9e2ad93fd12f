import CapabilityBroker.Proofs.Bucket.Levels
/-!
# Buckets without a token

In exact arithmetic a token is due from the first nanosecond on that accounts
for it (`wholeInterval`). A request that comes to a bucket without a token
passes from then on, counted from the clock, and not before
(`Sound.passes_later_iff`). So it is with a bucket all of whose tokens are
spent at once (`passes_drained_iff`).
-/

namespace CapabilityBroker

namespace TokenBucket

open RateLimit

variable {b : TokenBucket Rat} {limit : RateLimit} {queries : List (Nat × Query)}
variable {now later elapsed : Nat}

/-! ## When a token is due -/

/-- The time of a token in whole nanoseconds, rounded up. -/
def wholeInterval (limit : RateLimit) : Nat := (limit.window - 1) / limit.capacity + 1

theorem one_le_wholeInterval (limit : RateLimit) : 1 ≤ wholeInterval limit :=
  Nat.succ_le_succ (Nat.zero_le _)

section Interval

variable (hcapacity : 1 ≤ limit.capacity) (hwindow : 0 < limit.window)
include hcapacity hwindow

/-- A token is due from then on. -/
theorem one_le_mul_rate_iff : 1 ≤ (elapsed : Rat) * limit.rate ↔ wholeInterval limit ≤ elapsed := by
  have hwindow' : (0 : Rat) < limit.window := Nat.cast_pos.mpr hwindow
  have hscaled : 1 ≤ (elapsed : Rat) * limit.rate ↔ limit.window ≤ elapsed * limit.capacity := by
    rw [rate, ← mul_div_assoc, one_le_div hwindow']
    exact_mod_cast Iff.rfl
  have hwhole : wholeInterval limit ≤ elapsed ↔ limit.window - 1 < elapsed * limit.capacity := by
    rw [wholeInterval, Nat.succ_le_iff, Nat.div_lt_iff_lt_mul hcapacity]
  rw [hscaled, hwhole]
  omega

end Interval

/-! ## Buckets without a token -/

/-- **A request passes if there is a token** when the bucket is refilled. -/
theorem passes_iff : (b.consume now).2 = true ↔ 1 ≤ (b.refill now).tokens := by
  rw [consume_snd]
  exact decide_eq_true_iff

namespace Sound

/-- A bucket that has no token when it is refilled was not changed by that. -/
theorem of_no_token (h : Sound b now) (hnone : (b.refill now).tokens < 1) :
    b.refill now = b ∧ b.due now < 1 ∧ b.tokens = 0 := by
  have hdue : b.due now < 1 := not_le.mp fun hdue =>
    not_le.mpr hnone (h.refilled.one_le_tokens h hdue)
  have hidle : b.refill now = b := h.refilled.eq_of_due_lt hdue
  obtain ⟨n, hn⟩ := h.tokens_whole
  rw [hidle, hn] at hnone
  have hzero : n = 0 := Nat.lt_one_iff.mp (mod_cast hnone)
  exact ⟨hidle, hdue, by rw [hn, hzero, Nat.cast_zero]⟩

theorem one_le_due_iff (h : Sound b now) :
    1 ≤ b.due now ↔ b.clock + wholeInterval b.limit ≤ now := by
  have hclock := h.clock_le
  rw [h.due_eq, one_le_mul_rate_iff h.capacity_pos h.window_pos]
  omega

/-- **When the next request passes** that comes to a bucket without a token. -/
theorem passes_later_iff (h : Sound b now) (hnone : (b.refill now).tokens < 1)
    (hle : now ≤ later) :
    (b.consume later).2 = true ↔ b.clock + wholeInterval b.limit ≤ later := by
  have hlater : Sound b later := h.mono hle
  rw [passes_iff, ← hlater.one_le_due_iff]
  constructor
  · intro htoken
    by_contra hdue
    have hidle : b.refill later = b := hlater.refilled.eq_of_due_lt (not_le.mp hdue)
    rw [hidle, (h.of_no_token hnone).2.2] at htoken
    exact absurd htoken (by norm_num)
  · exact hlater.refilled.one_le_tokens hlater

end Sound

/-! ## A bucket that is emptied at once -/

/-- A bucket all of whose tokens are spent as soon as it is there. -/
def drained (limit : RateLimit) (start : Nat) : TokenBucket Rat := ⟨limit, 0, start⟩

/-- All tokens are asked for at once. -/
def drain (limit : RateLimit) (start : Nat) : List (Nat × Query) :=
  List.replicate limit.capacity (start, .consume)

theorem due_drained (start later : Nat) :
    (drained limit start).due later = (later - start) * limit.rate := rfl

section Drained

variable (hcapacity : 1 ≤ limit.capacity) (hwindow : 0 < limit.window)
include hcapacity hwindow

theorem sound_drained (start : Nat) : Sound (drained limit start) start :=
  ⟨hcapacity, hwindow, ⟨0, Nat.cast_zero.symm⟩, Nat.cast_nonneg _, le_refl _⟩

theorem run_drain (start : Nat) :
    (full limit start).run (drain limit start) = drained limit start := by
  have hdue : (full limit start : TokenBucket Rat).due start < 1 := by
    rw [due]
    simp [full]
  exact ((sound_full hcapacity hwindow start).spend hdue (le_refl start) rfl).1

theorem refill_drained (start : Nat) :
    (drained limit start).refill start = drained limit start := by
  refine (sound_drained hcapacity hwindow start).refilled.eq_of_due_lt ?_
  rw [due_drained, sub_self, zero_mul]
  exact zero_lt_one

/-- The next request passes when the time of a token is over. -/
theorem passes_drained_iff {start : Nat} (hle : start ≤ later) :
    ((drained limit start).consume later).2 = true ↔ start + wholeInterval limit ≤ later := by
  refine (sound_drained hcapacity hwindow start).passes_later_iff ?_ hle
  rw [refill_drained hcapacity hwindow]
  exact zero_lt_one

end Drained

end TokenBucket

end CapabilityBroker
