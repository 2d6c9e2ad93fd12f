import CapabilityBroker.TokenBucket.History
import Mathlib.Algebra.Order.Floor.Semiring
import Mathlib.Data.Rat.Floor
import Mathlib.Tactic.FieldSimp
import Mathlib.Tactic.Linarith
import Mathlib.Tactic.Positivity
import Mathlib.Tactic.Ring
/-!
# What a refill does

In exact arithmetic a bucket holds whole tokens, and tokens are due at one
rate. A refill does nothing while less than one token is due; else it fills
the bucket and sets its clock to the present, or adds the whole tokens that
are due and moves the clock on by their time (`Sound.refilled`). That time
is rounded to whole nanoseconds, which costs or gains `slack` at most, and
nothing if a token takes a whole number of them.

The **credit** of a bucket is what it holds and what is due. No refill adds
more than the slack to it (`Refilled.credit_le`).
-/

namespace CapabilityBroker

namespace Scalar

variable {x : Rat}

theorem num_toNat (h : 0 ≤ x) : (x.num.toNat : Rat) = x * x.den := by
  have hnum : (x.num.toNat : Int) = x.num := Int.toNat_of_nonneg (Rat.num_nonneg.mpr h)
  rw [Rat.mul_den_eq_num, ← hnum]
  rfl

theorem span_of_nonneg (h : 0 ≤ x) :
    span x = Decimal.roundHalfEven (x.num.toNat * Duration.second) x.den :=
  if_neg (not_lt.mpr h)

/-- The span nearest to a number of seconds is at most half a nanosecond
shorter, -/
theorem le_span (h : 0 ≤ x) : x * Duration.second ≤ span x + 1 / 2 := by
  have hden : (0 : Rat) < x.den := mod_cast x.den_pos
  have hround : (2 : Rat) * (x.num.toNat * Duration.second) ≤ 2 * (x.den * span x) + x.den := by
    rw [span_of_nonneg h]
    exact mod_cast Decimal.two_mul_le_roundHalfEven x.den_pos
  rw [num_toNat h] at hround
  generalize (Duration.second : Rat) = second at hround ⊢
  refine le_of_mul_le_mul_left ?_ hden
  linarith

/-- and at most half a nanosecond longer. -/
theorem span_le (h : 0 ≤ x) : (span x : Rat) ≤ x * Duration.second + 1 / 2 := by
  have hden : (0 : Rat) < x.den := mod_cast x.den_pos
  have hround : (2 : Rat) * (x.den * span x) ≤ 2 * (x.num.toNat * Duration.second) + x.den := by
    rw [span_of_nonneg h]
    exact mod_cast Decimal.two_mul_roundHalfEven_le x.den_pos
  rw [num_toNat h] at hround
  generalize (Duration.second : Rat) = second at hround ⊢
  refine le_of_mul_le_mul_left ?_ hden
  linarith

end Scalar

namespace RateLimit

/-- The tokens due in a nanosecond. -/
def rate (limit : RateLimit) : Rat := limit.capacity / limit.window

/-- What the time of minted tokens can be off by, in tokens: it is rounded
to whole nanoseconds, which does nothing if a token takes a whole number
of them. -/
def slack (limit : RateLimit) : Rat :=
  if limit.capacity ∣ limit.window then 0 else limit.rate / 2

variable {limit : RateLimit}

theorem rate_nonneg : 0 ≤ limit.rate := by
  unfold rate
  positivity

theorem rate_pos (hcapacity : 1 ≤ limit.capacity) (hwindow : 0 < limit.window) :
    0 < limit.rate := by
  unfold rate
  positivity

theorem slack_nonneg : 0 ≤ limit.slack := by
  unfold slack
  split
  · exact le_refl 0
  · exact div_nonneg rate_nonneg (by norm_num)

theorem slack_eq_zero (h : limit.capacity ∣ limit.window) : limit.slack = 0 := if_pos h

end RateLimit

namespace TokenBucket

open RateLimit

variable {limit : RateLimit} {elapsed m now : Nat}

/-! ## The tokens due, and their time -/

theorem minted_eq (hwindow : 0 < limit.window) :
    (minted limit elapsed : Rat) = (⌊elapsed * limit.rate⌋₊ : Nat) := by
  have hsecond : (Duration.second : Rat) ≠ 0 := by norm_num [Duration.second]
  have hwindow' : (limit.window : Rat) ≠ 0 := mod_cast hwindow.ne'
  have hdue : ((elapsed : Rat) / Duration.second) / ((limit.window : Rat) / Duration.second)
      * (limit.capacity : Rat) = elapsed * limit.rate := by
    unfold rate
    field_simp
  have hnonneg : (0 : Rat) ≤ elapsed * limit.rate := mul_nonneg (Nat.cast_nonneg _) rate_nonneg
  rw [natCast_floor_eq_intCast_floor hnonneg]
  exact congrArg (fun x : Rat => (x.floor : Rat)) hdue

section MintingTime

variable (hcapacity : 1 ≤ limit.capacity) (hwindow : 0 < limit.window)
include hcapacity hwindow

/-- The time of tokens before it is rounded. -/
theorem seconds_mul_rate : (m : Rat) / limit.capacity * ((limit.window : Rat) / Duration.second)
    * Duration.second * limit.rate = m := by
  have hsecond : (Duration.second : Rat) ≠ 0 := by norm_num [Duration.second]
  have hcapacity' : (limit.capacity : Rat) ≠ 0 := mod_cast Nat.pos_iff_ne_zero.mp hcapacity
  have hwindow' : (limit.window : Rat) ≠ 0 := mod_cast hwindow.ne'
  unfold rate
  field_simp

/-- The time of tokens is off by half a nanosecond at most, either way. -/
theorem mintingTime_bounds : m ≤ mintingTime limit (m : Rat) * limit.rate + limit.rate / 2 ∧
    mintingTime limit (m : Rat) * limit.rate ≤ m + limit.rate / 2 := by
  have hnonneg : 0 ≤ (m : Rat) / limit.capacity * ((limit.window : Rat) / Duration.second) := by
    positivity
  have hspan : mintingTime limit (m : Rat)
      = Scalar.span ((m : Rat) / limit.capacity * ((limit.window : Rat) / Duration.second)) := rfl
  have hrate : 0 ≤ limit.rate := rate_nonneg
  have hlower := mul_le_mul_of_nonneg_right (Scalar.le_span hnonneg) hrate
  have hupper := mul_le_mul_of_nonneg_right (Scalar.span_le hnonneg) hrate
  rw [add_mul, seconds_mul_rate hcapacity hwindow, ← hspan, one_div_mul_eq_div] at hlower hupper
  exact ⟨hlower, hupper⟩

/-- A token is due in the time that it takes. -/
theorem rate_mul {k : Nat} (hk : limit.window = limit.capacity * k) : limit.rate * k = 1 := by
  have hcapacity' : (limit.capacity : Rat) ≠ 0 := mod_cast Nat.pos_iff_ne_zero.mp hcapacity
  have hk' : (k : Rat) ≠ 0 := by
    rw [Nat.cast_ne_zero]
    rintro rfl
    exact hwindow.ne hk.symm
  simp only [rate, hk, Nat.cast_mul]
  field_simp

/-- If a token takes a whole number of nanoseconds, their time is exact. -/
theorem mintingTime_mul_rate (hdvd : limit.capacity ∣ limit.window) :
    mintingTime limit (m : Rat) * limit.rate = m := by
  obtain ⟨k, hk⟩ := hdvd
  have hrate := rate_mul hcapacity hwindow hk
  obtain ⟨hlower, hupper⟩ := mintingTime_bounds (m := m) hcapacity hwindow
  -- in nanoseconds the two sides differ by a half at most
  have hscale : (mintingTime limit (m : Rat) : Rat) = mintingTime limit (m : Rat) * limit.rate * k :=
    by rw [mul_assoc, hrate, mul_one]
  have hlower' := mul_le_mul_of_nonneg_right hlower (Nat.cast_nonneg (α := Rat) k)
  have hupper' := mul_le_mul_of_nonneg_right hupper (Nat.cast_nonneg (α := Rat) k)
  rw [add_mul, div_mul_eq_mul_div, hrate, ← hscale] at hlower' hupper'
  have heq : mintingTime limit (m : Rat) = m * k := by
    have hbelow : 2 * (m * k) ≤ 2 * mintingTime limit (m : Rat) + 1 := by
      exact_mod_cast (show (2 : Rat) * (m * k) ≤ 2 * mintingTime limit (m : Rat) + 1 by linarith)
    have habove : 2 * mintingTime limit (m : Rat) ≤ 2 * (m * k) + 1 := by
      exact_mod_cast (show (2 : Rat) * mintingTime limit (m : Rat) ≤ 2 * (m * k) + 1 by linarith)
    omega
  rw [heq, Nat.cast_mul, mul_assoc, mul_comm (k : Rat), hrate, mul_one]

/-- The clock moves on by the time of the tokens but for the slack. -/
theorem le_mintingTime : m ≤ mintingTime limit (m : Rat) * limit.rate + limit.slack := by
  by_cases hdvd : limit.capacity ∣ limit.window
  · rw [mintingTime_mul_rate hcapacity hwindow hdvd, slack_eq_zero hdvd, add_zero]
  · rw [slack, if_neg hdvd]
    exact (mintingTime_bounds hcapacity hwindow).1

/-- The clock does not move on further than the time that was looked at. -/
theorem mintingTime_le (h : (m : Rat) ≤ elapsed * limit.rate) :
    mintingTime limit (m : Rat) ≤ elapsed := by
  have hrate := rate_pos hcapacity hwindow
  have hupper := (mintingTime_bounds (m := m) hcapacity hwindow).2
  have hscaled : (2 * mintingTime limit (m : Rat)) * limit.rate ≤ (2 * elapsed + 1) * limit.rate := by
    linarith
  have hle : 2 * mintingTime limit (m : Rat) ≤ 2 * elapsed + 1 := by
    exact_mod_cast le_of_mul_le_mul_right hscaled hrate
  omega

end MintingTime

/-! ## Refills -/

/-- A bucket that mints, looked at from `now`: it holds whole tokens, not
more than its capacity, and its clock is not ahead. -/
structure Sound (b : TokenBucket Rat) (now : Nat) : Prop where
  capacity_pos : 1 ≤ b.limit.capacity
  window_pos : 0 < b.limit.window
  tokens_whole : ∃ n : Nat, b.tokens = n
  tokens_le : b.tokens ≤ b.limit.capacity
  clock_le : b.clock ≤ now

/-- The tokens that the time since its clock accounts for. -/
def due (b : TokenBucket Rat) (now : Nat) : Rat := (now - b.clock) * b.limit.rate

/-- **The credit of a bucket**: what it holds and what is due. -/
def credit (b : TokenBucket Rat) (now : Nat) : Rat := b.tokens + b.due now

/-- **What a refill can do** to a bucket. -/
inductive Refilled (b : TokenBucket Rat) (now : Nat) : TokenBucket Rat → Prop
  /-- Less than a token is due, and nothing happens. -/
  | idle : b.due now < 1 → Refilled b now b
  /-- The bucket is filled, and its clock set. -/
  | filled (m : Nat) : 1 ≤ m → m ≤ b.due now → b.limit.capacity ≤ b.tokens + m →
      Refilled b now { b with tokens := b.limit.capacity, clock := now }
  /-- The whole tokens that are due are minted, and the clock moves on by
  their time. -/
  | minting (m : Nat) : 1 ≤ m → m ≤ b.due now → b.due now < m + 1 →
      b.tokens + m < b.limit.capacity →
      Refilled b now
        { b with tokens := b.tokens + m, clock := b.clock + mintingTime b.limit (m : Rat) }

/-- A bucket that is full although its clock is behind. -/
def Behind (b : TokenBucket Rat) (now : Nat) : Prop :=
  b.tokens = b.limit.capacity ∧ b.clock < now

variable {b d e : TokenBucket Rat} {later : Nat}

theorem due_mono (hle : now ≤ later) : b.due now ≤ b.due later :=
  mul_le_mul_of_nonneg_right (sub_le_sub_right (Nat.cast_le.mpr hle) _) rate_nonneg

/-- With time the credit grows at the rate. -/
theorem credit_later (b : TokenBucket Rat) (now later : Nat) :
    b.credit later = b.credit now + (later - now) * b.limit.rate := by
  unfold credit due
  ring

/-- What a refill computes, in exact arithmetic. -/
theorem refill_eq (hwindow : 0 < b.limit.window) : b.refill now =
    if (minted b.limit (now - b.clock) : Rat) < 1 then b
    else if (b.limit.capacity : Rat) ≤ b.tokens + minted b.limit (now - b.clock) then
      { b with tokens := b.limit.capacity, clock := now }
    else { b with
      tokens := b.tokens + minted b.limit (now - b.clock)
      clock := b.clock + mintingTime b.limit (minted b.limit (now - b.clock) : Rat) } := by
  generalize hdue : (minted b.limit (now - b.clock) : Rat) = due
  have hbelow : ∀ x y : Rat, Scalar.below x y = decide (x < y) := fun _ _ => rfl
  have hatMost : ∀ x y : Rat, Scalar.atMost x y = decide (x ≤ y) := fun _ _ => rfl
  have hofNat : ∀ n : Nat, (Scalar.ofNat n : Rat) = n := fun _ => rfl
  have hleast : Scalar.least (b.tokens + due) (b.limit.capacity : Rat)
      = if (b.limit.capacity : Rat) ≤ b.tokens + due then (b.limit.capacity : Rat)
        else b.tokens + due := by
    simp only [Scalar.least, hbelow, decide_eq_true_eq]
    rcases lt_trichotomy (b.limit.capacity : Rat) (b.tokens + due) with h | h | h
    · rw [if_pos h, if_pos h.le]
    · rw [if_neg h.not_lt, if_pos h.le, h]
    · rw [if_neg h.not_gt, if_neg h.not_ge]
  unfold refill
  rw [if_neg hwindow.ne']
  simp only [hdue, hbelow, hatMost, hofNat, Nat.cast_one, decide_eq_true_eq, hleast]
  by_cases hfull : (b.limit.capacity : Rat) ≤ b.tokens + due
  · simp only [if_pos hfull, le_refl, if_true]
  · simp only [if_neg hfull]

theorem sound_full (hcapacity : 1 ≤ limit.capacity) (hwindow : 0 < limit.window) (now : Nat) :
    Sound (full limit now) now where
  capacity_pos := hcapacity
  window_pos := hwindow
  tokens_whole := ⟨limit.capacity, rfl⟩
  tokens_le := le_refl (limit.capacity : Rat)
  clock_le := le_refl now

namespace Sound

theorem due_eq (h : Sound b now) : b.due now = (now - b.clock : Nat) * b.limit.rate := by
  rw [due, Nat.cast_sub h.clock_le]

theorem due_nonneg (h : Sound b now) : 0 ≤ b.due now := by
  rw [h.due_eq]
  exact mul_nonneg (Nat.cast_nonneg _) rate_nonneg

theorem tokens_nonneg (h : Sound b now) : 0 ≤ b.tokens := by
  obtain ⟨n, hn⟩ := h.tokens_whole
  exact hn ▸ Nat.cast_nonneg n

theorem credit_nonneg (h : Sound b now) : 0 ≤ b.credit now :=
  add_nonneg h.tokens_nonneg h.due_nonneg

theorem mono (h : Sound b now) (hle : now ≤ later) : Sound b later :=
  { h with clock_le := h.clock_le.trans hle }

/-- **A refill is one of the three.** -/
theorem refilled (h : Sound b now) : Refilled b now (b.refill now) := by
  have hminted : (minted b.limit (now - b.clock) : Rat) = (⌊b.due now⌋₊ : Nat) := by
    rw [minted_eq h.window_pos, h.due_eq]
  have hle : (⌊b.due now⌋₊ : Rat) ≤ b.due now := Nat.floor_le h.due_nonneg
  rw [refill_eq h.window_pos, hminted]
  split
  · next hfew =>
    have hzero : ⌊b.due now⌋₊ = 0 := Nat.lt_one_iff.mp (mod_cast hfew)
    exact .idle (Nat.floor_eq_zero.mp hzero)
  · next hsome =>
    have hone : 1 ≤ ⌊b.due now⌋₊ := Nat.one_le_cast.mp (not_lt.mp hsome)
    split
    · next hfull => exact .filled _ hone hle hfull
    · next hfew => exact .minting _ hone hle (Nat.lt_floor_add_one _) (not_le.mp hfew)

/-- What is missing to the capacity is a whole number of tokens. -/
theorem add_one_le (h : Sound b now) (hfew : b.tokens + m < b.limit.capacity) :
    b.tokens + m + 1 ≤ b.limit.capacity := by
  obtain ⟨n, hn⟩ := h.tokens_whole
  rw [hn] at hfew ⊢
  exact_mod_cast hfew

end Sound

namespace Refilled

theorem limit_eq (h : Refilled b now d) : d.limit = b.limit := by
  cases h <;> rfl

theorem sound (h : Refilled b now d) (hb : Sound b now) : Sound d now := by
  obtain ⟨n, hn⟩ := hb.tokens_whole
  cases h with
  | idle => exact hb
  | filled m _ _ _ =>
    exact ⟨hb.capacity_pos, hb.window_pos, ⟨b.limit.capacity, rfl⟩, le_refl _, le_refl _⟩
  | minting m _ hdue _ hfew =>
    refine ⟨hb.capacity_pos, hb.window_pos, ⟨n + m, by push_cast; rw [hn]⟩, hfew.le, ?_⟩
    rw [hb.due_eq] at hdue
    have hmoved := mintingTime_le hb.capacity_pos hb.window_pos hdue
    have hclock := hb.clock_le
    simp only
    omega

/-- If less than a token is due, nothing happens. -/
theorem eq_of_due_lt (h : Refilled b now d) (hdue : b.due now < 1) : d = b := by
  cases h with
  | idle => rfl
  | filled m hone hle _ | minting m hone hle _ _ =>
    exact absurd (hle.trans_lt hdue) (not_lt.mpr (Nat.one_le_cast.mpr hone))

/-- **A refill does not add to the credit**, but for the slack. -/
theorem credit_le (h : Refilled b now d) (hb : Sound b now) :
    d.credit now ≤ b.credit now + b.limit.slack := by
  have hslack : 0 ≤ b.limit.slack := slack_nonneg
  unfold credit
  cases h with
  | idle => linarith
  | filled m _ hm hfull =>
    simp only [due, sub_self, zero_mul, add_zero] at hm ⊢
    linarith
  | minting m _ _ _ _ =>
    have hmoved := le_mintingTime (m := m) hb.capacity_pos hb.window_pos
    simp only [due, Nat.cast_add]
    linarith

/-- Only a refill that does nothing leaves the clock of a full bucket
behind. -/
theorem eq_of_behind (h : Refilled b now d) (hclock : d.Behind now) : d = b ∧ b.due now < 1 := by
  cases h with
  | idle hdue => exact ⟨rfl, hdue⟩
  | filled _ _ _ _ => exact absurd hclock.2 (lt_irrefl now)
  | minting _ _ _ _ hfew => exact absurd hclock.1 hfew.ne

/-- A bucket that is filled would be filled by a refill later as well. -/
theorem eq_filled (h : Refilled b later e) (hle : now ≤ later) (hone : 1 ≤ m)
    (hdue : m ≤ b.due now) (hfull : b.limit.capacity ≤ b.tokens + m) :
    e = { b with tokens := b.limit.capacity, clock := later } := by
  have hmore : m ≤ b.due later := hdue.trans (due_mono hle)
  cases h with
  | idle hless =>
    have hone' : (1 : Rat) ≤ m := Nat.one_le_cast.mpr hone
    exact absurd hless (not_lt.mpr (hone'.trans hmore))
  | filled _ _ _ _ => rfl
  | minting n _ _ hless hfew =>
    -- fewer tokens would be due than before
    have hlt : m < n + 1 := by exact_mod_cast hmore.trans_lt hless
    have hle' : (m : Rat) ≤ n := Nat.cast_le.mpr (Nat.le_of_lt_succ hlt)
    exact absurd hfew (not_lt.mpr (hfull.trans (add_le_add_right hle' _)))

/-- **From now on a bucket has no more than its capacity to its credit**
and what falls due, unless now it is full and its clock behind. -/
theorem credit_le_capacity (h : Refilled b now d) (hb : Sound b now) (hclock : ¬ d.Behind now)
    (hle : now ≤ later) (hlater : Refilled b later e) :
    e.credit later ≤ b.limit.capacity + (later - now) * b.limit.rate + b.limit.slack := by
  have hslack : 0 ≤ b.limit.slack := slack_nonneg
  have hcredit := hlater.credit_le (hb.mono hle)
  rw [credit_later b now] at hcredit
  cases h with
  | idle hdue =>
    rcases hb.tokens_le.lt_or_eq with hfew | hfull
    · -- a token is missing, and less than one is due
      have hmissing := hb.add_one_le (m := 0) (by simpa using hfew)
      simp only [Nat.cast_zero, add_zero] at hmissing
      unfold credit at hcredit ⊢
      linarith
    · have heq : b.clock = now :=
        le_antisymm hb.clock_le (not_lt.mp fun hlt => hclock ⟨hfull, hlt⟩)
      simp only [credit, due, heq, sub_self, zero_mul] at hcredit ⊢
      linarith
  | filled m hone hdue hfull =>
    rw [hlater.eq_filled hle hone hdue hfull]
    have hfalls : 0 ≤ ((later : Rat) - now) * b.limit.rate :=
      mul_nonneg (sub_nonneg.mpr (Nat.cast_le.mpr hle)) rate_nonneg
    simp only [credit, due, sub_self, zero_mul]
    linarith
  | minting m _ _ hdue hfew =>
    have hmissing := hb.add_one_le hfew
    unfold credit at hcredit ⊢
    linarith

/-- In any case it has less than a token more to its credit. -/
theorem credit_lt (h : Refilled b now d) (hb : Sound b now) :
    d.credit now < b.limit.capacity + 1 + b.limit.slack := by
  have hslack : 0 ≤ b.limit.slack := slack_nonneg
  by_cases hclock : d.Behind now
  · obtain ⟨rfl, hdue⟩ := h.eq_of_behind hclock
    rw [credit, hclock.1]
    linarith
  · have hle := h.credit_le_capacity hb hclock (le_refl now) h
    rw [sub_self, zero_mul, add_zero] at hle
    linarith

/-- A bucket to which a token is due holds one when it is refilled. -/
theorem one_le_tokens (h : Refilled b now d) (hb : Sound b now) (hdue : 1 ≤ b.due now) :
    1 ≤ d.tokens := by
  cases h with
  | idle hless => exact absurd hdue (not_le.mpr hless)
  | filled m _ _ _ => exact Nat.one_le_cast.mpr hb.capacity_pos
  | minting m hone _ _ _ =>
    obtain ⟨n, hn⟩ := hb.tokens_whole
    have hone' : (1 : Rat) ≤ m := Nat.one_le_cast.mpr hone
    have hnonneg : (0 : Rat) ≤ n := Nat.cast_nonneg n
    simp only [hn]
    linarith

end Refilled

end TokenBucket

end CapabilityBroker
