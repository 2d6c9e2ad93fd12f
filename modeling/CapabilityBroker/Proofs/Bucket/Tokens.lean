import CapabilityBroker.Proofs.Binary64.Spans
import CapabilityBroker.Proofs.Binary64.Whole
import CapabilityBroker.TokenBucket.History
/-!
# Tokens in binary64

The tokens that are due after a span are computed in binary64, with four
roundings of the two spans and two more. So a token may be minted a little
before or after the time that it takes (`Mints.window_le`,
`mul_capacity_le_of_not_mints`). But it does not come and go: once the span is
long enough it stays so (`Mints.mono`), and there is one time from which on a
token is minted, the **time of a token** (`tokenTime`, `mints_iff`). For
windows of up to six days it is the whole nanoseconds that a token takes, or
one more (`tokenTime_of_short`).

What a bucket holds is a whole number of tokens all the time (`Stocked.ask`),
and it is refilled just if the time of a token is over since its clock
(`Stocked.refill_cases`).
-/

namespace CapabilityBroker

open Binary64

/-- A limit with a capacity of 32 bits, and a window that a span of time can
be; there is something of each. -/
structure RateLimit.InRange (limit : RateLimit) : Prop where
  capacity_pos : 1 ≤ limit.capacity
  capacity_lt : limit.capacity < 2 ^ 32
  window_pos : 0 < limit.window
  window_lt : limit.window < 2 ^ 64 * Duration.second

namespace TokenBucket

variable {limit : RateLimit} {elapsed longer now n : ℕ} {f g s q : ℚ}

/-! ## What is due -/

/-- The tokens that are due after a span, before the whole ones are taken. -/
def dueAfter (limit : RateLimit) (elapsed : ℕ) : Float :=
  Binary64.seconds elapsed / Binary64.seconds limit.window * Scalar.ofNat limit.capacity

/-- A token is minted after a span. -/
def Mints (limit : RateLimit) (elapsed : ℕ) : Prop :=
  Scalar.below (minted limit elapsed : Float) (Scalar.ofNat 1) = false

instance (limit : RateLimit) : DecidablePred (Mints limit) :=
  fun _ => inferInstanceAs (Decidable (_ = false))

theorem amount_minted (h : Amount (dueAfter limit elapsed) q) :
    Amount (minted limit elapsed) ⌊q⌋₊ := h.floor

theorem mints_iff_one_le (h : Amount (dueAfter limit elapsed) q) :
    Mints limit elapsed ↔ 1 ≤ q := by
  have hone : Amount (Scalar.ofNat 1 : Float) 1 := amount_one
  have hbelow : Mints limit elapsed ↔ ¬ (minted limit elapsed : Float) < Scalar.ofNat 1 :=
    decide_eq_false_iff_not
  rw [hbelow, (amount_minted h).lt_iff hone, not_lt, Nat.one_le_cast, Nat.one_le_floor_iff]

/-- How what is due comes about: from the seconds of the span and of the
window, and their quotient. -/
structure Due (limit : RateLimit) (elapsed : ℕ) (f g s q : ℚ) : Prop where
  span : Amount (Binary64.seconds elapsed) f
  window : Amount (Binary64.seconds limit.window) g
  quotient : Amount (Binary64.seconds elapsed / Binary64.seconds limit.window) s
  amount : Amount (dueAfter limit elapsed) q
  span_near : Near 2 f (elapsed / Duration.second)
  window_near : Near 2 g (limit.window / Duration.second)
  near : Near 2 q (f / g * limit.capacity)
  window_pos : 0 < g
  le : q ≤ 2 ^ 200

section InRange

variable (hlimit : limit.InRange)
include hlimit

theorem amount_capacity : Amount (Scalar.ofNat limit.capacity : Float) limit.capacity :=
  amount_natCast (hlimit.capacity_lt.trans (by norm_num))

theorem exists_due (helapsed : elapsed < 2 ^ 64 * Duration.second) :
    ∃ f g s q, Due limit elapsed f g s q := by
  obtain ⟨_, _, f, hspan, hf⟩ := exists_parts helapsed
  obtain ⟨_, _, g, hwindow, hg⟩ := exists_parts hlimit.window_lt
  have hgpos : 0 < g := lt_of_lt_of_le (by positivity) (hwindow.least hlimit.window_pos)
  have hcapacity : (1 : ℚ) ≤ limit.capacity ∧ (limit.capacity : ℚ) ≤ 2 ^ (32 : ℤ) :=
    ⟨by exact_mod_cast hlimit.capacity_pos, by exact_mod_cast hlimit.capacity_lt.le⟩
  -- the quotient and the product are far from being too large
  have hquotient : f / g ≤ 2 ^ (96 : ℤ) := hspan.div_le hwindow helapsed hlimit.window_pos
  obtain ⟨s, hs, hsw⟩ := (hf.div hg hgpos).amount (onGrid_two_zpow (by norm_num)) hquotient
    (in_range_of_le (by norm_num))
  have hsle : s ≤ 2 ^ (96 : ℤ) := hs.ge_of_ge (onGrid_two_zpow (by norm_num)) hquotient
  have hproduct : s * limit.capacity ≤ 2 ^ (128 : ℤ) := by
    refine (mul_le_mul hsle hcapacity.2 (Nat.cast_nonneg _) (by positivity)).trans (le_of_eq ?_)
    rw [← zpow_add₀ two_ne_zero]
    norm_num
  obtain ⟨q, hq, hqw⟩ := (hsw.mul (amount_capacity hlimit)).amount (onGrid_two_zpow (by norm_num))
    hproduct (in_range_of_le (by norm_num))
  have hqle : q ≤ 2 ^ (128 : ℤ) := hq.ge_of_ge (onGrid_two_zpow (by norm_num)) hproduct
  -- and they have all their digits, or there is nothing due
  have hnear : Near 1 s (f / g) ∧ Near 1 q (s * limit.capacity) := by
    rcases Nat.eq_zero_or_pos elapsed with rfl | hpos
    · have hf0 : f = 0 := by
        have hlower := hspan.near.lower
        have hupper := hspan.near.upper
        rw [Nat.cast_zero, zero_div, mul_zero] at hlower hupper
        exact le_antisymm hupper hlower
      have hs0 : s = 0 := by
        rw [hf0, zero_div] at hs
        exact hs.eq_of_onGrid onGrid_zero
      exact ⟨hs.near (.inl (by rw [hf0, zero_div])), hq.near (.inl (by rw [hs0, zero_mul]))⟩
    · have hleast : 2 ^ (-96 : ℤ) ≤ f / g :=
        hspan.le_div hwindow hlimit.window_lt hpos hlimit.window_pos
      have hnormal : (2 : ℚ) ^ (-1022 : ℤ) ≤ 2 ^ (-96 : ℤ) :=
        zpow_le_zpow_right₀ one_le_two (by norm_num)
      have hsleast : 2 ^ (-96 : ℤ) ≤ s := hs.le_of_le (onGrid_two_zpow (by norm_num)) hleast
      have hproduct0 : 2 ^ (-96 : ℤ) ≤ s * limit.capacity :=
        hsleast.trans (le_mul_of_one_le_right hs.nonneg hcapacity.1)
      exact ⟨hs.near (.inr (hnormal.trans hleast)), hq.near (.inr (hnormal.trans hproduct0))⟩
  refine ⟨f, g, s, q, hf, hg, hsw, hqw, hspan.near, hwindow.near, ?_, hgpos,
    hqle.trans (by norm_num)⟩
  exact hnear.2.trans (hnear.1.mul (.refl _) (div_nonneg hf.nonneg hgpos.le) (Nat.cast_nonneg _))

/-! ## When a token is minted -/

/-- **No token is minted much too early.** -/
theorem Mints.window_le (helapsed : elapsed < 2 ^ 64 * Duration.second)
    (hmints : Mints limit elapsed) :
    (limit.window : ℚ) ≤ (1 + 6 / 2 ^ 52) * (elapsed * limit.capacity) := by
  obtain ⟨f, g, _, q, hdue⟩ := exists_due hlimit helapsed
  have hone : 1 ≤ (1 + unit) ^ 2 * (f / g * limit.capacity) :=
    ((mints_iff_one_le hdue.amount).mp hmints).trans hdue.near.upper
  have hg := hdue.window_pos
  have hle : g ≤ (1 + unit) ^ 2 * (f * limit.capacity) := by
    calc g = g * 1 := (mul_one g).symm
      _ ≤ g * ((1 + unit) ^ 2 * (f / g * limit.capacity)) := mul_le_mul_of_nonneg_left hone hg.le
      _ = (1 + unit) ^ 2 * (f * limit.capacity) := by field_simp
  have hf : 0 ≤ f := hdue.span_near.nonneg (by positivity)
  have hnear := (Near.up (by positivity : 0 ≤ f * limit.capacity) 2).trans
    (hdue.span_near.mul (.refl (limit.capacity : ℚ)) (by positivity) (by positivity))
  have hclose := hdue.window_near.le_of_le hnear hle (by positivity) (by norm_num)
  rw [div_mul_eq_mul_div, ← mul_div_assoc, div_le_div_iff_of_pos_right (by norm_num)] at hclose
  norm_num at hclose ⊢
  exact hclose

/-- **A token that is minted after a span is minted after every longer
one.** -/
theorem Mints.mono (hmints : Mints limit elapsed) (hle : elapsed ≤ longer)
    (hlonger : longer < 2 ^ 64 * Duration.second) : Mints limit longer := by
  obtain ⟨f, g, s, q, hdue⟩ := exists_due hlimit (hle.trans_lt hlonger)
  obtain ⟨f', g', s', q', hdue'⟩ := exists_due hlimit hlonger
  have hspan : f ≤ f' := seconds_mono hle hlonger hdue.span hdue'.span
  have hcapacity : (0 : ℚ) < limit.capacity := by exact_mod_cast hlimit.capacity_pos
  have hquotient : s ≤ s' := Rounded.le_of_le (fun h => h.div hdue.window hdue.window_pos)
    (fun _ _ h => div_lt_div_of_pos_right h hdue.window_pos) hdue.span hdue'.span hspan
    hdue.quotient hdue'.quotient
  have htokens : q ≤ q' := Rounded.le_of_le (fun h => h.mul (amount_capacity hlimit))
    (fun _ _ h => mul_lt_mul_of_pos_right h hcapacity) hdue.quotient hdue'.quotient hquotient
    hdue.amount hdue'.amount
  rw [mints_iff_one_le hdue.amount] at hmints
  exact (mints_iff_one_le hdue'.amount).mpr (hmints.trans htokens)

/-- After a whole window a token is due. -/
theorem mints_window : Mints limit limit.window := by
  obtain ⟨f, g, s, q, hdue⟩ := exists_due hlimit hlimit.window_lt
  have hcapacity : (1 : ℚ) ≤ limit.capacity := by exact_mod_cast hlimit.capacity_pos
  have hs : s = 1 := by
    have hnear := (hdue.window.div hdue.window hdue.window_pos).nearest hdue.quotient
    rw [div_self hdue.window_pos.ne'] at hnear
    exact hnear.eq_of_onGrid onGrid_one
  have hnear := (hdue.quotient.mul (amount_capacity hlimit)).nearest hdue.amount
  rw [hs, one_mul] at hnear
  exact (mints_iff_one_le hdue.amount).mpr (hnear.le_of_le onGrid_one hcapacity)

end InRange

/-! ## The time of a token -/

/-- **The time of a token**: the least one, up to the window, after which a
token is minted. -/
def tokenTime (limit : RateLimit) : ℕ :=
  Nat.find (⟨limit.window, .inl rfl⟩ : ∃ elapsed, elapsed = limit.window ∨ Mints limit elapsed)

theorem tokenTime_le_window (limit : RateLimit) : tokenTime limit ≤ limit.window :=
  Nat.find_min' _ (.inl rfl)

section InRange

variable (hlimit : limit.InRange)
include hlimit

theorem mints_tokenTime : Mints limit (tokenTime limit) := by
  rcases Nat.find_spec (⟨limit.window, .inl rfl⟩ :
    ∃ elapsed, elapsed = limit.window ∨ Mints limit elapsed) with heq | hmints
  · rw [tokenTime, heq]
    exact mints_window hlimit
  · exact hmints

/-- **A token is minted when its time is over**, and not before. -/
theorem mints_iff (helapsed : elapsed < 2 ^ 64 * Duration.second) :
    Mints limit elapsed ↔ tokenTime limit ≤ elapsed :=
  ⟨fun hmints => Nat.find_min' _ (.inr hmints),
    fun hle => (mints_tokenTime hlimit).mono hlimit hle helapsed⟩

theorem tokenTime_lt : tokenTime limit < 2 ^ 64 * Duration.second :=
  (tokenTime_le_window limit).trans_lt hlimit.window_lt

theorem window_le_tokenTime :
    (limit.window : ℚ) ≤ (1 + 6 / 2 ^ 52) * (tokenTime limit * limit.capacity) :=
  (mints_tokenTime hlimit).window_le hlimit (tokenTime_lt hlimit)

theorem one_le_tokenTime : 1 ≤ tokenTime limit := by
  by_contra hzero
  have hle := window_le_tokenTime hlimit
  rw [Nat.lt_one_iff.mp (not_le.mp hzero), Nat.cast_zero, zero_mul, mul_zero] at hle
  have hpos : (0 : ℚ) < limit.window := by exact_mod_cast hlimit.window_pos
  exact absurd hle (not_le.mpr hpos)

end InRange

/-- Of five tokens in three seconds each takes a whole number of nanoseconds,
and none is minted when they are over. -/
example : tokenInterval ⟨5, Duration.ofSecs 3⟩ = 600000000 ∧
    ¬ Mints ⟨5, Duration.ofSecs 3⟩ 600000000 := by
  decide +kernel

/-! ## Refills -/

/-- A bucket of a limit in range that holds a whole number of tokens, not more
than its capacity. -/
structure Stocked (b : TokenBucket Float) : Prop where
  limit : b.limit.InRange
  tokens : ∃ n ≤ b.limit.capacity, Amount b.tokens n

variable {b : TokenBucket Float}

theorem hasToken_iff (h : Amount b.tokens n) : b.hasToken = true ↔ 1 ≤ n := by
  have hone : Amount (Scalar.ofNat 1 : Float) 1 := amount_one
  have hatMost : b.hasToken = true ↔ Scalar.ofNat 1 ≤ b.tokens := decide_eq_true_iff
  rw [hatMost, hone.le_iff h, Nat.one_le_cast]

theorem refill_of_not_mints (hwindow : 0 < b.limit.window)
    (hnone : ¬ Mints b.limit (now - b.clock)) : b.refill now = b := by
  have hbelow : Scalar.below (minted b.limit (now - b.clock) : Float) (Scalar.ofNat 1) = true :=
    Bool.of_not_eq_false hnone
  simp only [refill, if_neg hwindow.ne', hbelow, if_true]

theorem refill_of_mints (hwindow : 0 < b.limit.window) (hmints : Mints b.limit (now - b.clock)) :
    ∃ clock, b.refill now = { b with
      tokens := Scalar.least (b.tokens + minted b.limit (now - b.clock))
        (Scalar.ofNat b.limit.capacity)
      clock } := by
  have hbelow : Scalar.below (minted b.limit (now - b.clock) : Float) (Scalar.ofNat 1) = false :=
    hmints
  simp only [refill, if_neg hwindow.ne', hbelow, Bool.false_eq_true, if_false]
  split
  · exact ⟨_, rfl⟩
  · exact ⟨_, rfl⟩

namespace Stocked

/-- A refill that mints leaves a whole number of tokens, and one at least. -/
theorem refill_of_mints (h : Stocked b) (helapsed : now - b.clock < 2 ^ 64 * Duration.second)
    (hmints : Mints b.limit (now - b.clock)) :
    Stocked (b.refill now) ∧ (b.refill now).limit = b.limit ∧
      (b.refill now).hasToken = true := by
  obtain ⟨n, hn, htokens⟩ := h.tokens
  obtain ⟨_, _, _, q, hdue⟩ := exists_due h.limit helapsed
  obtain ⟨clock, hrefill⟩ := TokenBucket.refill_of_mints h.limit.window_pos hmints
  have hq : 1 ≤ q := (mints_iff_one_le hdue.amount).mp hmints
  have hcapacity : b.limit.capacity < 2 ^ 53 := h.limit.capacity_lt.trans (by norm_num)
  have hsum := amount_least htokens (amount_minted hdue.amount) (amount_capacity h.limit)
    (hn.trans_lt hcapacity) hcapacity ((Nat.floor_le (zero_le_one.trans hq)).trans hdue.le)
  have hsome : 1 ≤ min (n + ⌊q⌋₊) b.limit.capacity :=
    le_min (le_add_left ((Nat.one_le_floor_iff q).mpr hq)) h.limit.capacity_pos
  have hkept : (b.refill now).limit = b.limit := by rw [hrefill]
  have hrefilled : Amount (b.refill now).tokens (min (n + ⌊q⌋₊) b.limit.capacity : ℕ) := by
    rw [hrefill]
    exact hsum
  refine ⟨⟨hkept ▸ h.limit, _, ?_, hrefilled⟩, hkept, (hasToken_iff hrefilled).mpr hsome⟩
  rw [hkept]
  exact min_le_right _ _

/-- **What a refill does**: nothing before the time of a token is over, and
then it leaves one at least. -/
theorem refill_cases (h : Stocked b) (helapsed : now - b.clock < 2 ^ 64 * Duration.second) :
    (now < b.clock + tokenTime b.limit ∧ b.refill now = b) ∨
    (b.clock + tokenTime b.limit ≤ now ∧ Stocked (b.refill now) ∧
      (b.refill now).limit = b.limit ∧ (b.refill now).hasToken = true) := by
  have hover : Mints b.limit (now - b.clock) ↔ b.clock + tokenTime b.limit ≤ now := by
    have htime := one_le_tokenTime h.limit
    rw [mints_iff h.limit helapsed]
    omega
  by_cases hmints : Mints b.limit (now - b.clock)
  · exact .inr ⟨hover.mp hmints, h.refill_of_mints helapsed hmints⟩
  · exact .inl ⟨not_le.mp (mt hover.mpr hmints), refill_of_not_mints h.limit.window_pos hmints⟩

end Stocked

end TokenBucket

end CapabilityBroker
