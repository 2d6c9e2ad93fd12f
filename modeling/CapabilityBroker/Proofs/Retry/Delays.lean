import CapabilityBroker.Proofs.Binary64.Powers
import CapabilityBroker.Service.Settings
/-!
# How long the delays are

The delay after an attempt is the initial delay times a power of the
growth factor, up to the limit: this is so in binary64 but for one
rounding for each factor, five more, and half a nanosecond
(`abs_delay_sub_exact_le`). The exponent is the number of attempts before,
as long as that is no greater than the greatest exponent. No number that
is infinite, negative or none at all is ever turned into a span
(`delay_le`).

Where the power is infinite it stands for a number that is too large, and
with any initial delay at all so does the product. With an initial delay
of nothing the product is no number, and the delay is the limit
(`delay_of_zero`).
-/

namespace CapabilityBroker

open Binary64

namespace Backoff

/-- The exponent of the growth factor after an attempt. -/
def exponent (attempt : ℕ) : ℕ := min (attempt - 1) exponentLimit

/-- The delay in seconds before the limit is looked at. -/
def scaled (initial : ℕ) (factor : Float) (attempt : ℕ) : Float :=
  Binary64.seconds initial * Scalar.power factor (exponent attempt)

/-- The delay in nanoseconds without any rounding. -/
def exact (initial limit : ℕ) (factor : ℚ) (attempt : ℕ) : ℚ :=
  min limit (initial * factor ^ exponent attempt)

variable {initial limit attempt : ℕ} {factor : Float} {q r f w : ℚ}

theorem delay_of_not_isFinite (h : (scaled initial factor attempt).isFinite = false) :
    delay initial limit factor attempt = limit := by
  have hguard : (!(scaled initial factor attempt).isFinite ||
      Scalar.atMost (Scalar.seconds limit) (scaled initial factor attempt)) = true := by
    rw [h]
    rfl
  exact if_pos hguard

theorem delay_of_le (h : Binary64.seconds limit ≤ scaled initial factor attempt) :
    delay initial limit factor attempt = limit :=
  if_pos (Bool.or_eq_true_iff.mpr (.inr (decide_eq_true h)))

theorem delay_of_lt (hfinite : (scaled initial factor attempt).isFinite = true)
    (h : ¬ Binary64.seconds limit ≤ scaled initial factor attempt) :
    delay initial limit factor attempt = Binary64.span (scaled initial factor attempt) := by
  have hguard : (!(scaled initial factor attempt).isFinite ||
      Scalar.atMost (Scalar.seconds limit) (scaled initial factor attempt)) = false := by
    rw [hfinite]
    exact decide_eq_false h
  exact if_neg (ne_true_of_eq_false hguard)

/-- There are few enough roundings for their shares to add up. -/
theorem exponent_add_le (attempt : ℕ) : exponent attempt + 5 ≤ 2 ^ 52 := by
  have hle : exponent attempt ≤ exponentLimit := min_le_right _ _
  unfold exponentLimit at hle
  omega

/-! ## The product -/

theorem computed_seconds (hpos : 0 < initial) (hd : initial < 2 ^ 64 * Duration.second) :
    Computed 31 2 (Binary64.seconds initial) (initial / Duration.second) := by
  obtain ⟨a, c, f, hparts, hf⟩ := exists_parts hd
  exact .finite hf (hparts.least hpos) hparts.near

theorem computed_scaled (hpos : 0 < initial) (hd : initial < 2 ^ 64 * Duration.second)
    (hfactor : Amount factor q) (hq : 1 ≤ q) (attempt : ℕ) :
    Computed 31 (exponent attempt + 3) (scaled initial factor attempt)
      (initial / Duration.second * q ^ exponent attempt) := by
  have hproduct := (computed_seconds hpos hd).mul (computed_power hfactor hq (exponent attempt))
    (by norm_num)
  rwa [Nat.add_zero, Nat.add_comm 2, Nat.add_assoc] at hproduct

theorem seconds_zero : Amount (Binary64.seconds 0) 0 :=
  ⟨⟨false, 0, -1074⟩, by decide +kernel, rfl, by norm_num⟩

/-- Nothing times a finite power is nothing. -/
theorem scaled_zero (hfactor : Amount factor q) (hq : 1 ≤ q)
    (hfinite : (Scalar.power factor (exponent attempt)).isFinite = true) :
    Amount (scaled 0 factor attempt) 0 := by
  cases computed_power hfactor hq (exponent attempt) with
  | finite hpower _ _ =>
    have hproduct := seconds_zero.mul hpower
    rw [zero_mul] at hproduct
    exact hproduct.exact onGrid_zero (by positivity)
  | infinite hinfinite _ => exact absurd (hfinite.symm.trans hinfinite.isFinite) (by decide)

/-- **Nothing times an infinite power** is taken for too much. -/
theorem delay_of_zero (hfactor : Amount factor q) (hq : 1 ≤ q)
    (hinfinite : (Scalar.power factor (exponent attempt)).isFinite = false) :
    delay 0 limit factor attempt = limit := by
  cases computed_power hfactor hq (exponent attempt) with
  | finite hpower _ _ => exact absurd (hpower.isFinite.symm.trans hinfinite) (by decide)
  | infinite hpower _ => exact delay_of_not_isFinite (seconds_zero.zero_mul_infinite hpower)

/-- There is no delay after the first attempts, and there is one later on. -/
example : delay 0 5000000000 (10.0 : Float) 300 = 0 ∧
    delay 0 5000000000 (10.0 : Float) 400 = 5000000000 := by
  decide +kernel

/-! ## The limit -/

/-- What the delay is where the product is finite: the limit if that is
not above it, or its span, which is within the limit. -/
theorem delay_of_amount (hd : limit < 2 ^ 64 * Duration.second)
    (h : Amount (scaled initial factor attempt) r) :
    ∃ f, Near 2 f (limit / Duration.second) ∧
      (f ≤ r ∧ delay initial limit factor attempt = limit ∨
        r ≤ limit / Duration.second ∧
          delay initial limit factor attempt = Binary64.span (scaled initial factor attempt)) := by
  obtain ⟨a, c, f, hparts, hf⟩ := exists_parts hd
  refine ⟨f, hparts.near, ?_⟩
  rcases le_or_gt f r with hle | hlt
  · exact .inl ⟨hle, delay_of_le ((hf.le_iff h).mpr hle)⟩
  · exact .inr ⟨hparts.le_of_lt h.onGrid hlt,
      delay_of_lt h.isFinite (mt (hf.le_iff h).mp (not_le.mpr hlt))⟩

/-- What may be turned into a span: a number of seconds that is finite, not
negative and not too large for one. -/
def IsSeconds (x : Float) : Prop := ∃ q, Amount x q ∧ q < 2 ^ 64

/-- The delay is never above the limit, and it is the limit or the span of
a number that has one. -/
theorem delay_le (hd : limit < 2 ^ 64 * Duration.second)
    (h : (scaled initial factor attempt).isFinite = false ∨
      ∃ r, Amount (scaled initial factor attempt) r) :
    delay initial limit factor attempt ≤ limit ∧
      (delay initial limit factor attempt = limit ∨ IsSeconds (scaled initial factor attempt) ∧
        delay initial limit factor attempt =
          Binary64.span (scaled initial factor attempt)) := by
  rcases h with hinfinite | ⟨r, hr⟩
  · have hlimit : delay initial limit factor attempt = limit := delay_of_not_isFinite hinfinite
    exact ⟨hlimit.le, .inl hlimit⟩
  obtain ⟨f, -, ⟨-, hlimit⟩ | ⟨hle, hspan⟩⟩ := delay_of_amount hd hr
  · exact ⟨hlimit.le, .inl hlimit⟩
  · refine ⟨hspan.trans_le (span_le hr hle), .inr ⟨⟨r, hr, hle.trans_lt ?_⟩, hspan⟩⟩
    rw [div_lt_iff₀ (by norm_num)]
    exact_mod_cast hd

/-- The product is finite and without a sign, or not finite. -/
theorem scaled_cases (hd : initial < 2 ^ 64 * Duration.second) (hfactor : Amount factor q)
    (hq : 1 ≤ q) (attempt : ℕ) :
    (scaled initial factor attempt).isFinite = false ∨
      ∃ r, Amount (scaled initial factor attempt) r := by
  rcases Nat.eq_zero_or_pos initial with rfl | hpos
  · cases computed_power hfactor hq (exponent attempt) with
    | finite hpower _ _ => exact .inr ⟨0, scaled_zero hfactor hq hpower.isFinite⟩
    | infinite hpower _ => exact .inl (seconds_zero.zero_mul_infinite hpower)
  · cases computed_scaled hpos hd hfactor hq attempt with
    | finite hr _ _ => exact .inr ⟨_, hr⟩
    | infinite hinfinite _ => exact .inl hinfinite.isFinite

/-! ## How far the delay is off -/

/-- The exact delay, by the exact product in seconds. -/
theorem exact_eq (initial limit : ℕ) (q : ℚ) (attempt : ℕ) :
    exact initial limit q attempt =
      min (limit : ℚ) (initial / Duration.second * q ^ exponent attempt * Duration.second) := by
  have hvalue : (initial : ℚ) / Duration.second * q ^ exponent attempt * Duration.second =
      initial * q ^ exponent attempt := by
    field_simp
  rw [hvalue, exact]

/-- A product that is too large is beyond every limit. -/
theorem limit_le_of_large (hd : limit < 2 ^ 64 * Duration.second) {k : ℕ} (hk : k ≤ 2 ^ 52)
    (hw : 0 ≤ w) (hlarge : 2 ^ 1024 * 2 ^ (-31 : ℤ) ≤ (1 + unit) ^ k * w) :
    (limit : ℚ) ≤ w * Duration.second := by
  have htwice : (1 + unit) ^ k * w ≤ 2 * w := by
    have hshare : (k : ℚ) / 2 ^ 52 ≤ 1 := by
      rw [div_le_one (by norm_num)]
      exact_mod_cast hk
    have hle := (abs_le.mp ((Near.up hw k).abs_sub_le hw hk)).2
    nlinarith
  have hsmall : (2 : ℚ) ^ 65 ≤ 2 ^ 1024 * 2 ^ (-31 : ℤ) := by
    rw [← zpow_natCast, ← zpow_natCast, ← zpow_add₀ two_ne_zero]
    exact zpow_le_zpow_right₀ one_le_two (by norm_num)
  have hlimit : (limit : ℚ) ≤ 2 ^ 64 * Duration.second := by exact_mod_cast hd.le
  refine hlimit.trans (mul_le_mul_of_nonneg_right ?_ (by norm_num))
  generalize (2 : ℚ) ^ 1024 * 2 ^ (-31 : ℤ) = bound at hlarge hsmall
  linarith

/-- A limit that is above the exact value by a share of it at most. -/
theorem abs_limit_sub_min_le {l e share : ℚ} (hl : 0 ≤ l) (hshare : 0 ≤ share)
    (hle : l ≤ e + share * e) : |l - min l e| ≤ share * min l e + 1 / 2 := by
  rcases le_total l e with hmin | hmin
  · rw [min_eq_left hmin, sub_self, abs_zero]
    positivity
  · rw [min_eq_right hmin, abs_of_nonneg (sub_nonneg.mpr hmin)]
    linarith

/-- A value within the limit that is near to the exact one. -/
theorem abs_sub_min_le {d x l e share : ℚ} (hl : 0 ≤ l) (hshare0 : 0 ≤ share)
    (hshare1 : share ≤ 1) (hround : |d - x| ≤ 1 / 2) (hnear : |x - e| ≤ share * e) (hle : d ≤ l) :
    |d - min l e| ≤ share * min l e + 1 / 2 := by
  rw [abs_le] at hround hnear ⊢
  rcases le_total l e with hmin | hmin
  · rw [min_eq_left hmin]
    have hrest := mul_le_mul_of_nonneg_left hmin (sub_nonneg.mpr hshare1)
    have hpart := mul_nonneg hshare0 hl
    constructor <;> linarith
  · rw [min_eq_right hmin]
    constructor <;> linarith

/-- **A delay that was computed is close to the exact one.** -/
theorem abs_delay_sub_le (hd : limit < 2 ^ 64 * Duration.second) {k : ℕ} (hk : k + 2 ≤ 2 ^ 52)
    (hr : Amount (scaled initial factor attempt) r) (hnear : Near k r w) (hw : 0 ≤ w) :
    |(delay initial limit factor attempt : ℚ) - min (limit : ℚ) (w * Duration.second)| ≤
      (k + 2) / 2 ^ 52 * min (limit : ℚ) (w * Duration.second) + 1 / 2 := by
  obtain ⟨f, hf, ⟨hle, hdelay⟩ | ⟨hle, hdelay⟩⟩ := delay_of_amount hd hr
  · have hover := hf.le_of_le hnear hle hw (by omega)
    rw [div_le_iff₀ (by norm_num)] at hover
    rw [hdelay]
    refine abs_limit_sub_min_le limit.cast_nonneg (by positivity) ?_
    push_cast at hover
    linarith
  · have hwithin : (Binary64.span (scaled initial factor attempt) : ℚ) ≤ limit := by
      exact_mod_cast span_le hr hle
    have herror : |r * Duration.second - w * Duration.second| ≤
        (k + 2) / 2 ^ 52 * (w * Duration.second) := by
      have hshare := hnear.abs_sub_le hw (by omega)
      rw [← sub_mul, abs_mul, abs_of_pos (by norm_num : (0 : ℚ) < Duration.second), ← mul_assoc]
      refine mul_le_mul_of_nonneg_right (hshare.trans ?_) (by norm_num)
      gcongr
      linarith
    have hfew : ((k : ℚ) + 2) / 2 ^ 52 ≤ 1 := by
      rw [div_le_one (by norm_num)]
      exact_mod_cast hk
    rw [hdelay]
    exact abs_sub_min_le limit.cast_nonneg (by positivity) hfew (abs_span_sub_le hr) herror hwithin

/-- **The delay is close to the exact one**, wherever the product is a
number. -/
theorem abs_delay_sub_exact_le (hinitial : initial < 2 ^ 64 * Duration.second)
    (hlimit : limit < 2 ^ 64 * Duration.second) (hfactor : Amount factor q) (hq : 1 ≤ q)
    (hnumber : 0 < initial ∨ (Scalar.power factor (exponent attempt)).isFinite = true) :
    |(delay initial limit factor attempt : ℚ) - exact initial limit q attempt| ≤
      (exponent attempt + 5) / 2 ^ 52 * exact initial limit q attempt + 1 / 2 := by
  have hfew := exponent_add_le attempt
  have hcount : ((exponent attempt : ℚ) + 5) = ((exponent attempt + 3 : ℕ) : ℚ) + 2 := by
    push_cast
    ring
  have hw : (0 : ℚ) ≤ initial / Duration.second * q ^ exponent attempt := by positivity
  rw [exact_eq, hcount]
  rcases Nat.eq_zero_or_pos initial with rfl | hpos
  · have hzero := scaled_zero hfactor hq (hnumber.resolve_left (lt_irrefl 0))
    refine abs_delay_sub_le hlimit (by omega) hzero ?_ hw
    rw [Nat.cast_zero, zero_div, zero_mul]
    constructor <;> simp
  · cases computed_scaled hpos hinitial hfactor hq attempt with
    | finite hr _ hnear => exact abs_delay_sub_le hlimit (by omega) hr hnear hw
    | infinite hinfinite hlarge =>
      have hle := limit_le_of_large hlimit (by omega) hw hlarge
      rw [delay_of_not_isFinite hinfinite.isFinite, min_eq_left hle, sub_self, abs_zero]
      positivity

end Backoff

namespace ServiceSettings

variable {s : ServiceSettings}

/-- The growth factor of settings that are usable is a finite number of at
least one. -/
theorem exists_factor (h : s.check = .ok ()) :
    ∃ q, 1 ≤ q ∧ Amount s.retry.backoffFactor q := by
  have hfault : s.fault? = none := by
    rw [check] at h
    split at h
    · assumption
    · cases h
  have havoids : s.avoids .backoffFactor = true := by
    have hall := List.find?_eq_none.mp hfault .backoffFactor (by decide)
    simpa using hall
  obtain ⟨hfinite, hle⟩ := Bool.and_eq_true_iff.mp havoids
  exact exists_amount_of_le hfinite amount_one zero_lt_one (of_decide_eq_true hle)

/-- **The delays follow the formula**: with usable settings no delay is above
the limit, and only what is a number of seconds is turned into a span. The
delay is the initial one times the power of the factor, up to the limit,
but for roundings; with an initial delay of nothing this is so where the
power is finite, and then there is no delay. -/
theorem delay_formula (s : ServiceSettings) (hs : s.check = .ok ())
    (hinitial : s.retry.initialDelay < 2 ^ 64 * Duration.second)
    (hlimit : s.retry.maxDelay < 2 ^ 64 * Duration.second) :
    ∃ factor : ℚ, 1 ≤ factor ∧ Amount s.retry.backoffFactor factor ∧ ∀ attempt,
      let delay := s.retry.delayAfter attempt
      let exponent := min (attempt - 1) 2147483647
      let exact := min (s.retry.maxDelay : ℚ) (s.retry.initialDelay * factor ^ exponent)
      let product := Backoff.scaled s.retry.initialDelay s.retry.backoffFactor attempt
      let power := Scalar.power s.retry.backoffFactor exponent
      delay ≤ s.retry.maxDelay ∧
      (delay = s.retry.maxDelay ∨
        Backoff.IsSeconds product ∧ delay = Binary64.span product) ∧
      (0 < s.retry.initialDelay ∨ power.isFinite = true →
        |(delay : ℚ) - exact| ≤ (exponent + 5) / 2 ^ 52 * exact + 1 / 2) ∧
      (s.retry.initialDelay = 0 → power.isFinite = true → delay = 0) := by
  obtain ⟨factor, hone, hfactor⟩ := exists_factor hs
  refine ⟨factor, hone, hfactor, fun attempt => ?_⟩
  intro delay exponent exact product power
  have hcases := Backoff.scaled_cases hinitial hfactor hone attempt
  obtain ⟨hle, hspan⟩ := Backoff.delay_le hlimit hcases
  have hclose (hnumber : 0 < s.retry.initialDelay ∨ power.isFinite = true) :
      |(delay : ℚ) - exact| ≤ (exponent + 5) / 2 ^ 52 * exact + 1 / 2 :=
    Backoff.abs_delay_sub_exact_le hinitial hlimit hfactor hone hnumber
  refine ⟨hle, hspan, hclose, fun hzero hfinite => ?_⟩
  have hexact : exact = 0 := by
    have hlimit0 : (0 : ℚ) ≤ s.retry.maxDelay := Nat.cast_nonneg _
    simp [exact, hzero, hlimit0]
  have hhalf := hclose (.inr hfinite)
  rw [hexact, sub_zero, mul_zero, zero_add, Nat.abs_cast] at hhalf
  have hlt : (delay : ℚ) < 1 := by linarith
  exact Nat.lt_one_iff.mp (by exact_mod_cast hlt)

/-- The delay after the third attempt, if nobody changes anything. -/
theorem third_delay_close :
    ({} : ServiceSettings).check = .ok () ∧
      ({} : ServiceSettings).retry.initialDelay < 2 ^ 64 * Duration.second ∧
      ({} : ServiceSettings).retry.maxDelay < 2 ^ 64 * Duration.second ∧
      |(({} : ServiceSettings).retry.delayAfter 3 : ℚ) - 4000000000| ≤
        7 / 2 ^ 52 * 4000000000 + 1 / 2 := by
  have husable : ({} : ServiceSettings).check = .ok () := by decide +kernel
  have hinitial : ({} : ServiceSettings).retry.initialDelay < 2 ^ 64 * Duration.second := by decide
  have hlimit : ({} : ServiceSettings).retry.maxDelay < 2 ^ 64 * Duration.second := by decide
  obtain ⟨factor, -, hfactor, hdelays⟩ := delay_formula {} husable hinitial hlimit
  have htwo : Amount ({} : ServiceSettings).retry.backoffFactor 2 :=
    ⟨⟨false, 2 ^ 52, -51⟩, by decide +kernel, rfl, by norm_num⟩
  obtain rfl := hfactor.unique htwo
  obtain ⟨-, -, hclose, -⟩ := hdelays 3
  have hnumber := hclose (.inl (by decide))
  have hexponent : min (3 - 1) 2147483647 = 2 := rfl
  have hinitial' : (({} : ServiceSettings).retry.initialDelay : ℚ) = 1000000000 := by
    exact_mod_cast (rfl : ({} : ServiceSettings).retry.initialDelay = 1000000000)
  have hlimit' : (({} : ServiceSettings).retry.maxDelay : ℚ) = 30000000000 := by
    exact_mod_cast (rfl : ({} : ServiceSettings).retry.maxDelay = 30000000000)
  have hexact : min (30000000000 : ℚ) (1000000000 * 2 ^ 2) = 4000000000 := by norm_num
  rw [hexponent, hinitial', hlimit', hexact] at hnumber
  refine ⟨husable, hinitial, hlimit, hnumber.trans_eq ?_⟩
  norm_num

theorem seven_le_pow {n : ℕ} (h : 67108863 * 64 ≤ n) : 7 ≤ (1 + 1 / 2 ^ 31 : ℚ) ^ n := by
  have hbernoulli := one_add_mul_le_pow (by norm_num : (-2 : ℚ) ≤ 1 / 2 ^ 31) 67108863
  have hnumeral : (7 : ℚ) ≤ (1 + (67108863 : ℕ) * (1 / 2 ^ 31)) ^ 64 := by norm_num
  calc (7 : ℚ) ≤ ((1 + 1 / 2 ^ 31) ^ 67108863) ^ 64 :=
        hnumeral.trans (pow_le_pow_left₀ (by positivity) hbernoulli 64)
    _ = (1 + 1 / 2 ^ 31) ^ (67108863 * 64) := (pow_mul ..).symm
    _ ≤ (1 + 1 / 2 ^ 31) ^ n := pow_le_pow_right₀ (by norm_num) h

/-- A delay that grows very slowly. -/
def slowGrowth : ServiceSettings :=
  { retry := { initialDelay := Duration.ofSecs 1
               backoffFactor := 1.0000000004656612873077392578125
               maxDelay := Duration.ofSecs 1000 } }

/-- **The exponent does not grow with the attempts for ever**: after the
last attempt that can be counted the delay is less than three seconds, and
the power with the number of attempts before is above seven. -/
theorem last_delay_short :
    slowGrowth.check = .ok () ∧
      slowGrowth.retry.delayAfter 4294967295 = 2718281807 ∧
      ∃ factor : ℚ, Amount slowGrowth.retry.backoffFactor factor ∧
        7000000000 ≤ min (slowGrowth.retry.maxDelay : ℚ)
          (slowGrowth.retry.initialDelay * factor ^ (4294967295 - 1)) := by
  refine ⟨by decide +kernel, by decide +kernel, 1 + 1 / 2 ^ 31, ?_, ?_⟩
  · exact ⟨⟨false, 2 ^ 52 + 2 ^ 21, -52⟩, by decide +kernel, rfl, by norm_num⟩
  · have hinitial : (slowGrowth.retry.initialDelay : ℚ) = 1000000000 := by
      exact_mod_cast (rfl : slowGrowth.retry.initialDelay = 1000000000)
    have hlimit : (slowGrowth.retry.maxDelay : ℚ) = 1000000000000 := by
      exact_mod_cast (rfl : slowGrowth.retry.maxDelay = 1000000000000)
    have hpower : (7 : ℚ) ≤ (1 + 1 / 2 ^ 31) ^ (4294967295 - 1) := seven_le_pow (by norm_num)
    rw [hinitial, hlimit, le_min_iff]
    generalize (1 + 1 / 2 ^ 31 : ℚ) ^ (4294967295 - 1) = power at hpower
    constructor <;> linarith

end ServiceSettings

end CapabilityBroker
