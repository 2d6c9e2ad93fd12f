import CapabilityBroker.Proofs.Binary64.Spans
/-!
# Products and powers in binary64

A product of many factors is off by the roundings of its factors and one
for each multiplication, as long as it stays large enough for all its
digits (`Computed`). It may become too large; then it is infinite from
there on, and the exact product is too large as well, but for the shares
of the roundings. A power by squaring has fewer multiplications than its
exponent, but the roundings of a square count twice: in all there is one
rounding for each factor (`computed_power`).
-/

namespace CapabilityBroker

namespace Binary64

/-- A word that a number was computed as: a finite one that is
`2 ^ (-i)` at least and off by `k` roundings, or the infinite one, as the
number is too large. -/
inductive Computed (i k : ℕ) (x : Float) (w : ℚ) : Prop
  | finite {q : ℚ} (amount : Amount x q) (least : 2 ^ (-i : ℤ) ≤ q) (near : Near k q w)
  | infinite (infinite : IsInfinite x) (large : 2 ^ 1024 * 2 ^ (-i : ℤ) ≤ (1 + unit) ^ k * w)

variable {x y : Float} {v w p q : ℚ} {i j k l n fuel : ℕ}

namespace Computed

theorem least_le (h : Computed i k x w) : 2 ^ (-i : ℤ) ≤ (1 + unit) ^ k * w := by
  cases h with
  | finite amount least near => exact least.trans near.upper
  | infinite _ large =>
    refine le_trans (le_mul_of_one_le_left (by positivity) ?_) large
    exact one_le_pow₀ one_le_two

theorem pos (h : Computed i k x w) : 0 < w := by
  have hup : 0 < (1 + unit) ^ k := pow_pos one_add_unit_pos k
  have hleast : (0 : ℚ) < 2 ^ (-i : ℤ) := by positivity
  exact pos_of_mul_pos_right (hleast.trans_le h.least_le) hup.le

/-- Numbers that are not small make a product that is not. -/
theorem two_zpow_neg_add (i j : ℕ) :
    (2 : ℚ) ^ (-(i + j : ℕ) : ℤ) = 2 ^ (-i : ℤ) * 2 ^ (-j : ℤ) := by
  rw [← zpow_add₀ two_ne_zero]
  push_cast
  ring_nf

/-- A product with a factor that is too large is too large. -/
theorem large_mul (hx : 2 ^ 1024 * 2 ^ (-i : ℤ) ≤ (1 + unit) ^ k * v)
    (hy : 2 ^ (-j : ℤ) ≤ (1 + unit) ^ l * w) :
    2 ^ 1024 * 2 ^ (-(i + j : ℕ) : ℤ) ≤ (1 + unit) ^ (k + l + 1) * (v * w) := by
  have hleast : (0 : ℚ) < 2 ^ (-i : ℤ) ∧ (0 : ℚ) < 2 ^ (-j : ℤ) := ⟨by positivity, by positivity⟩
  have hx0 : 0 < (1 + unit) ^ k * v := lt_of_lt_of_le (by positivity) hx
  have hy0 : 0 < (1 + unit) ^ l * w := hleast.2.trans_le hy
  calc (2 : ℚ) ^ 1024 * 2 ^ (-(i + j : ℕ) : ℤ)
      = 2 ^ 1024 * 2 ^ (-i : ℤ) * 2 ^ (-j : ℤ) := by rw [two_zpow_neg_add, mul_assoc]
    _ ≤ (1 + unit) ^ k * v * ((1 + unit) ^ l * w) := mul_le_mul hx hy hleast.2.le hx0.le
    _ ≤ (1 + unit) * ((1 + unit) ^ k * v * ((1 + unit) ^ l * w)) :=
        le_mul_of_one_le_left (mul_pos hx0 hy0).le (le_add_of_nonneg_right unit_pos.le)
    _ = (1 + unit) ^ (k + l + 1) * (v * w) := by ring

/-- The rounded product of two finite numbers. -/
theorem of_rounded (hx : 2 ^ (-i : ℤ) ≤ p) (hp : Near k p v) (hy : 2 ^ (-j : ℤ) ≤ q)
    (hq : Near l q w) (hv : 0 < v) (hw : 0 < w) (h : Rounded (p * q) x) (hij : i + j ≤ 1022) :
    Computed (i + j) (k + l + 1) x (v * w) := by
  obtain ⟨r, hnear, hr⟩ := h
  have hleast : 2 ^ (-(i + j : ℕ) : ℤ) ≤ p * q := by
    rw [two_zpow_neg_add]
    exact mul_le_mul hx hy (by positivity) ((by positivity : (0 : ℚ) ≤ 2 ^ (-i : ℤ)).trans hx)
  have hnormal : (2 : ℚ) ^ (-1022 : ℤ) ≤ p * q :=
    (zpow_le_zpow_right₀ one_le_two (by omega)).trans hleast
  have hr' : Near (k + l + 1) r (v * w) := by
    rw [Nat.add_comm]
    exact (hnear.near (.inr hnormal)).trans (hp.mul hq hv.le hw.le)
  split at hr
  · exact .finite hr (hnear.le_of_le (onGrid_two_zpow (by omega)) hleast) hr'
  · next hge =>
    refine .infinite hr (le_trans ?_ ((not_lt.mp hge).trans hr'.upper))
    exact mul_le_of_le_one_right (by positivity) (zpow_le_one_of_nonpos₀ one_le_two (by omega))

/-- **A product is off by the roundings of its factors and one more.** -/
theorem mul (hx : Computed i k x v) (hy : Computed j l y w) (hij : i + j ≤ 1022) :
    Computed (i + j) (k + l + 1) (x * y) (v * w) := by
  have hxleast := hx.least_le
  have hyleast := hy.least_le
  have hv := hx.pos
  have hw := hy.pos
  cases hx with
  | finite hp hpleast hpnear =>
    cases hy with
    | finite hq hqleast hqnear =>
      exact of_rounded hpleast hpnear hqleast hqnear hv hw (hp.mul hq) hij
    | infinite hinfinite hlarge =>
      have hproduct := large_mul hlarge hxleast
      rw [Nat.add_comm j i, Nat.add_comm l k, mul_comm w v] at hproduct
      exact .infinite (hp.mul_infinite (lt_of_lt_of_le (by positivity) hpleast) hinfinite) hproduct
  | infinite hinfinite hlarge =>
    refine .infinite ?_ (large_mul hlarge hyleast)
    cases hy with
    | finite hq hqleast _ =>
      exact hinfinite.mul_amount hq (lt_of_lt_of_le (by positivity) hqleast)
    | infinite hinfinite' _ => exact hinfinite.mul hinfinite'

/-- A number of at least one, exactly. -/
theorem of_one_le (h : Amount x q) (hq : 1 ≤ q) : Computed 0 0 x q :=
  .finite h (by simpa using hq) (.refl q)

/-- Squaring and multiplying on: a factor brings in its roundings and one
more as often as it is multiplied with. -/
theorem power_go (fuel : ℕ) (hx : Computed 0 k x v) (hy : Computed 0 l y w) (hn : n < 2 ^ fuel) :
    Computed 0 (l + n * (k + 1)) (Scalar.power.go x y n fuel) (w * v ^ n) := by
  induction fuel generalizing x y v w k l n with
  | zero =>
    obtain rfl : n = 0 := by omega
    simpa [Scalar.power.go] using hy
  | succ fuel ih =>
    have hproduct : Computed 0 (l + n % 2 * (k + 1)) (if n % 2 = 1 then y * x else y)
        (w * v ^ (n % 2)) := by
      rcases Nat.mod_two_eq_zero_or_one n with heven | hodd
      · rw [heven]
        simpa using hy
      · rw [hodd, if_pos rfl, pow_one, one_mul, ← Nat.add_assoc]
        exact hy.mul hx (by omega)
    have hdigits : n % 2 + 2 * (n / 2) = n := Nat.mod_add_div n 2
    rw [Scalar.power.go]
    split
    · next hlast =>
      have hn1 : n % 2 = n := by omega
      simpa only [hn1] using hproduct
    · have hrest := ih (hx.mul hx (by omega)) hproduct (by omega : n / 2 < 2 ^ fuel)
      have hcount : l + n % 2 * (k + 1) + n / 2 * (k + k + 1 + 1) = l + n * (k + 1) := by
        nlinarith
      have hvalue : w * v ^ (n % 2) * (v * v) ^ (n / 2) = w * v ^ n := by
        rw [← pow_two, ← pow_mul, mul_assoc, ← pow_add, hdigits]
      rwa [hcount, hvalue] at hrest

end Computed

/-- **A power is off by one rounding for each factor**, or infinite. -/
theorem computed_power (h : Amount x q) (hq : 1 ≤ q) (n : ℕ) :
    Computed 0 n (Scalar.power x n) (q ^ n) := by
  have hone : Computed 0 0 (Scalar.ofNat 1 : Float) 1 := .of_one_le amount_one le_rfl
  have hpower := Computed.power_go n (.of_one_le h hq) hone Nat.lt_two_pow_self
  rwa [Nat.zero_add, Nat.mul_one, one_mul] at hpower

end Binary64

end CapabilityBroker
