import CapabilityBroker.Proofs.Binary64.Grid
/-!
# Errors that add up

A number that came about in a computation is off by as many roundings as
there were on the way to it (`Near`). Factors bring their roundings into a
product, and each rounding adds one. As long as there are not too many of
them their shares add up, to twice their sum at most
(`Near.abs_sub_le`, `Near.le_of_le`).
-/

namespace CapabilityBroker

namespace Binary64

/-- A number is off from another by at most a number of roundings. -/
structure Near (k : ℕ) (x w : ℚ) : Prop where
  lower : (1 - unit) ^ k * w ≤ x
  upper : x ≤ (1 + unit) ^ k * w

variable {x y v w r : ℚ} {j k : ℕ}

theorem unit_pos : 0 < unit := by
  rw [unit_eq]
  norm_num

theorem unit_lt_one : unit < 1 := by
  rw [unit_eq]
  norm_num

theorem one_sub_unit_pos : 0 < 1 - unit := sub_pos.mpr unit_lt_one

theorem one_add_unit_pos : 0 < 1 + unit := by
  have hpos := unit_pos
  linarith

/-- The first digit of a share of roundings. -/
theorem one_sub_le (k : ℕ) : 1 - k * unit ≤ (1 - unit) ^ k := by
  have hbernoulli := one_add_mul_le_pow (by linarith [unit_lt_one] : (-2 : ℚ) ≤ -unit) k
  rw [← sub_eq_add_neg] at hbernoulli
  linarith

/-- A rounding up and a rounding down do not make a number larger. -/
theorem up_down_le_one (k : ℕ) : (1 - unit) ^ k * (1 + unit) ^ k ≤ 1 := by
  rw [← mul_pow]
  have hpos := unit_pos
  have hlt := unit_lt_one
  refine pow_le_one₀ (mul_nonneg (by linarith) (by linarith)) ?_
  nlinarith

/-- The number that a number is rounded to is off by one rounding, if all
its digits are there. -/
theorem Nearest.near (h : Nearest x r) (hx : x = 0 ∨ 2 ^ (-1022 : ℤ) ≤ x) : Near 1 r x := by
  rcases hx with rfl | hx
  · rw [h.eq_of_onGrid onGrid_zero]
    constructor <;> simp
  · exact ⟨by rw [pow_one]; exact h.lower hx, by rw [pow_one]; exact h.upper hx⟩

namespace Near

theorem refl (x : ℚ) : Near 0 x x := by
  constructor <;> simp

/-- As many roundings up as there are, -/
theorem up (hw : 0 ≤ w) (k : ℕ) : Near k ((1 + unit) ^ k * w) w where
  lower := mul_le_mul_of_nonneg_right
    (pow_le_pow_left₀ one_sub_unit_pos.le (by linarith [unit_pos]) k) hw
  upper := le_rfl

theorem nonneg (h : Near k x w) (hw : 0 ≤ w) : 0 ≤ x :=
  (mul_nonneg (pow_nonneg one_sub_unit_pos.le k) hw).trans h.lower

theorem mul (hx : Near j x v) (hy : Near k y w) (hv : 0 ≤ v) (hw : 0 ≤ w) :
    Near (j + k) (x * y) (v * w) where
  lower := by
    have hdown := pow_nonneg one_sub_unit_pos.le
    calc (1 - unit) ^ (j + k) * (v * w) = (1 - unit) ^ j * v * ((1 - unit) ^ k * w) := by
          rw [pow_add]; ring
      _ ≤ x * y := mul_le_mul hx.lower hy.lower (mul_nonneg (hdown k) hw) (hx.nonneg hv)
  upper := by
    have hup := pow_nonneg one_add_unit_pos.le
    calc x * y ≤ (1 + unit) ^ j * v * ((1 + unit) ^ k * w) :=
          mul_le_mul hx.upper hy.upper (hy.nonneg hw) (mul_nonneg (hup j) hv)
      _ = (1 + unit) ^ (j + k) * (v * w) := by rw [pow_add]; ring

theorem add (hx : Near k x v) (hy : Near k y w) : Near k (x + y) (v + w) where
  lower := by
    rw [mul_add]
    exact add_le_add hx.lower hy.lower
  upper := by
    rw [mul_add]
    exact add_le_add hx.upper hy.upper

theorem trans (hx : Near j x y) (hy : Near k y w) : Near (j + k) x w where
  lower := by
    rw [pow_add, mul_assoc]
    exact (mul_le_mul_of_nonneg_left hy.lower (pow_nonneg one_sub_unit_pos.le j)).trans hx.lower
  upper := by
    rw [pow_add, mul_assoc]
    exact hx.upper.trans (mul_le_mul_of_nonneg_left hy.upper (pow_nonneg one_add_unit_pos.le j))

/-- **Where computed numbers are in order** the exact ones are, but for the
shares of their roundings. -/
theorem le_of_le (hx : Near j x v) (hy : Near k y w) (hle : x ≤ y) (hw : 0 ≤ w)
    (hfew : j + k ≤ 2 ^ 52) : v ≤ (1 + (j + k) / 2 ^ 52) * w := by
  set share : ℚ := (j + k : ℕ) * unit with hshare
  have hunit := unit_pos
  have hdown := pow_nonneg one_sub_unit_pos.le
  have hshare0 : 0 ≤ share := by positivity
  have hshare1 : share ≤ 1 / 2 := by
    have hcast : ((j + k : ℕ) : ℚ) ≤ 2 ^ 52 := by exact_mod_cast hfew
    rw [hshare, unit_eq]
    linarith
  have hdouble : ((j : ℚ) + k) / 2 ^ 52 = 2 * share := by
    rw [hshare, unit_eq]
    push_cast
    ring
  rw [hdouble]
  rcases le_or_gt v 0 with hv | hv
  · exact hv.trans (by positivity)
  have hcross : (1 - share) * v ≤ w := by
    calc (1 - share) * v ≤ (1 - unit) ^ (j + k) * v :=
          mul_le_mul_of_nonneg_right (one_sub_le (j + k)) hv.le
      _ = (1 - unit) ^ k * ((1 - unit) ^ j * v) := by rw [pow_add]; ring
      _ ≤ (1 - unit) ^ k * ((1 + unit) ^ k * w) :=
          mul_le_mul_of_nonneg_left (hx.lower.trans (hle.trans hy.upper)) (hdown k)
      _ = (1 - unit) ^ k * (1 + unit) ^ k * w := by ring
      _ ≤ 1 * w := mul_le_mul_of_nonneg_right (up_down_le_one k) hw
      _ = w := one_mul w
  -- `1 ≤ (1 - share) (1 + 2 share)` for shares up to a half
  nlinarith [mul_nonneg hshare0 (sub_nonneg.mpr hshare1)]

/-- **The error of a computed number**, as a share of the exact one. -/
theorem abs_sub_le (h : Near k x w) (hw : 0 ≤ w) (hfew : k ≤ 2 ^ 52) :
    |x - w| ≤ k / 2 ^ 52 * w := by
  have hupper := (refl x).le_of_le h le_rfl hw (by omega)
  have hlower := (mul_le_mul_of_nonneg_right (one_sub_le k) hw).trans h.lower
  have hshare : (k : ℚ) * unit * w ≤ k / 2 ^ 52 * w := by
    rw [unit_eq]
    have hk : (0 : ℚ) ≤ k := Nat.cast_nonneg k
    nlinarith [mul_nonneg hk hw]
  rw [abs_le]
  push_cast at hupper
  constructor <;> linarith

end Near

end Binary64

end CapabilityBroker
