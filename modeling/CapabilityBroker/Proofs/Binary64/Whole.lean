import CapabilityBroker.Proofs.Binary64.Arithmetic
import CapabilityBroker.Time.Scalar
/-!
# Whole numbers in binary64

The floor of a number is exact, whatever the number is (`Amount.floor`). So
are sums of whole numbers as long as they have 53 binary digits at most; a
longer sum is not below any number of so many digits, so the lesser of it and
such a number is exact again (`amount_least`).
-/

namespace CapabilityBroker

namespace Binary64

variable {x y z : Float} {q : ℚ} {m n c : ℕ}

/-- **The floor of a number is exact.** -/
theorem Amount.floor (h : Amount x q) : Amount (floor x) ⌊q⌋₊ := by
  have hx := h
  obtain ⟨b, hsome, hsign, rfl⟩ := h
  have hshort : b.significand < 2 ^ 53 := by
    rcases unpack_cases x with ⟨hnone, -⟩ | ⟨b', hsome', -, hcanonical⟩
    · rw [hnone] at hsome
      cases hsome
    · obtain rfl := Option.some.inj (hsome.symm.trans hsome')
      exact hcanonical.short
  simp only [Binary64.floor, hsome, hsign, Bool.false_eq_true, if_false]
  rcases le_or_gt 0 b.exponent with hwhole | hpart
  · obtain ⟨k, hk⟩ := Int.eq_ofNat_of_zero_le hwhole
    have hvalue : (b.significand : ℚ) * 2 ^ b.exponent = (b.significand * 2 ^ k : ℕ) := by
      rw [hk]
      push_cast
      rfl
    rw [if_pos hwhole, hvalue, Nat.floor_natCast, ← hvalue]
    exact hx
  · obtain ⟨k, hk⟩ := Int.exists_eq_neg_ofNat hpart.le
    have hvalue : (b.significand : ℚ) * 2 ^ b.exponent = b.significand / (2 ^ k : ℕ) := by
      rw [hk, zpow_neg, zpow_natCast, ← div_eq_mul_inv]
      push_cast
      rfl
    have hunit : (-b.exponent).toNat = k := by omega
    rw [if_neg (not_le.mpr hpart), hvalue, Nat.floor_div_eq_div, hunit]
    exact amount_natCast ((Nat.div_le_self _ _).trans_lt hshort)

/-- A sum that is not above a number of 53 binary digits is exact. -/
theorem amount_least (hx : Amount x m) (hy : Amount y n) (hz : Amount z c) (hm : m < 2 ^ 53)
    (hc : c < 2 ^ 53) (hrange : (n : ℚ) ≤ 2 ^ 200) :
    Amount (Scalar.least (x + y) z) (min (m + n) c : ℕ) := by
  have hroom : (m : ℚ) + n ≤ 2 ^ (201 : ℤ) := by
    have hm' : (m : ℚ) ≤ 2 ^ 53 := by exact_mod_cast hm.le
    have hdouble : (2 : ℚ) ^ (201 : ℤ) = 2 ^ 200 + 2 ^ 200 := by norm_num
    have hsmall : (2 : ℚ) ^ 53 ≤ 2 ^ 200 := by norm_num
    rw [hdouble]
    exact add_le_add (hm'.trans hsmall) hrange
  obtain ⟨s, hs, hsw⟩ := (hx.add hy).amount (onGrid_two_zpow (by norm_num)) hroom
    (in_range_of_le (by norm_num))
  have hbelow : Scalar.below z (x + y) = true ↔ (c : ℚ) < s :=
    decide_eq_true_iff.trans (hz.lt_iff hsw)
  rcases le_or_gt (m + n) c with hle | hgt
  · have hexact : s = (m + n : ℕ) := by
      have hgrid : OnGrid (m + n : ℕ) := onGrid_natCast (hle.trans_lt hc)
      push_cast at hgrid ⊢
      exact hs.eq_of_onGrid hgrid
    have hfits : ¬ Scalar.below z (x + y) = true := by
      rw [hbelow, hexact, not_lt]
      exact_mod_cast hle
    rw [Scalar.least, if_neg hfits, min_eq_left hle, ← hexact]
    exact hsw
  · have hcs : (c : ℚ) ≤ s := hs.le_of_le (onGrid_natCast hc) (by exact_mod_cast hgt.le)
    rw [Scalar.least, min_eq_right hgt.le]
    split
    · exact hz
    · next hfits =>
      rw [hbelow, not_lt] at hfits
      rwa [← le_antisymm hfits hcs]

/-- One less is exact. -/
theorem Amount.sub_one (hx : Amount x n) (hpos : 1 ≤ n) (hn : n < 2 ^ 53) :
    Amount (x - Scalar.ofNat 1) (n - 1 : ℕ) := by
  have hone : Amount (Scalar.ofNat 1 : Float) 1 := amount_one
  have hle : (1 : ℚ) ≤ n := by exact_mod_cast hpos
  have hless : (n - 1 : ℕ) < 2 ^ 53 := (Nat.sub_le n 1).trans_lt hn
  have hdifference := hx.sub hone hle
  rw [← Nat.cast_one, ← Nat.cast_sub hpos] at hdifference
  exact hdifference.exact (onGrid_natCast hless)
    (in_range_of_le (by exact_mod_cast hless.le.trans (by norm_num)))

end Binary64

end CapabilityBroker
