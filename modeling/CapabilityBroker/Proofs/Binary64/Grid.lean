import Mathlib.Algebra.Order.Field.Power
import Mathlib.Data.Int.Log
import Mathlib.Data.Rat.Floor
import Mathlib.Tactic.Linarith
import Mathlib.Tactic.NormNum
import Mathlib.Tactic.Positivity
import Mathlib.Tactic.Ring
/-!
# The grid of binary64

The numbers without a sign that binary64 has significands for, whatever
their size, are a grid (`OnGrid`): 53 binary digits, and none of them
below the one worth `2 ^ -1074`. Rounding leads to a number on the grid
with none nearer (`Nearest`). Which of two that are equally near is taken
matters to nothing here: rounding passes no number of the grid
(`Nearest.le_of_le`, `Nearest.ge_of_ge`), and from `2 ^ -1022` on it is off
by a share of `2 ^ -53` at most (`Nearest.error`).
-/

namespace CapabilityBroker

namespace Binary64

/-- A number without a sign, of 53 binary digits. -/
def OnGrid (x : ℚ) : Prop := ∃ (m : ℕ) (e : ℤ), m < 2 ^ 53 ∧ -1074 ≤ e ∧ x = m * 2 ^ e

/-- **What a number is rounded to**: one on the grid, with none nearer. -/
structure Nearest (x r : ℚ) : Prop where
  onGrid : OnGrid r
  nearest : ∀ g, OnGrid g → |x - r| ≤ |x - g|

/-- The greatest share of a number that rounding changes it by. -/
def unit : ℚ := 2 ^ (-53 : ℤ)

theorem unit_eq : unit = 1 / 9007199254740992 := by
  norm_num [unit]

variable {x y r s g h : ℚ}

theorem zpow_split (e : ℤ) (n : ℕ) : (2 : ℚ) ^ (e + n) = 2 ^ n * 2 ^ e := by
  rw [zpow_add₀ two_ne_zero, zpow_natCast, mul_comm]

/-! ## Points of the grid -/

theorem OnGrid.nonneg (hx : OnGrid x) : 0 ≤ x := by
  obtain ⟨m, e, -, -, rfl⟩ := hx
  positivity

theorem onGrid_zero : OnGrid 0 := ⟨0, 0, by norm_num, by norm_num, by norm_num⟩

theorem onGrid_one : OnGrid 1 := ⟨1, 0, by norm_num, by norm_num, by norm_num⟩

theorem onGrid_two_zpow {e : ℤ} (he : -1074 ≤ e) : OnGrid (2 ^ e) :=
  ⟨1, e, by norm_num, he, by rw [Nat.cast_one, one_mul]⟩

/-- Whole numbers of 53 binary digits are on the grid. -/
theorem onGrid_natCast {n : ℕ} (hn : n < 2 ^ 53) : OnGrid n :=
  ⟨n, 0, hn, by norm_num, by simp⟩

/-- So is a significand that has just become too long. -/
theorem onGrid_of_le {m : ℕ} {e : ℤ} (hm : m ≤ 2 ^ 53) (he : -1074 ≤ e) :
    OnGrid (m * 2 ^ e) := by
  rcases hm.lt_or_eq with hlt | rfl
  · exact ⟨m, e, hlt, he, rfl⟩
  · refine ⟨2 ^ 52, e + 1, by norm_num, by omega, ?_⟩
    have hsplit := zpow_split e 1
    push_cast at hsplit ⊢
    rw [hsplit]
    ring

/-- Beyond a power of two the points are whole multiples of its last
digit. -/
theorem OnGrid.exists_multiple {k : ℤ} (hx : OnGrid x) (hk : 2 ^ k ≤ x) :
    ∃ n : ℕ, x = n * 2 ^ (k - 52) := by
  obtain ⟨m, e, hm, -, rfl⟩ := hx
  have hm' : (m : ℚ) < 2 ^ (53 : ℤ) := by exact_mod_cast hm
  have hlt : (2 : ℚ) ^ k < 2 ^ (53 + e) := by
    rw [zpow_add₀ two_ne_zero]
    exact hk.trans_lt (mul_lt_mul_of_pos_right hm' (by positivity))
  have hke : k < 53 + e := (zpow_lt_zpow_iff_right₀ one_lt_two).mp hlt
  obtain ⟨n, hn⟩ : ∃ n : ℕ, e = (k - 52) + n := ⟨(e - (k - 52)).toNat, by omega⟩
  refine ⟨m * 2 ^ n, ?_⟩
  rw [hn, zpow_split]
  push_cast
  ring

/-- So two of them are a last digit apart. -/
theorem OnGrid.apart {k : ℤ} (hg : OnGrid g) (hr : OnGrid r) (hk : 2 ^ k ≤ g) (hlt : g < r) :
    g + 2 ^ (k - 52) ≤ r := by
  obtain ⟨m, rfl⟩ := hg.exists_multiple hk
  obtain ⟨n, rfl⟩ := hr.exists_multiple (hk.trans hlt.le)
  have hpos : (0 : ℚ) < 2 ^ (k - 52) := by positivity
  have hmn : m < n := by exact_mod_cast lt_of_mul_lt_mul_right hlt hpos.le
  have hsucc : (m : ℚ) + 1 ≤ n := by exact_mod_cast hmn
  nlinarith

/-! ## Rounding -/

namespace Nearest

/-- Rounding passes no number of the grid on its way down, -/
theorem le_of_le (hr : Nearest x r) (hg : OnGrid g) (hle : g ≤ x) : g ≤ r := by
  by_contra hlt
  have hnear := hr.nearest g hg
  rw [not_le] at hlt
  rw [abs_of_nonneg (by linarith), abs_of_nonneg (by linarith)] at hnear
  linarith

/-- and none on its way up. -/
theorem ge_of_ge (hr : Nearest x r) (hg : OnGrid g) (hle : x ≤ g) : r ≤ g := by
  by_contra hlt
  have hnear := hr.nearest g hg
  rw [not_le] at hlt
  rw [abs_of_nonpos (by linarith), abs_of_nonpos (by linarith)] at hnear
  linarith

theorem eq_of_onGrid (hr : Nearest x r) (hx : OnGrid x) : r = x :=
  le_antisymm (hr.ge_of_ge hx le_rfl) (hr.le_of_le hx le_rfl)

theorem of_onGrid (hx : OnGrid x) : Nearest x x where
  onGrid := hx
  nearest g _ := by simp

theorem nonneg (hr : Nearest x r) : 0 ≤ r := hr.onGrid.nonneg

/-- What is between two numbers is rounded to what is between what they are
rounded to. -/
theorem mono (hr : Nearest x r) (hs : Nearest y s) (hlt : x < y) : r ≤ s := by
  by_contra hcross
  rw [not_le] at hcross
  have hx := hr.nearest s hs.onGrid
  have hy := hs.nearest r hr.onGrid
  -- the one lies above the middle of the two, the other one below it
  have habove : s + r ≤ 2 * x := by
    rcases abs_cases (x - r) with ⟨h1, h2⟩ | ⟨h1, h2⟩ <;>
      rcases abs_cases (x - s) with ⟨h3, h4⟩ | ⟨h3, h4⟩ <;> linarith
  have hbelow : 2 * y ≤ s + r := by
    rcases abs_cases (y - r) with ⟨h1, h2⟩ | ⟨h1, h2⟩ <;>
      rcases abs_cases (y - s) with ⟨h3, h4⟩ | ⟨h3, h4⟩ <;> linarith
  linarith

/-- Where it leads beyond a number of the grid, it leads to the next one
only from half way on. -/
theorem add_le_of_lt (hr : Nearest x r) (hg : OnGrid g) (hlt : g < r) : g + r ≤ 2 * x := by
  have hx := hr.nearest g hg
  rcases abs_cases (x - r) with ⟨h1, h2⟩ | ⟨h1, h2⟩ <;>
    rcases abs_cases (x - g) with ⟨h3, h4⟩ | ⟨h3, h4⟩ <;> linarith

end Nearest

/-- Of the whole multiples of a digit the one for the nearest whole number is
the nearest. -/
theorem nearest_multiple {n : ℕ} {e : ℤ} (hround : |x / 2 ^ e - n| ≤ 1 / 2) (k : ℕ) :
    |x - n * 2 ^ e| ≤ |x - k * 2 ^ e| := by
  have hdigit : (0 : ℚ) < 2 ^ e := by positivity
  have hscale (z : ℚ) : |x - z * 2 ^ e| = |x / 2 ^ e - z| * 2 ^ e := by
    rw [← abs_of_pos hdigit, ← abs_mul, abs_of_pos hdigit, sub_mul, div_mul_cancel₀ _ hdigit.ne']
  rw [hscale, hscale]
  refine mul_le_mul_of_nonneg_right ?_ hdigit.le
  rcases eq_or_ne k n with rfl | hne
  · exact le_rfl
  · have hapart : (1 : ℚ) ≤ |(n : ℚ) - k| := by
      have hint : (1 : ℤ) ≤ |(n : ℤ) - k| := Int.one_le_abs (by omega)
      exact_mod_cast hint
    have htriangle := abs_sub_abs_le_abs_sub ((n : ℚ) - k) (n - x / 2 ^ e)
    rw [sub_sub_sub_cancel_left, abs_sub_comm (n : ℚ) (x / 2 ^ e)] at htriangle
    linarith

/-- A point that is no multiple of a digit is below all of its 53
digits. -/
theorem OnGrid.multiple_or_le (hg : OnGrid g) (e : ℤ) :
    (∃ k : ℕ, g = k * 2 ^ e) ∨ -1074 < e ∧ g ≤ 2 ^ 52 * 2 ^ e := by
  obtain ⟨m, f, hm, hf, rfl⟩ := hg
  rcases le_or_gt e f with hef | hef
  · obtain ⟨j, rfl⟩ : ∃ j : ℕ, f = e + j := ⟨(f - e).toNat, by omega⟩
    refine .inl ⟨m * 2 ^ j, ?_⟩
    rw [zpow_split]
    push_cast
    ring
  · have hm' : (m : ℚ) ≤ 2 ^ 53 := by exact_mod_cast hm.le
    have hfe : (2 : ℚ) ^ f ≤ 2 ^ (e - 1) := zpow_le_zpow_right₀ one_le_two (by omega)
    have hhalf : (2 : ℚ) ^ e = 2 * 2 ^ (e - 1) := by
      have hsplit := zpow_split (e - 1) 1
      simpa using hsplit
    refine .inr ⟨by omega, ?_⟩
    calc (m : ℚ) * 2 ^ f ≤ 2 ^ 53 * 2 ^ (e - 1) := by gcongr
      _ = 2 ^ 52 * 2 ^ e := by rw [hhalf]; ring

/-- **The whole number nearest to a quotient by the last digit** gives the
nearest number, if the digits are all there or there are no smaller
ones. -/
theorem nearest_of_round {n : ℕ} {e : ℤ} (hmin : -1074 ≤ e) (hlt : x / 2 ^ e < 2 ^ 53)
    (hle : 2 ^ 52 ≤ x / 2 ^ e ∨ e = -1074) (hround : |x / 2 ^ e - n| ≤ 1 / 2) :
    Nearest x (n * 2 ^ e) := by
  have hn : n ≤ 2 ^ 53 := by
    have hbelow := (abs_le.mp hround).1
    have hupper : (n : ℚ) < 2 ^ 53 + 1 := by linarith
    exact Nat.lt_succ_iff.mp (by exact_mod_cast hupper)
  refine ⟨onGrid_of_le hn hmin, fun g hg => ?_⟩
  rcases hg.multiple_or_le e with ⟨k, rfl⟩ | ⟨hbig, hgle⟩
  · exact nearest_multiple hround k
  · have hfull : 2 ^ 52 * 2 ^ e ≤ x :=
      (le_div_iff₀ (by positivity)).mp (hle.resolve_right hbig.ne')
    have hnear := nearest_multiple hround (2 ^ 52)
    push_cast at hnear
    refine hnear.trans ?_
    rw [abs_of_nonneg (by linarith), abs_of_nonneg (by linarith)]
    linarith

/-! ## The error of rounding -/

/-- The place of the last of 53 digits of a number. -/
theorem exists_digit (hx : 2 ^ (-1022 : ℤ) ≤ x) :
    ∃ e : ℤ, -1074 ≤ e ∧ 2 ^ 52 ≤ x / 2 ^ e ∧ x / 2 ^ e < 2 ^ 53 := by
  have hpos : 0 < x := lt_of_lt_of_le (by positivity) hx
  obtain ⟨e, he⟩ : ∃ e : ℤ, Int.log 2 x = e + 52 := ⟨Int.log 2 x - 52, by omega⟩
  have hle : (2 : ℚ) ^ (e + 52) ≤ x := he ▸ Int.zpow_log_le_self one_lt_two hpos
  have hlt : x < 2 ^ (e + 53) := by
    have hsucc : x < (2 : ℕ) ^ (Int.log 2 x + 1) := Int.lt_zpow_succ_log_self one_lt_two x
    rwa [he, add_assoc] at hsucc
  refine ⟨e, ?_, ?_, ?_⟩
  · have hexp := (zpow_lt_zpow_iff_right₀ one_lt_two).mp (hx.trans_lt hlt)
    omega
  · have hsplit : (2 : ℚ) ^ (e + 52) = 2 ^ 52 * 2 ^ e := zpow_split e 52
    rwa [le_div_iff₀ (by positivity), ← hsplit]
  · have hsplit : (2 : ℚ) ^ (e + 53) = 2 ^ 53 * 2 ^ e := zpow_split e 53
    rwa [div_lt_iff₀ (by positivity), ← hsplit]

theorem exists_nat_near (hx : 0 ≤ x) : ∃ n : ℕ, |x - n| ≤ 1 / 2 := by
  have hle := Nat.floor_le (by linarith : 0 ≤ x + 1 / 2)
  have hlt := Nat.lt_floor_add_one (x + 1 / 2)
  refine ⟨⌊x + 1 / 2⌋₊, ?_⟩
  rw [abs_le]
  constructor <;> linarith

namespace Nearest

/-- **Rounding changes a number by a small share of it**, unless the number
is so small that the digits are not all there. -/
theorem error (hr : Nearest x r) (hx : 2 ^ (-1022 : ℤ) ≤ x) : |x - r| ≤ unit * x := by
  obtain ⟨e, hmin, hle, hlt⟩ := exists_digit hx
  have hdigit : (0 : ℚ) < 2 ^ e := by positivity
  obtain ⟨n, hn⟩ := exists_nat_near (x := x / 2 ^ e) (le_trans (by norm_num) hle)
  have hnear := hr.nearest _ (nearest_of_round hmin hlt (.inl hle) hn).onGrid
  -- half a digit is a small share of 53 digits
  have hhalf : |x - n * 2 ^ e| ≤ 1 / 2 * 2 ^ e := by
    have hscale : x - n * 2 ^ e = (x / 2 ^ e - n) * 2 ^ e := by
      rw [sub_mul, div_mul_cancel₀ _ hdigit.ne']
    rw [hscale, abs_mul, abs_of_pos hdigit]
    exact mul_le_mul_of_nonneg_right hn hdigit.le
  rw [le_div_iff₀ hdigit] at hle
  rw [unit_eq]
  linarith

theorem lower (hr : Nearest x r) (hx : 2 ^ (-1022 : ℤ) ≤ x) : (1 - unit) * x ≤ r := by
  have herror := (abs_le.mp (hr.error hx)).2
  linarith

theorem upper (hr : Nearest x r) (hx : 2 ^ (-1022 : ℤ) ≤ x) : r ≤ (1 + unit) * x := by
  have herror := (abs_le.mp (hr.error hx)).1
  linarith

end Nearest

end Binary64

end CapabilityBroker
