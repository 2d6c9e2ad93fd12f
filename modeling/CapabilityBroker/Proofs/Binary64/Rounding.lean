import Mathlib
import CapabilityBroker.Proofs.Binary64.Grid
/-!
# How a significand is rounded

The arithmetic of binary64 first finds a significand of many digits, with
word of what is left of the exact result beyond them, then drops the digits
that there is no room for, and rounds what stays. Dropping a digit keeps
track of where the exact result is (`Located`), so in the end the result
is worth a nearest number (`worth_roundWithAccuracy`), and its significand
has all the digits that its size calls for (`Canonical`).
-/

namespace CapabilityBroker

namespace Binary64

open Float.Model Float.Model.UnpackedFloat

/-- A significand has all its digits: 53 of them, or fewer if there are no
smaller ones. -/
structure Canonical (m : ℕ) (e : ℤ) : Prop where
  short : m < 2 ^ 53
  least : -1074 ≤ e
  full : 2 ^ 52 ≤ m ∨ e = -1074

/-- What a finite number without a sign is worth. -/
inductive Worth : UnpackedFloat → ℚ → Prop
  | zero : Worth (.zero .positive) 0
  | finite {m : ℕ} {e : ℤ} (pos : 0 < m) (canonical : Canonical m e) :
      Worth (.finite .positive m e pos) (m * 2 ^ e)

/-- Where the exact result is: at the significand, below the middle of the
way to the next one, in the middle, or above it. -/
def Located (em : ExtendedMantissa) (x : ℚ) : Prop :=
  match em.roundBit, em.stickyBit with
  | false, false => x = em.mantissa
  | false, true => em.mantissa < x ∧ x < em.mantissa + 1 / 2
  | true, false => x = em.mantissa + 1 / 2
  | true, true => em.mantissa + 1 / 2 < x ∧ x < em.mantissa + 1

variable {em : ExtendedMantissa} {acc : Accuracy} {m n : ℕ} {e t : ℤ} {x y r : ℚ}

theorem Canonical.onGrid (h : Canonical m e) : OnGrid (m * 2 ^ e) := ⟨m, e, h.short, h.least, rfl⟩

theorem Worth.onGrid {u : UnpackedFloat} (h : Worth u r) : OnGrid r := by
  cases h with
  | zero => exact onGrid_zero
  | finite pos canonical => exact canonical.onGrid

/-! ## Dropping digits -/

namespace Located

theorem exact (m : ℕ) : Located (.ofMantissaAndAccuracy m .exact) m := rfl

theorem between (h : Located em x) : em.mantissa ≤ x ∧ x < em.mantissa + 1 := by
  obtain ⟨m, round, sticky⟩ := em
  cases round <;> cases sticky <;> simp only [Located] at h ⊢
  · subst h
    constructor <;> linarith
  · constructor <;> linarith
  · subst h
    constructor <;> linarith
  · constructor <;> linarith

/-- A digit is dropped. -/
theorem shiftRightOne (h : Located em x) : Located em.shiftRightOne (x / 2) := by
  obtain ⟨m, round, sticky⟩ := em
  have hdigits : (2 : ℚ) * (m / 2 : ℕ) + (m % 2 : ℕ) = m := by exact_mod_cast Nat.div_add_mod m 2
  rcases Nat.mod_two_eq_zero_or_one m with hlast | hlast <;> rw [hlast] at hdigits <;>
    cases round <;> cases sticky <;>
    simp only [Located, ExtendedMantissa.shiftRightOne, hlast, bne_self_eq_false, Nat.reduceBNe,
      Bool.or_self, Bool.or_true, Bool.or_false] at h ⊢ <;>
    push_cast at hdigits <;>
    first
    | linarith
    | constructor <;> linarith

theorem shiftRight (h : Located em x) (n : ℕ) : Located (em >>> n) (x / 2 ^ n) := by
  change Located (n.repeat ExtendedMantissa.shiftRightOne em) _
  induction n with
  | zero => simpa [Nat.repeat] using h
  | succ n ih =>
    have hdropped := ih.shiftRightOne
    rwa [div_div, ← pow_succ] at hdropped

/-- **What stays is rounded to the nearest whole number.** -/
theorem abs_sub_rounded_le (h : Located em x) : |x - em.roundedMantissa| ≤ 1 / 2 := by
  obtain ⟨m, round, sticky⟩ := em
  have hparity : m % 2 = 0 ∨ m % 2 = 1 := Nat.mod_two_eq_zero_or_one m
  cases round <;> cases sticky <;>
    simp only [Located, ExtendedMantissa.roundedMantissa, ExtendedMantissa.accuracy,
      Accuracy.roundToNearestEven] at h ⊢ <;> rw [abs_le]
  · subst h
    constructor <;> linarith
  · constructor <;> linarith
  · subst h
    rcases hparity with heven | hodd
    · rw [heven, Nat.add_zero]
      constructor <;> linarith
    · rw [hodd]
      push_cast
      constructor <;> linarith
  · push_cast
    constructor <;> linarith

theorem mantissa_le_rounded (em : ExtendedMantissa) : em.mantissa ≤ em.roundedMantissa := by
  obtain ⟨m, round, sticky⟩ := em
  cases round <;> cases sticky <;>
    simp [ExtendedMantissa.roundedMantissa, ExtendedMantissa.accuracy,
      Accuracy.roundToNearestEven]

/-- Rounding makes at most one digit more, -/
theorem rounded_le (h : Located em x) (hx : x < 2 ^ n) : em.roundedMantissa ≤ 2 ^ n := by
  have hnear := (abs_le.mp h.abs_sub_rounded_le).1
  have hlt : (em.roundedMantissa : ℚ) < 2 ^ n + 1 := by linarith
  exact Nat.lt_succ_iff.mp (by exact_mod_cast hlt)

/-- and no digit less. -/
theorem le_rounded (h : Located em x) (hx : 2 ^ n ≤ x) : 2 ^ n ≤ em.roundedMantissa := by
  have hlt : (2 : ℚ) ^ n < em.mantissa + 1 := hx.trans_lt h.between.2
  have hle : 2 ^ n ≤ em.mantissa := Nat.lt_succ_iff.mp (by exact_mod_cast hlt)
  exact hle.trans (mantissa_le_rounded em)

/-- The exact result has the digits that the significand has. -/
theorem digits (h : Located (.ofMantissaAndAccuracy m acc) y) :
    y < 2 ^ (m.log2 + 1) ∧ (m ≠ 0 → 2 ^ m.log2 ≤ y) := by
  have hmantissa : (ExtendedMantissa.ofMantissaAndAccuracy m acc).mantissa = m := by
    cases acc with
    | exact => rfl
    | inexact o => cases o <;> rfl
  obtain ⟨hle, hlt⟩ := h.between
  rw [hmantissa] at hle hlt
  have hsucc : (m : ℚ) + 1 ≤ 2 ^ (m.log2 + 1) := by exact_mod_cast Nat.lt_log2_self
  refine ⟨hlt.trans_le hsucc, fun hm => le_trans ?_ hle⟩
  exact_mod_cast Nat.log2_self_le hm

end Located

/-! ## The place of the last digit -/

/-- The last digit that there is room for. -/
theorem targetExponent_eq (m : ℕ) (e : ℤ) :
    Format.binary64.targetExponent (totalExponent m e) = max (m.log2 + 1 + e - 53) (-1074) := rfl

/-- Digits are dropped down to that place. -/
theorem shiftToTargetExponent_eq {k : ℕ}
    (hk : Format.binary64.targetExponent (totalExponent m e) = e + k) :
    shiftToTargetExponent Format.binary64 m e acc =
      (ExtendedMantissa.ofMantissaAndAccuracy m acc >>> k, e + k) := by
  have hcount : (e + (k : ℤ) - e).toNat = k := by omega
  rw [shiftToTargetExponent, hk, shiftToExponent, hcount]

theorem shiftToTargetExponent_of_short (hm : m < 2 ^ 53) (he : -1074 ≤ e) :
    shiftToTargetExponent Format.binary64 m e .exact = (⟨m, false, false⟩, e) := by
  have hlog : m.log2 ≤ 52 := by
    rcases Nat.eq_zero_or_pos m with rfl | hpos
    · simp
    · exact Nat.lt_succ_iff.mp ((Nat.log2_lt hpos.ne').mpr hm)
  have hstay : (Format.binary64.targetExponent (totalExponent m e) - e).toNat = 0 := by
    rw [targetExponent_eq]
    omega
  rw [shiftToTargetExponent, shiftToExponent, hstay]
  simp [HShiftRight.hShiftRight, Nat.repeat, ExtendedMantissa.ofMantissaAndAccuracy]

/-- Rounding may have carried into one more digit, which is a zero. -/
theorem shiftToTargetExponent_of_carry (he : -1074 ≤ e) :
    shiftToTargetExponent Format.binary64 (2 ^ 53) e .exact = (⟨2 ^ 52, false, false⟩, e + 1) := by
  have hmove : (Format.binary64.targetExponent (totalExponent (2 ^ 53) e) - e).toNat = 1 := by
    rw [targetExponent_eq, Nat.log2_two_pow]
    omega
  rw [shiftToTargetExponent, shiftToExponent, hmove]
  rfl

/-- What is worth a rounded significand is written with all its digits. -/
theorem exists_worth (hn : n ≤ 2 ^ 53) (he : -1074 ≤ e) (hfull : 2 ^ 52 ≤ n ∨ e = -1074) :
    let final := shiftToTargetExponent Format.binary64 n e .exact
    Worth (if h : final.1.mantissa = 0 then .zero .positive
      else .finite .positive final.1.mantissa final.2 (Nat.pos_of_ne_zero h)) (n * 2 ^ e) := by
  intro final
  rcases hn.lt_or_eq with hlt | rfl
  · have hfinal : final = (⟨n, false, false⟩, e) := shiftToTargetExponent_of_short hlt he
    rw [hfinal]
    split
    · next hzero =>
      have hn0 : n = 0 := hzero
      rw [hn0, Nat.cast_zero, zero_mul]
      exact .zero
    · next hpos => exact .finite (Nat.pos_of_ne_zero hpos) ⟨hlt, he, hfull⟩
  · have hfinal : final = (⟨2 ^ 52, false, false⟩, e + 1) := shiftToTargetExponent_of_carry he
    have hvalue : ((2 ^ 53 : ℕ) : ℚ) * 2 ^ e = (2 ^ 52 : ℕ) * 2 ^ (e + 1) := by
      have hsplit : (2 : ℚ) ^ (e + 1) = 2 ^ 1 * 2 ^ e := zpow_split e 1
      rw [hsplit]
      push_cast
      ring
    rw [hfinal, dif_neg (by norm_num : ¬ 2 ^ 52 = 0), hvalue]
    exact .finite (by norm_num) ⟨by norm_num, by omega, .inl le_rfl⟩

/-- **The result is worth a nearest number**, if the significand has all the
digits that there is room for. -/
theorem worth_roundWithAccuracy (hloc : Located (.ofMantissaAndAccuracy m acc) y)
    (he : e ≤ Format.binary64.targetExponent (totalExponent m e)) :
    ∃ r, Nearest (y * 2 ^ e) r ∧
      Worth (roundWithAccuracy Format.binary64 .positive m e acc) r := by
  obtain ⟨k, hk⟩ : ∃ k : ℕ, Format.binary64.targetExponent (totalExponent m e) = e + k :=
    ⟨(Format.binary64.targetExponent (totalExponent m e) - e).toNat, by omega⟩
  have htarget := hk
  rw [targetExponent_eq] at htarget
  obtain ⟨hupper, hlower⟩ := hloc.digits
  have hlocated := hloc.shiftRight k
  -- the exact result, counted in the last digit that is kept
  have hscale : y * 2 ^ e / 2 ^ (e + k : ℤ) = y / 2 ^ k := by
    rw [zpow_split, mul_div_mul_right _ _ (by positivity)]
  have hleast : -1074 ≤ e + (k : ℤ) := by omega
  have hlt : y / 2 ^ k < 2 ^ 53 := by
    rw [div_lt_iff₀ (by positivity), ← pow_add]
    exact hupper.trans_le (pow_le_pow_right₀ one_le_two (by omega))
  have hle : 2 ^ 52 ≤ y / 2 ^ k ∨ e + (k : ℤ) = -1074 := by
    by_cases hsmall : e + (k : ℤ) = -1074
    · exact .inr hsmall
    · have hlog : 52 + k = m.log2 := by omega
      have hm : m ≠ 0 := by
        rintro rfl
        simp at hlog
      rw [le_div_iff₀ (by positivity), ← pow_add, hlog]
      exact .inl (hlower hm)
  have hnear : Nearest (y * 2 ^ e)
      ((ExtendedMantissa.ofMantissaAndAccuracy m acc >>> k).roundedMantissa * 2 ^ (e + k : ℤ)) := by
    refine nearest_of_round hleast ?_ ?_ ?_ <;> rw [hscale]
    exacts [hlt, hle, hlocated.abs_sub_rounded_le]
  have hworth := exists_worth (hlocated.rounded_le hlt) hleast
    (hle.imp_left fun hbig => hlocated.le_rounded hbig)
  rw [roundWithAccuracy, shiftToTargetExponent_eq hk]
  exact ⟨_, hnear, by exact_mod_cast hworth⟩

end Binary64

end CapabilityBroker
