import Mathlib.Order.Compare
import CapabilityBroker.Proofs.Binary64.Words
/-!
# The arithmetic of binary64

On numbers without a sign each operation gives what its exact result is
rounded to (`Rounded`): a nearest number, or the infinite one if that is
too large. So it is for products, sums and quotients, and for the whole
numbers of 64 bits. Comparisons are those of the exact amounts.
-/

namespace CapabilityBroker

namespace Binary64

open Float.Model Float.Model.UnpackedFloat

/-- **What a number is rounded to**, as a word: the nearest finite one, and
the infinite one if that is too large. -/
def Rounded (x : ℚ) (z : Float) : Prop :=
  ∃ r, Nearest x r ∧ if r < 2 ^ 1024 then Amount z r else IsInfinite z

variable {x y z : Float} {u v : UnpackedFloat} {p q r w : ℚ} {m n : ℕ} {e f : ℤ}

theorem Amount.worth (h : Amount x p) : Worth x.toModel.unpack p := amount_iff.mp h

theorem Amount.onGrid (h : Amount x p) : OnGrid p := h.worth.onGrid

theorem Amount.nonneg (h : Amount x p) : 0 ≤ p := h.onGrid.nonneg

theorem Amount.isFinite (hx : Amount x p) : x.isFinite = true := by
  have hworth := hx.worth
  change x.toModel.unpack.isFinite = true
  generalize x.toModel.unpack = u at hworth
  cases hworth <;> rfl

theorem IsInfinite.isFinite (hx : IsInfinite x) : x.isFinite = false := by
  change x.toModel.unpack.isFinite = false
  rw [hx]
  rfl

/-- A result that is packed is rounded. -/
theorem Rounded.of_pack (hnear : Nearest w r) (hworth : Worth u r)
    (hz : z.toModel = Float.Model.pack u) : Rounded w z := by
  have hunpack : z.toModel.unpack = if r < 2 ^ 1024 then u else .infinity .positive := by
    rw [hz]
    exact hworth.unpack_pack
  refine ⟨r, hnear, ?_⟩
  split
  · next hlt =>
    rw [if_pos hlt] at hunpack
    rwa [amount_iff, hunpack]
  · next hge => exact hunpack.trans (if_neg hge)

/-- A finite result is a nearest number. -/
theorem Rounded.nearest (h : Rounded w z) (hz : Amount z q) : Nearest w q := by
  obtain ⟨r, hnear, hr⟩ := h
  split at hr
  · rwa [hz.unique hr]
  · have hfinite := hz.isFinite
    rw [hr.isFinite] at hfinite
    cases hfinite

/-- What is below a finite number is rounded to a finite one. -/
theorem Rounded.amount (h : Rounded w z) (hr : OnGrid r) (hle : w ≤ r) (hlt : r < 2 ^ 1024) :
    ∃ s, Nearest w s ∧ Amount z s := by
  obtain ⟨s, hnear, hs⟩ := h
  rw [if_pos ((hnear.ge_of_ge hr hle).trans_lt hlt)] at hs
  exact ⟨s, hnear, hs⟩

/-- A number on the grid is kept. -/
theorem Rounded.exact (h : Rounded w z) (hw : OnGrid w) (hlt : w < 2 ^ 1024) : Amount z w := by
  obtain ⟨s, hnear, hs⟩ := h.amount hw le_rfl hlt
  rwa [← hnear.eq_of_onGrid hw]

/-- Numbers of 64 bits, and products of three such, are far from being too
large. -/
theorem in_range_of_le (h : q ≤ 2 ^ 201) : q < 2 ^ 1024 :=
  h.trans_lt (pow_lt_pow_right₀ one_lt_two (by norm_num))

theorem amount_zero : Amount 0.0 0 :=
  ⟨⟨false, 0, -1074⟩, by decide +kernel, rfl, by norm_num⟩

theorem amount_one : Amount 1.0 1 :=
  ⟨⟨false, 2 ^ 52, -52⟩, by decide +kernel, rfl, by norm_num⟩

/-! ## Products -/

theorem Canonical.mul_exponent_le (hm : Canonical m e) (hn : Canonical n f) (hmpos : 0 < m)
    (hnpos : 0 < n) :
    e + f ≤ Format.binary64.targetExponent (totalExponent (m * n) (e + f)) := by
  have hlog (h : 2 ^ 52 ≤ m * n) : 52 ≤ (m * n).log2 :=
    (Nat.le_log2 (Nat.mul_pos hmpos hnpos).ne').mpr h
  rw [targetExponent_eq]
  rcases hm.full with hfull | hleast
  · have := hlog (hfull.trans (Nat.le_mul_of_pos_right m hnpos))
    omega
  · rcases hn.full with hfull | hleast'
    · have := hlog (hfull.trans (Nat.le_mul_of_pos_left n hmpos))
      omega
    · omega

theorem Worth.mul (hu : Worth u p) (hv : Worth v q) :
    ∃ r, Nearest (p * q) r ∧ Worth (UnpackedFloat.mul Format.binary64 u v) r := by
  cases hu with
  | zero =>
    rw [zero_mul]
    cases hv <;> exact ⟨0, .of_onGrid onGrid_zero, .zero⟩
  | @finite m e hmpos hm =>
    cases hv with
    | zero =>
      rw [mul_zero]
      exact ⟨0, .of_onGrid onGrid_zero, .zero⟩
    | @finite n f hnpos hn =>
      have hvalue : (m : ℚ) * 2 ^ e * (n * 2 ^ f) = (m * n : ℕ) * 2 ^ (e + f) := by
        rw [zpow_add₀ two_ne_zero]
        push_cast
        ring
      rw [hvalue]
      exact worth_roundWithAccuracy (Located.exact (m * n)) (hm.mul_exponent_le hn hmpos hnpos)

theorem Amount.mul (hx : Amount x p) (hy : Amount y q) : Rounded (p * q) (x * y) := by
  obtain ⟨r, hnear, hworth⟩ := hx.worth.mul hy.worth
  exact .of_pack hnear hworth rfl

/-! ## Sums and whole numbers -/

theorem log2_mul_two_pow (hm : 0 < m) (k : ℕ) : (m * 2 ^ k).log2 = m.log2 + k := by
  rw [Nat.log2_eq_iff (by positivity)]
  refine ⟨?_, ?_⟩
  · rw [pow_add]
    exact Nat.mul_le_mul_right _ (Nat.log2_self_le hm.ne')
  · rw [Nat.add_right_comm, pow_add]
    exact Nat.mul_lt_mul_of_pos_right Nat.lt_log2_self (by positivity)

/-- A significand may be too short for its size as well as too long. -/
theorem worth_round (hm : 0 < m) :
    ∃ r, Nearest (m * 2 ^ e) r ∧
      Worth (UnpackedFloat.round Format.binary64 .positive m e) r := by
  set t := Format.binary64.targetExponent (totalExponent m e) with ht
  set k := (e - t).toNat with hk
  have hround : UnpackedFloat.round Format.binary64 .positive m e =
      roundWithAccuracy Format.binary64 .positive (m * 2 ^ k) (e - k) .exact := by
    simp only [UnpackedFloat.round, decreaseExponent, Nat.shiftLeft_eq, ← ht, ← hk]
  have hsize : totalExponent (m * 2 ^ k) (e - k) = totalExponent m e := by
    rw [totalExponent, totalExponent, log2_mul_two_pow hm]
    push_cast
    ring
  have hvalue : (m : ℚ) * 2 ^ e = (m * 2 ^ k : ℕ) * 2 ^ (e - k : ℤ) := by
    have hsplit := zpow_split (e - k) k
    rw [sub_add_cancel] at hsplit
    rw [hsplit]
    push_cast
    ring
  rw [hround, hvalue]
  refine worth_roundWithAccuracy (Located.exact (m * 2 ^ k)) ?_
  rw [hsize, ← ht]
  omega

theorem worth_normalize (m : ℕ) (e : ℤ) :
    ∃ r, Nearest (m * 2 ^ e) r ∧
      Worth (UnpackedFloat.normalize Format.binary64 m e .positive) r := by
  rcases Nat.eq_zero_or_pos m with rfl | hpos
  · rw [Nat.cast_zero, zero_mul]
    exact ⟨0, .of_onGrid onGrid_zero, .zero⟩
  · rw [UnpackedFloat.normalize, compare_gt_iff_gt.mpr (Int.natCast_pos.mpr hpos)]
    exact worth_round hpos

/-- A number on an exponent that is not greater than its own. -/
theorem align (m : ℕ) {t : ℤ} (ht : t ≤ e) :
    (m : ℚ) * 2 ^ e = (m * 2 ^ (e - t).toNat : ℕ) * 2 ^ t := by
  have hsplit := zpow_split t (e - t).toNat
  rw [Int.toNat_of_nonneg (by omega), add_sub_cancel] at hsplit
  rw [hsplit]
  push_cast
  ring

theorem Worth.add (hu : Worth u p) (hv : Worth v q) :
    ∃ r, Nearest (p + q) r ∧ Worth (UnpackedFloat.add Format.binary64 u v) r := by
  cases hu with
  | zero =>
    rw [zero_add]
    cases hv with
    | zero => exact ⟨0, .of_onGrid onGrid_zero, .zero⟩
    | finite hpos hn => exact ⟨_, .of_onGrid hn.onGrid, .finite hpos hn⟩
  | @finite m e hmpos hm =>
    cases hv with
    | zero =>
      rw [add_zero]
      exact ⟨_, .of_onGrid hm.onGrid, .finite hmpos hm⟩
    | @finite n f hnpos hn =>
      -- both on the smaller of the exponents
      set t := min e f with ht
      have hvalue : (m : ℚ) * 2 ^ e + n * 2 ^ f =
          (m * 2 ^ (e - t).toNat + n * 2 ^ (f - t).toNat : ℕ) * 2 ^ t := by
        rw [align m (min_le_left e f), align n (min_le_right e f), ← add_mul]
        push_cast
        rfl
      have hsum : UnpackedFloat.add Format.binary64 (.finite .positive m e hmpos)
            (.finite .positive n f hnpos) =
          UnpackedFloat.normalize Format.binary64
            ((m * 2 ^ (e - t).toNat + n * 2 ^ (f - t).toNat : ℕ) : ℤ) t .positive := by
        simp only [UnpackedFloat.add, decreaseExponent, Sign.apply, Nat.shiftLeft_eq, ← ht]
        push_cast
        rfl
      rw [hvalue, hsum]
      exact worth_normalize _ t

theorem Amount.add (hx : Amount x p) (hy : Amount y q) : Rounded (p + q) (x + y) := by
  obtain ⟨r, hnear, hworth⟩ := hx.worth.add hy.worth
  exact .of_pack hnear hworth rfl

theorem Worth.sub (hu : Worth u p) (hv : Worth v q) (hle : q ≤ p) :
    ∃ r, Nearest (p - q) r ∧ Worth (UnpackedFloat.sub Format.binary64 u v) r := by
  cases hv with
  | zero =>
    rw [sub_zero]
    cases hu with
    | zero => exact ⟨0, .of_onGrid onGrid_zero, .zero⟩
    | finite hpos hm => exact ⟨_, .of_onGrid hm.onGrid, .finite hpos hm⟩
  | @finite n f hnpos hn =>
    cases hu with
    | zero => exact absurd hle (not_le.mpr (by positivity))
    | @finite m e hmpos hm =>
      set t := min e f with ht
      rw [align m (min_le_left e f), align n (min_le_right e f), ← ht] at hle
      have hless : n * 2 ^ (f - t).toNat ≤ m * 2 ^ (e - t).toNat := by
        exact_mod_cast le_of_mul_le_mul_right hle (by positivity)
      have hvalue : (m : ℚ) * 2 ^ e - n * 2 ^ f =
          (m * 2 ^ (e - t).toNat - n * 2 ^ (f - t).toNat : ℕ) * 2 ^ t := by
        rw [align m (min_le_left e f), align n (min_le_right e f), ← sub_mul, Nat.cast_sub hless]
      have hdifference : UnpackedFloat.sub Format.binary64 (.finite .positive m e hmpos)
            (.finite .positive n f hnpos) =
          UnpackedFloat.normalize Format.binary64
            ((m * 2 ^ (e - t).toNat - n * 2 ^ (f - t).toNat : ℕ) : ℤ) t .positive := by
        rw [Nat.cast_sub hless]
        simp only [UnpackedFloat.sub, decreaseExponent, Sign.apply, Nat.shiftLeft_eq, ← ht]
      rw [hvalue, hdifference]
      exact worth_normalize _ t

theorem Amount.sub (hx : Amount x p) (hy : Amount y q) (hle : q ≤ p) :
    Rounded (p - q) (x - y) := by
  obtain ⟨r, hnear, hworth⟩ := hx.worth.sub hy.worth hle
  exact .of_pack hnear hworth rfl

theorem exists_amount_toFloat (n : UInt64) : ∃ q, Nearest n.toNat q ∧ Amount n.toFloat q := by
  obtain ⟨r, hnear, hworth⟩ := worth_normalize n.toNat 0
  rw [zpow_zero, mul_one] at hnear
  have hrounded : Rounded n.toNat n.toFloat := .of_pack hnear hworth rfl
  have hle : (n.toNat : ℚ) ≤ 2 ^ (64 : ℤ) := by exact_mod_cast n.toNat_lt.le
  exact hrounded.amount (onGrid_two_zpow (by norm_num)) hle (in_range_of_le (by norm_num))

/-- A whole number of 53 binary digits is one exactly. -/
theorem amount_natCast (hn : n < 2 ^ 53) : Amount n.toUInt64.toFloat n := by
  obtain ⟨q, hq, hword⟩ := exists_amount_toFloat n.toUInt64
  rw [UInt64.toNat_ofNat_of_lt' (hn.trans (by norm_num))] at hq
  rwa [hq.eq_of_onGrid (onGrid_natCast hn)] at hword

/-! ## Quotients -/

/-- Where a quotient of whole numbers is. -/
theorem Located.quotient (m : ℕ) (hn : 0 < n) :
    Located (.ofMantissaAndAccuracy (m / n) (accuracyOfFraction (m % n) n)) (m / n : ℚ) := by
  have hpos : (0 : ℚ) < n := by exact_mod_cast hn
  have hrest : m % n < n := Nat.mod_lt m hn
  have hsplit : (m : ℚ) / n = (m / n : ℕ) + (m % n : ℕ) / n := by
    have hdiv : (n : ℚ) * (m / n : ℕ) + (m % n : ℕ) = m := by exact_mod_cast Nat.div_add_mod m n
    field_simp
    linarith
  rw [hsplit]
  generalize m / n = whole
  generalize m % n = rest at hrest ⊢
  rw [accuracyOfFraction]
  split
  · next hzero =>
    rw [hzero, Nat.cast_zero, zero_div, add_zero]
    exact Located.exact whole
  · next hne =>
    have hrest0 : (0 : ℚ) < rest := by exact_mod_cast Nat.pos_of_ne_zero hne
    have hrest1 : (rest : ℚ) < n := by exact_mod_cast hrest
    have hshare0 : 0 < (rest : ℚ) / n := div_pos hrest0 hpos
    have hshare1 : (rest : ℚ) / n < 1 := (div_lt_one hpos).mpr hrest1
    rcases lt_trichotomy (2 * rest) n with hlt | heq | hgt
    · have hlt' : 2 * (rest : ℚ) < n := by exact_mod_cast hlt
      have hhalf : (rest : ℚ) / n < 1 / 2 := by
        rw [div_lt_iff₀ hpos]
        linarith
      rw [compare_lt_iff_lt.mpr hlt]
      constructor <;> dsimp only [ExtendedMantissa.ofMantissaAndAccuracy] <;> linarith
    · have heq' : 2 * (rest : ℚ) = n := by exact_mod_cast heq
      have hhalf : (rest : ℚ) / n = 1 / 2 := by
        rw [div_eq_iff hpos.ne']
        linarith
      rw [compare_eq_iff_eq.mpr heq, hhalf]
      rfl
    · have hgt' : (n : ℚ) < 2 * rest := by exact_mod_cast hgt
      have hhalf : 1 / 2 < (rest : ℚ) / n := by
        rw [lt_div_iff₀ hpos]
        linarith
      rw [compare_gt_iff_gt.mpr hgt]
      constructor <;> dsimp only [ExtendedMantissa.ofMantissaAndAccuracy] <;> linarith

/-- The quotient is taken with all the digits that there is room for. -/
theorem worth_divCore (hm : 0 < m) (hn : 0 < n) :
    ∃ r, Nearest (m * 2 ^ e / (n * 2 ^ f)) r ∧
      Worth (UnpackedFloat.div Format.binary64 (.finite .positive m e hm)
        (.finite .positive n f hn)) r := by
  set t := min (e - f) (Format.binary64.targetExponent (totalExponent m e - totalExponent n f))
    with ht
  obtain ⟨k, hk⟩ : ∃ k : ℕ, e - f = t + k := ⟨(e - f - t).toNat, by omega⟩
  have hshift : (t + (k : ℤ) - t).toNat = k := by omega
  have hdiv : UnpackedFloat.div Format.binary64 (.finite .positive m e hm)
        (.finite .positive n f hn) =
      roundWithAccuracy Format.binary64 .positive (m * 2 ^ k / n) t
        (accuracyOfFraction (m * 2 ^ k % n) n) := by
    simp only [UnpackedFloat.div, divCore, ← ht, Nat.shiftLeft_eq]
    rw [hk, hshift]
    rfl
  have hvalue : (m : ℚ) * 2 ^ e / (n * 2 ^ f) = (m * 2 ^ k : ℕ) / n * 2 ^ t := by
    have hsplit : (2 : ℚ) ^ e = 2 ^ k * 2 ^ t * 2 ^ f := by
      rw [← zpow_split, ← hk, ← zpow_add₀ two_ne_zero, sub_add_cancel]
    rw [hsplit]
    push_cast
    field_simp
  rw [hdiv, hvalue]
  refine worth_roundWithAccuracy (Located.quotient (m * 2 ^ k) hn) ?_
  rw [targetExponent_eq]
  rcases le_or_gt t (-1074) with hleast | hroom
  · omega
  · -- the dividend has at least 53 digits more than the divisor
    have hlong : n.log2 + 53 ≤ m.log2 + k := by
      have htarget : t ≤ max ((m.log2 + 1 + e) - (n.log2 + 1 + f) - 53) (-1074) := min_le_right _ _
      omega
    have hquotient : 2 ^ 52 ≤ m * 2 ^ k / n := by
      rw [Nat.le_div_iff_mul_le hn]
      calc 2 ^ 52 * n ≤ 2 ^ 52 * 2 ^ (n.log2 + 1) := Nat.mul_le_mul_left _ Nat.lt_log2_self.le
        _ = 2 ^ (n.log2 + 53) := by rw [← pow_add]; congr 1; omega
        _ ≤ 2 ^ (m.log2 + k) := Nat.pow_le_pow_right two_pos hlong
        _ = 2 ^ m.log2 * 2 ^ k := pow_add ..
        _ ≤ m * 2 ^ k := Nat.mul_le_mul_right _ (Nat.log2_self_le hm.ne')
    have hlog := (Nat.le_log2 (by omega)).mpr hquotient
    omega

theorem Worth.div (hu : Worth u p) (hv : Worth v q) (hq : 0 < q) :
    ∃ r, Nearest (p / q) r ∧ Worth (UnpackedFloat.div Format.binary64 u v) r := by
  cases hv with
  | zero => exact absurd hq (lt_irrefl 0)
  | finite hnpos hn =>
    cases hu with
    | zero =>
      rw [zero_div]
      exact ⟨0, .of_onGrid onGrid_zero, .zero⟩
    | finite hmpos hm => exact worth_divCore hmpos hnpos

theorem Amount.div (hx : Amount x p) (hy : Amount y q) (hq : 0 < q) :
    Rounded (p / q) (x / y) := by
  obtain ⟨r, hnear, hworth⟩ := hx.worth.div hy.worth hq
  exact .of_pack hnear hworth rfl

/-! ## Comparisons -/

theorem Canonical.lt_of_lt (hm : Canonical m e) (hn : Canonical n f) (hlt : e < f) :
    (m : ℚ) * 2 ^ e < n * 2 ^ f := by
  have hleast := hm.least
  have hshort : (m : ℚ) < 2 ^ 53 := by exact_mod_cast hm.short
  have hfull : (2 : ℚ) ^ 52 ≤ n := by exact_mod_cast hn.full.resolve_right (by omega)
  have hexp : (2 : ℚ) ^ (e + 1) ≤ 2 ^ f := zpow_le_zpow_right₀ one_le_two (by omega)
  have hsplit : (2 : ℚ) ^ (e + 1) = 2 ^ 1 * 2 ^ e := zpow_split e 1
  calc (m : ℚ) * 2 ^ e < 2 ^ 53 * 2 ^ e := mul_lt_mul_of_pos_right hshort (by positivity)
    _ = 2 ^ 52 * 2 ^ (e + 1) := by rw [hsplit]; ring
    _ ≤ n * 2 ^ f := by gcongr

/-- **Words compare as their amounts do.** -/
theorem Worth.compare_eq (hu : Worth u p) (hv : Worth v q) :
    UnpackedFloat.compare u v = some (compare p q) := by
  symm
  cases hu with
  | zero =>
    cases hv with
    | zero => exact congrArg some (compare_eq_iff_eq.mpr rfl)
    | finite hpos hn => exact congrArg some (compare_lt_iff_lt.mpr (by positivity))
  | @finite m e hmpos hm =>
    cases hv with
    | zero => exact congrArg some (compare_gt_iff_gt.mpr (by positivity))
    | @finite n f hnpos hn =>
      refine congrArg some ?_
      rcases lt_trichotomy e f with hlt | rfl | hgt
      · rw [compare_lt_iff_lt.mpr hlt, compare_lt_iff_lt.mpr (hm.lt_of_lt hn hlt)]
        rfl
      · have hpos : (0 : ℚ) < 2 ^ e := by positivity
        rw [compare_eq_iff_eq.mpr (rfl : e = e), Ordering.eq_then]
        rcases lt_trichotomy m n with hlt | rfl | hgt
        · rw [compare_lt_iff_lt.mpr hlt, compare_lt_iff_lt]
          exact mul_lt_mul_of_pos_right (by exact_mod_cast hlt) hpos
        · rw [compare_eq_iff_eq.mpr (rfl : m = m), compare_eq_iff_eq]
        · rw [compare_gt_iff_gt.mpr hgt, compare_gt_iff_gt]
          exact mul_lt_mul_of_pos_right (by exact_mod_cast hgt) hpos
      · rw [compare_gt_iff_gt.mpr hgt, compare_gt_iff_gt.mpr (hn.lt_of_lt hm hgt)]
        rfl

theorem lt_iff_compare : x < y ↔ x.toModel.unpack.compare y.toModel.unpack = some .lt :=
  decide_eq_true_iff.trans beq_iff_eq

theorem le_iff_compare :
    x ≤ y ↔ (x.toModel.unpack.compare y.toModel.unpack).any (·.isLE) = true :=
  decide_eq_true_iff

theorem Amount.lt_iff (hx : Amount x p) (hy : Amount y q) : x < y ↔ p < q := by
  rw [lt_iff_compare, hx.worth.compare_eq hy.worth, Option.some.injEq, compare_lt_iff_lt]

theorem Amount.le_iff (hx : Amount x p) (hy : Amount y q) : x ≤ y ↔ p ≤ q := by
  rw [le_iff_compare, hx.worth.compare_eq hy.worth, Option.any_some, ← compare_le_iff_le]
  cases compare p q <;> simp

/-! ## Order -/

theorem Worth.unique (hu : Worth u p) (hv : Worth v p) : u = v := by
  generalize hq : p = q at hv
  cases hu with
  | zero =>
    cases hv with
    | zero => rfl
    | @finite n f hnpos hn => exact absurd hq (by positivity : (0 : ℚ) < n * 2 ^ f).ne
  | @finite m e hmpos hm =>
    cases hv with
    | zero => exact absurd hq (by positivity : (0 : ℚ) < m * 2 ^ e).ne'
    | @finite n f hnpos hn =>
      rcases lt_trichotomy e f with hlt | rfl | hgt
      · exact absurd hq (hm.lt_of_lt hn hlt).ne
      · obtain rfl : m = n := by exact_mod_cast mul_right_cancel₀ (by positivity) hq
        rfl
      · exact absurd hq (hn.lt_of_lt hm hgt).ne'

/-- **There is one word for an amount.** -/
theorem Amount.inj (hx : Amount x p) (hy : Amount y p) : x = y := by
  have hunpack : x.toModel.unpack = y.toModel.unpack := hx.worth.unique hy.worth
  have hbits := (unpack_inj_of_valid x.toModel.valid y.toModel.valid).mp hunpack
  exact Float.toBits_inj.mp (UInt64.toBitVec_inj.mp hbits)

/-- **Rounding keeps the order**: an operation that does, and is rounded, does
so too. Of equal numbers there is one word, so which of two numbers is taken
that are equally near makes no difference. -/
theorem Rounded.le_of_le {op : Float → Float} {f : ℚ → ℚ}
    (hop : ∀ {z w}, Amount z w → Rounded (f w) (op z)) (hf : StrictMono f) (hx : Amount x p)
    (hy : Amount y q) (hle : p ≤ q) (hr : Amount (op x) r) (hw : Amount (op y) w) : r ≤ w := by
  rcases hle.lt_or_eq with hlt | rfl
  · exact ((hop hx).nearest hr).mono ((hop hy).nearest hw) (hf hlt)
  · rw [hx.inj hy] at hr
    exact (hr.unique hw).le

/-! ## Finite and infinite numbers -/

/-- A finite number that is not below a positive one has no sign. -/
theorem exists_amount_of_le (hfinite : x.isFinite = true) (hy : Amount y q) (hq : 0 < q)
    (hle : y ≤ x) : ∃ p, q ≤ p ∧ Amount x p := by
  rcases unpack_cases x with ⟨-, hinfinite⟩ | ⟨b, hsome, hunpack, -⟩
  · exact absurd (hfinite.symm.trans hinfinite) (by decide)
  · have hsign : b.negative = false := by
      by_contra hnegative
      have hcompare : y.toModel.unpack.compare x.toModel.unpack = some .gt := by
        have hworth := hy.worth
        generalize y.toModel.unpack = v at hworth
        rw [hunpack, unpacked, if_pos (by simpa using hnegative)]
        cases hworth with
        | zero => exact absurd hq (lt_irrefl 0)
        | finite => split <;> rfl
      rw [le_iff_compare, hcompare] at hle
      cases hle
    have hx : Amount x (b.significand * 2 ^ b.exponent) := ⟨b, hsome, hsign, rfl⟩
    exact ⟨_, (hy.le_iff hx).mp hle, hx⟩

theorem unpack_mul (x y : Float) : (x * y).toModel.unpack =
    UnpackedFloat.unpack Format.binary64 (UnpackedFloat.pack Format.binary64
      (UnpackedFloat.mul Format.binary64 x.toModel.unpack y.toModel.unpack)) := rfl

theorem IsInfinite.mul (hx : IsInfinite x) (hy : IsInfinite y) : IsInfinite (x * y) := by
  rw [IsInfinite, unpack_mul, hx, hy]
  rfl

theorem IsInfinite.mul_amount (hx : IsInfinite x) (hy : Amount y q) (hq : 0 < q) :
    IsInfinite (x * y) := by
  have hworth := hy.worth
  rw [IsInfinite, unpack_mul, hx]
  generalize y.toModel.unpack = v at hworth
  cases hworth with
  | zero => exact absurd hq (lt_irrefl 0)
  | finite =>
    rw [UnpackedFloat.mul]
    rfl

theorem Amount.mul_infinite (hx : Amount x p) (hp : 0 < p) (hy : IsInfinite y) :
    IsInfinite (x * y) := by
  have hworth := hx.worth
  rw [IsInfinite, unpack_mul, hy]
  generalize x.toModel.unpack = u at hworth
  cases hworth with
  | zero => exact absurd hp (lt_irrefl 0)
  | finite =>
    rw [UnpackedFloat.mul]
    rfl

/-- **Nothing times an infinite number** is no number. -/
theorem Amount.zero_mul_infinite (hx : Amount x 0) (hy : IsInfinite y) :
    (x * y).isFinite = false := by
  have hworth := hx.worth
  change (x * y).toModel.unpack.isFinite = false
  rw [unpack_mul, hy]
  generalize x.toModel.unpack = u at hworth
  generalize hzero : (0 : ℚ) = p at hworth
  cases hworth with
  | zero => rfl
  | @finite m e hpos hm =>
    have hvalue : (0 : ℚ) < m * 2 ^ e := by positivity
    exact absurd hzero hvalue.ne

end Binary64

end CapabilityBroker
