import CapabilityBroker.Proofs.Binary64.Arithmetic
import CapabilityBroker.Proofs.Binary64.Errors
import CapabilityBroker.Time.Scalar
/-!
# Spans of time in binary64 seconds

The whole seconds of a span and the part of a second beyond them are
turned into numbers and added, with three roundings, of which each second
of time is in two (`Parts.near`). Nothing that is below the sum in
binary64 is above the span in fact (`Parts.le_of_lt`): so a span that
is compared in seconds with a limit, and found to be below it, is not
beyond it in nanoseconds (`span_le`). And longer spans do not have fewer
seconds (`seconds_mono`).
-/

namespace CapabilityBroker

namespace Binary64

variable {x : Float} {d n : ℕ} {q f g a c : ℚ}

theorem amount_billion : Amount 1000000000.0 Duration.second :=
  ⟨⟨false, 8388608000000000, -23⟩, by decide +kernel, rfl, by norm_num⟩

/-- Numbers that are not too small for all their digits. -/
theorem normal_of_le (h : 1 / 2000000000 ≤ q) : 2 ^ (-1022 : ℤ) ≤ q := by
  have hsmall : (2 : ℚ) ^ (-1022 : ℤ) ≤ 2 ^ (-31 : ℤ) := zpow_le_zpow_right₀ one_le_two (by norm_num)
  have hlarge : (2 : ℚ) ^ (-31 : ℤ) ≤ 1 / 2000000000 := by norm_num
  exact hsmall.trans (hlarge.trans h)

/-! ## The seconds of a span -/

/-- The part of a second that a span has beyond its whole seconds. -/
def rest (d : ℕ) : ℚ := (d % Duration.second : ℕ) / Duration.second

theorem rest_nonneg (d : ℕ) : 0 ≤ rest d := by
  unfold rest
  positivity

/-- It is at least a nanosecond short of a second. -/
theorem rest_le (d : ℕ) : rest d ≤ 1 - 1 / Duration.second := by
  have hlt : d % Duration.second + 1 ≤ Duration.second := Nat.mod_lt d (by norm_num)
  have hcast : ((d % Duration.second : ℕ) : ℚ) + 1 ≤ Duration.second := by exact_mod_cast hlt
  rw [rest, le_sub_iff_add_le, ← add_div, div_le_one (by norm_num)]
  exact hcast

theorem rest_lt_one (d : ℕ) : rest d < 1 :=
  (rest_le d).trans_lt (sub_lt_self 1 (by norm_num))

theorem whole_add_rest (d : ℕ) :
    ((d / Duration.second : ℕ) : ℚ) + rest d = d / Duration.second := by
  have hdiv : (Duration.second : ℚ) * (d / Duration.second : ℕ) + (d % Duration.second : ℕ) = d := by
    exact_mod_cast Nat.div_add_mod d Duration.second
  rw [rest]
  field_simp
  linarith

/-- What the two parts of a span and their sum are rounded to. -/
structure Parts (d : ℕ) (a c f : ℚ) : Prop where
  whole : Nearest (d / Duration.second : ℕ) a
  rest : Nearest (rest d) c
  sum : Nearest (a + c) f

theorem exists_amount_whole (hd : d < 2 ^ 64 * Duration.second) :
    ∃ a, Nearest (d / Duration.second : ℕ) a ∧ Amount (d / Duration.second).toUInt64.toFloat a := by
  have hamount := exists_amount_toFloat (d / Duration.second).toUInt64
  rwa [UInt64.toNat_ofNat_of_lt' (Nat.div_lt_of_lt_mul (by omega))] at hamount

theorem amount_nanoseconds (d : ℕ) :
    Amount (d % Duration.second).toUInt64.toFloat (d % Duration.second : ℕ) :=
  amount_natCast ((Nat.mod_lt d (by norm_num)).trans (by norm_num))

theorem exists_amount_rest (d : ℕ) :
    ∃ c, Nearest (rest d) c ∧
      Amount ((d % Duration.second).toUInt64.toFloat / 1000000000.0) c :=
  ((amount_nanoseconds d).div amount_billion (by norm_num)).amount onGrid_one
    (rest_lt_one d).le (in_range_of_le (by norm_num))

/-- The seconds of every span that there is are a finite number. -/
theorem exists_parts (hd : d < 2 ^ 64 * Duration.second) :
    ∃ a c f, Parts d a c f ∧ Amount (seconds d) f := by
  have hwhole : d / Duration.second < 2 ^ 64 := Nat.div_lt_of_lt_mul (by omega)
  obtain ⟨a, ha, haw⟩ := exists_amount_whole hd
  obtain ⟨c, hc, hcw⟩ := exists_amount_rest d
  have hsum : a + c ≤ 2 ^ (65 : ℤ) := by
    have hwhole' : ((d / Duration.second : ℕ) : ℚ) ≤ 2 ^ (64 : ℤ) := by exact_mod_cast hwhole.le
    have ha64 := ha.ge_of_ge (onGrid_two_zpow (by norm_num)) hwhole'
    have hc1 := hc.ge_of_ge onGrid_one (rest_lt_one d).le
    norm_num at ha64 ⊢
    linarith
  obtain ⟨f, hf, hfw⟩ := (haw.add hcw).amount (onGrid_two_zpow (by norm_num)) hsum
    (in_range_of_le (by norm_num))
  exact ⟨a, c, f, ⟨ha, hc, hf⟩, hfw⟩

namespace Parts

variable (h : Parts d a c f)

include h

theorem rest_near : Near 1 c (Binary64.rest d) := by
  refine h.rest.near ?_
  rcases Nat.eq_zero_or_pos (d % Duration.second) with hzero | hpos
  · left
    rw [Binary64.rest, hzero, Nat.cast_zero, zero_div]
  · right
    have hone : (1 : ℚ) ≤ (d % Duration.second : ℕ) := by exact_mod_cast hpos
    refine normal_of_le ?_
    rw [Binary64.rest, le_div_iff₀ (by norm_num)]
    norm_num
    linarith

theorem whole_near : Near 1 a (d / Duration.second : ℕ) := by
  refine h.whole.near ?_
  rcases Nat.eq_zero_or_pos (d / Duration.second) with hzero | hpos
  · exact .inl (by rw [hzero, Nat.cast_zero])
  · have hone : (1 : ℚ) ≤ (d / Duration.second : ℕ) := by exact_mod_cast hpos
    exact .inr (normal_of_le (by linarith))

/-- **The seconds of a span are off by two roundings.** -/
theorem near : Near 2 f (d / Duration.second) := by
  have hparts := h.whole_near.add h.rest_near
  rw [whole_add_rest] at hparts
  have hsum : a + c = 0 ∨ 2 ^ (-1022 : ℤ) ≤ a + c := by
    rcases Nat.eq_zero_or_pos d with rfl | hpos
    · have hlower := hparts.lower
      have hupper := hparts.upper
      rw [Nat.cast_zero, zero_div, mul_zero] at hlower hupper
      exact .inl (le_antisymm hupper hlower)
    · right
      have hone : (1 : ℚ) ≤ d := by exact_mod_cast hpos
      refine normal_of_le (le_trans ?_ hparts.lower)
      rw [unit_eq]
      norm_num
      linarith
  exact (h.sum.near hsum).trans hparts

theorem rest_lt_one : c < 1 := by
  have hupper := h.rest_near.upper
  have hrest := Binary64.rest_le d
  rw [pow_one, unit_eq] at hupper
  norm_num at hrest
  linarith

/-- Up to 53 binary digits the whole seconds are exact. -/
theorem whole_eq (hsmall : d / Duration.second < 2 ^ 53) : a = (d / Duration.second : ℕ) :=
  h.whole.eq_of_onGrid (onGrid_natCast hsmall)

/-- Beyond them numbers are two seconds apart, and a part of a second makes
no difference. -/
theorem sum_eq (hlarge : 2 ^ 53 ≤ d / Duration.second) : f = a := by
  have hbig : (2 : ℚ) ^ (53 : ℤ) ≤ a :=
    h.whole.le_of_le (onGrid_two_zpow (by norm_num)) (by exact_mod_cast hlarge)
  have hc0 : 0 ≤ c := h.rest.nonneg
  have hc1 : c < 1 := h.rest_lt_one
  have hle : a ≤ f := h.sum.le_of_le h.whole.onGrid (by linarith)
  refine le_antisymm (not_lt.mp fun hlt => ?_) hle
  have hmiddle := h.sum.add_le_of_lt h.whole.onGrid hlt
  have hnext := h.whole.onGrid.apart h.sum.onGrid hbig hlt
  have hdigit : (2 : ℚ) ^ (53 - 52 : ℤ) = 2 := by norm_num
  rw [hdigit] at hnext
  linarith

/-- **Nothing below the seconds of a span is beyond the span**: their
roundings never add up to a number. -/
theorem le_of_lt {g : ℚ} (hg : OnGrid g) (hlt : g < f) : g ≤ d / Duration.second := by
  rw [← whole_add_rest]
  by_contra hbeyond
  rw [not_le] at hbeyond
  have hrest0 := rest_nonneg d
  rcases lt_or_ge (d / Duration.second) (2 ^ 53) with hsmall | hlarge
  · have ha := h.whole_eq hsmall
    have hsum := h.sum
    rcases Nat.eq_zero_or_pos (d / Duration.second) with hzero | hpos
    · -- the sum is what the rest is rounded to
      rw [hzero, Nat.cast_zero] at ha hbeyond
      rw [zero_add] at hbeyond
      rw [ha, zero_add] at hsum
      have hfc : f = c := hsum.eq_of_onGrid h.rest.onGrid
      have hcg := h.rest.ge_of_ge hg hbeyond.le
      linarith
    · -- a sum that passes a number lies above the middle of the way to the next one, which is
      -- farther than the rest was moved
      have hone : (1 : ℚ) ≤ (d / Duration.second : ℕ) := by exact_mod_cast hpos
      have hmiddle := hsum.add_le_of_lt hg hlt
      have hnext := hg.apart hsum.onGrid (k := 0) (by rw [zpow_zero]; linarith) hlt
      have hdigit : (2 : ℚ) ^ (0 - 52 : ℤ) = 2 * unit := by
        rw [unit_eq]
        norm_num
      have hupper := h.rest_near.upper
      have hrest1 := Binary64.rest_lt_one d
      rw [hdigit] at hnext
      rw [pow_one] at hupper
      have hmoved : c ≤ Binary64.rest d + unit := by
        have hshare : unit * Binary64.rest d ≤ unit :=
          mul_le_of_le_one_right unit_pos.le hrest1.le
        linarith
      linarith
  · -- the sum is what the whole seconds are rounded to
    have hag : a ≤ g := h.whole.ge_of_ge hg (by linarith)
    rw [h.sum_eq hlarge] at hlt
    exact absurd hlt (not_lt.mpr hag)

/-- The seconds are not below the whole ones, and not above the next. -/
theorem between (hsmall : d / Duration.second < 2 ^ 53) :
    ((d / Duration.second : ℕ) : ℚ) ≤ f ∧ f ≤ (d / Duration.second + 1 : ℕ) := by
  have ha := h.whole_eq hsmall
  have hc0 : 0 ≤ c := h.rest.nonneg
  have hc1 : c < 1 := h.rest_lt_one
  refine ⟨?_, ?_⟩
  · rw [← ha]
    exact h.sum.le_of_le h.whole.onGrid (by linarith)
  · have hnext : OnGrid ((d / Duration.second + 1 : ℕ) * 2 ^ (0 : ℤ)) :=
      onGrid_of_le hsmall (by norm_num)
    rw [zpow_zero, mul_one] at hnext
    refine h.sum.ge_of_ge hnext ?_
    rw [ha]
    push_cast
    linarith

/-- The seconds of a span are not too small for all their digits, -/
theorem least (hpos : 0 < d) : 2 ^ (-31 : ℤ) ≤ f := by
  refine le_trans ?_ h.near.lower
  have hone : (1 : ℚ) ≤ d := by exact_mod_cast hpos
  rw [unit_eq]
  norm_num
  linarith

/-- and not too large. -/
theorem le (hd : d < 2 ^ 64 * Duration.second) : f ≤ 2 ^ (65 : ℤ) := by
  have hseconds : (d : ℚ) / Duration.second ≤ 2 ^ 64 := by
    rw [div_le_iff₀ (by norm_num)]
    exact_mod_cast hd.le
  refine h.near.upper.trans ?_
  generalize (d : ℚ) / Duration.second = seconds at hseconds ⊢
  rw [unit_eq]
  norm_num
  linarith

end Parts

/-! ## Two spans -/

section TwoSpans

variable {a' c' f' : ℚ} {e : ℕ}

/-- How often a span has another one in it, which is not too often -/
theorem Parts.div_le (h : Parts d a c f) (h' : Parts e a' c' f')
    (hd : d < 2 ^ 64 * Duration.second) (hpos : 0 < e) : f / f' ≤ 2 ^ (96 : ℤ) := by
  have hleast := h'.least hpos
  rw [div_le_iff₀ (lt_of_lt_of_le (by positivity) hleast)]
  calc f ≤ 2 ^ (65 : ℤ) := h.le hd
    _ = 2 ^ (96 : ℤ) * 2 ^ (-31 : ℤ) := by norm_num
    _ ≤ 2 ^ (96 : ℤ) * f' := mul_le_mul_of_nonneg_left hleast (by positivity)

/-- and not too rarely. -/
theorem Parts.le_div (h : Parts d a c f) (h' : Parts e a' c' f')
    (he : e < 2 ^ 64 * Duration.second) (hd : 0 < d) (hpos : 0 < e) :
    2 ^ (-96 : ℤ) ≤ f / f' := by
  rw [le_div_iff₀ (lt_of_lt_of_le (by positivity) (h'.least hpos))]
  calc (2 : ℚ) ^ (-96 : ℤ) * f' ≤ 2 ^ (-96 : ℤ) * 2 ^ (65 : ℤ) :=
        mul_le_mul_of_nonneg_left (h'.le he) (by positivity)
    _ = 2 ^ (-31 : ℤ) := by norm_num
    _ ≤ f := h.least hd

theorem Parts.le_of_whole_lt (h : Parts d a c f) (h' : Parts e a' c' f')
    (hlt : d / Duration.second < e / Duration.second) : f ≤ f' := by
  rcases lt_or_ge (e / Duration.second) (2 ^ 53) with hsmall | hlarge
  · have hnext : ((d / Duration.second + 1 : ℕ) : ℚ) ≤ (e / Duration.second : ℕ) := by
      exact_mod_cast hlt
    exact (h.between (hlt.trans hsmall)).2.trans (hnext.trans (h'.between hsmall).1)
  rw [h'.sum_eq hlarge]
  rcases lt_or_ge (d / Duration.second) (2 ^ 53) with hsmall' | hlarge'
  · have hbig : (2 : ℚ) ^ (53 : ℤ) ≤ a' :=
      h'.whole.le_of_le (onGrid_two_zpow (by norm_num)) (by exact_mod_cast hlarge)
    have hnext : ((d / Duration.second + 1 : ℕ) : ℚ) ≤ 2 ^ (53 : ℤ) := by exact_mod_cast hsmall'
    exact (h.between hsmall').2.trans (hnext.trans hbig)
  · rw [h.sum_eq hlarge']
    exact h.whole.mono h'.whole (by exact_mod_cast hlt)

/-- **A longer span has no fewer seconds.** -/
theorem seconds_mono {p : ℚ} (hle : d ≤ e) (he : e < 2 ^ 64 * Duration.second)
    (hp : Amount (seconds d) p) (hq : Amount (seconds e) q) : p ≤ q := by
  have hd := hle.trans_lt he
  rcases (Nat.div_le_div_right hle : d / Duration.second ≤ e / Duration.second).lt_or_eq with
    hlt | hsame
  · obtain ⟨a, c, f, hparts, hf⟩ := exists_parts hd
    obtain ⟨a', c', f', hparts', hf'⟩ := exists_parts he
    rw [hp.unique hf, hq.unique hf']
    exact hparts.le_of_whole_lt hparts' hlt
  · obtain ⟨a, -, ha⟩ := exists_amount_whole hd
    obtain ⟨c, -, hc⟩ := exists_amount_rest d
    obtain ⟨c', -, hc'⟩ := exists_amount_rest e
    have hrest : ((d % Duration.second : ℕ) : ℚ) ≤ (e % Duration.second : ℕ) := by
      have hdiv := Nat.div_add_mod d Duration.second
      have hdiv' := Nat.div_add_mod e Duration.second
      rw [← hsame] at hdiv'
      exact_mod_cast (by omega : d % Duration.second ≤ e % Duration.second)
    have hcc : c ≤ c' := Rounded.le_of_le (fun h => h.div amount_billion (by norm_num))
      (fun _ _ h => div_lt_div_of_pos_right h (by norm_num)) (amount_nanoseconds d)
      (amount_nanoseconds e) hrest hc hc'
    rw [seconds, ← hsame] at hq
    exact Rounded.le_of_le (fun h => ha.add h) (fun _ _ h => add_lt_add_right h a) hc hc' hcc hp hq

end TwoSpans

/-! ## The span of a number of seconds -/

theorem twoPow_eq (e : ℤ) : 0 < (twoPow e).2 ∧ ((twoPow e).1 : ℚ) / (twoPow e).2 = 2 ^ e := by
  rw [twoPow]
  split
  · next hnonneg =>
    obtain ⟨n, rfl⟩ := Int.eq_ofNat_of_zero_le hnonneg
    exact ⟨Nat.one_pos, by simp⟩
  · next hneg =>
    obtain ⟨n, rfl⟩ := Int.exists_eq_neg_ofNat (not_le.mp hneg).le
    exact ⟨Nat.two_pow_pos _, by simp⟩

/-- A quotient is rounded to a whole number that is half a unit off at
most. -/
theorem abs_roundHalfEven_sub_le (num : ℕ) {den : ℕ} (hden : 0 < den) :
    |(Decimal.roundHalfEven num den : ℚ) - num / den| ≤ 1 / 2 := by
  have hpos : (0 : ℚ) < den := by exact_mod_cast hden
  have hbelow : 2 * (num : ℚ) ≤ 2 * (den * Decimal.roundHalfEven num den) + den := by
    have hnat : 2 * num ≤ _ := Decimal.two_mul_le_roundHalfEven hden
    exact_mod_cast hnat
  have habove : 2 * (den * (Decimal.roundHalfEven num den : ℚ)) ≤ 2 * num + den := by
    have hnat : _ ≤ 2 * num + den := Decimal.two_mul_roundHalfEven_le hden
    exact_mod_cast hnat
  have hscale : (Decimal.roundHalfEven num den : ℚ) - num / den =
      (den * Decimal.roundHalfEven num den - num) / den := by
    field_simp
  rw [hscale, abs_le, le_div_iff₀ hpos, div_le_iff₀ hpos]
  constructor <;> linarith

theorem span_eq {b : Binary64} (hsome : ofFloat? x = some b) (hsign : b.negative = false) :
    span x = Decimal.roundHalfEven (b.magnitude.1 * Duration.second) b.magnitude.2 := by
  rw [span, hsome]
  exact if_neg (ne_true_of_eq_false hsign)

/-- **The span is the nearest one**: it is half a nanosecond off at
most. -/
theorem abs_span_sub_le (h : Amount x q) : |(span x : ℚ) - q * Duration.second| ≤ 1 / 2 := by
  obtain ⟨b, hsome, hsign, rfl⟩ := h
  obtain ⟨hden, hpow⟩ := twoPow_eq b.exponent
  have hvalue : (b.significand : ℚ) * 2 ^ b.exponent * Duration.second =
      (b.magnitude.1 * Duration.second : ℕ) / b.magnitude.2 := by
    generalize Duration.second = second
    rw [← hpow, magnitude]
    push_cast
    ring
  rw [span_eq hsome hsign, hvalue]
  exact abs_roundHalfEven_sub_le _ hden

/-- A number of seconds that is within a limit has a span within it. -/
theorem span_le (h : Amount x q) (hle : q ≤ n / Duration.second) : span x ≤ n := by
  have hnear := (abs_le.mp (abs_span_sub_le h)).2
  rw [le_div_iff₀ (by norm_num)] at hle
  generalize (Duration.second : ℚ) = second at hnear hle
  have hlt : (span x : ℚ) < n + 1 := by linarith
  exact Nat.lt_succ_iff.mp (by exact_mod_cast hlt)

end Binary64

end CapabilityBroker
