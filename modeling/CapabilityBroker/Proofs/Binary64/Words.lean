import CapabilityBroker.Decimal.Binary64
import CapabilityBroker.Proofs.Binary64.Rounding
/-!
# Words of binary64

A binary64 word has a sign, a field for the exponent and a field for the
significand (`ofFields`, `unpack_eq`). Taken apart (`ofFloat?`) or unpacked
by the arithmetic it stands for the same amount (`amount_iff`). What the
arithmetic packs is read again as it was, unless it is too large: then the
word is the infinite one (`Worth.unpack_pack`).
-/

namespace CapabilityBroker

namespace Binary64

open Float.Model Float.Model.UnpackedFloat

/-- A finite number without a sign, and what it is worth exactly. -/
def Amount (x : Float) (q : ℚ) : Prop :=
  ∃ b, ofFloat? x = some b ∧ b.negative = false ∧ b.significand * 2 ^ b.exponent = q

theorem Amount.unique {x : Float} {q r : ℚ} (hq : Amount x q) (hr : Amount x r) : q = r := by
  obtain ⟨b, hb, -, rfl⟩ := hq
  obtain ⟨b', hb', -, rfl⟩ := hr
  obtain rfl := Option.some.inj (hb.symm.trans hb')
  rfl

/-- The infinite number without a sign. -/
def IsInfinite (x : Float) : Prop := x.toModel.unpack = .infinity .positive

variable {x : Float} {b : Binary64} {u : UnpackedFloat} {m : ℕ} {e : ℤ} {q r : ℚ}

/-! ## The fields of a word -/

/-- What the fields of a word stand for. -/
def ofFields (sign : Sign) (exponent fraction : ℕ) : UnpackedFloat :=
  if exponent = 2047 then if fraction = 0 then .infinity sign else .notANumber
  else if exponent = 0 then
    if h : fraction = 0 then .zero sign else .finite sign fraction (-1074) (Nat.pos_of_ne_zero h)
  else .finite sign (2 ^ 52 + fraction) (exponent - 1075) (by positivity)

theorem unpack_eq (w : BitVec Format.binary64.numBits) : UnpackedFloat.unpack Format.binary64 w =
    ofFields (.ofBitVec (unpackSign w))
      (unpackExponent w).toNat
      (unpackMantissa w).toNat := by
  have hbias : (Format.binary64.exponentBias : ℤ) + (52 : ℕ) = 1075 := rfl
  have himplicit (f : BitVec 52) : (1#1 ++ f).toNat = 2 ^ 52 + f.toNat := by
    rw [BitVec.toNat_append, ← Nat.shiftLeft_add_eq_or_of_lt f.isLt]
    rfl
  have hones (b : BitVec 11) : b = -1#11 ↔ b.toNat = 2047 := BitVec.toNat_inj.symm
  have hzero {n : ℕ} (b : BitVec n) : b = 0#n ↔ b.toNat = 0 := by
    rw [← BitVec.toNat_inj, BitVec.toNat_zero]
  simp only [UnpackedFloat.unpack, himplicit, hbias, hones, hzero, ofFields]
  split
  · rfl
  · split
    · next hexponent => simp [hexponent]
    · rfl

theorem toNat_unpackExponent (w : BitVec Format.binary64.numBits) :
    (unpackExponent w).toNat = w.toNat / 2 ^ 52 % 2048 := by
  simp [unpackExponent, Nat.shiftRight_eq_div_pow]

theorem toNat_unpackMantissa (w : BitVec Format.binary64.numBits) :
    (unpackMantissa w).toNat = w.toNat % 2 ^ 52 := by
  simp [unpackMantissa]

theorem ofBitVec_unpackSign (w : BitVec Format.binary64.numBits) :
    Sign.ofBitVec (unpackSign w) =
      if w.toNat / 2 ^ 63 = 1 then .negative else .positive := by
  have hlt : w.toNat < 2 ^ 64 := w.isLt
  have hbit : (unpackSign w).toNat = w.toNat / 2 ^ 63 := by
    simp [unpackSign, Nat.shiftRight_eq_div_pow]
    omega
  have hzero : unpackSign w = 0#1 ↔ ¬ w.toNat / 2 ^ 63 = 1 := by
    rw [← BitVec.toNat_inj, hbit, BitVec.toNat_zero]
    omega
  simp only [Sign.ofBitVec, hzero, ite_not]

theorem unpack_toModel (x : Float) : x.toModel.unpack =
    ofFields (if x.toBits.toNat / 2 ^ 63 = 1 then .negative else .positive)
      (x.toBits.toNat / 2 ^ 52 % 2048) (x.toBits.toNat % 2 ^ 52) := by
  have hunpack := unpack_eq x.toModel.toBits.toBitVec
  rw [toNat_unpackExponent, toNat_unpackMantissa, ofBitVec_unpackSign] at hunpack
  exact hunpack

/-! ## Taking a number apart -/

/-- The parts of a number, unpacked. -/
def unpacked (b : Binary64) : UnpackedFloat :=
  let sign : Sign := if b.negative then .negative else .positive
  if h : b.significand = 0 then .zero sign
  else .finite sign b.significand b.exponent (Nat.pos_of_ne_zero h)

/-- **A finite number is unpacked into its parts**, and no other one has
any. -/
theorem unpack_cases (x : Float) :
    (ofFloat? x = none ∧ x.toModel.unpack.isFinite = false) ∨
      ∃ b, ofFloat? x = some b ∧ x.toModel.unpack = b.unpacked ∧
        Canonical b.significand b.exponent := by
  rw [unpack_toModel, ofFloat?]
  generalize x.toBits.toNat = w
  have hfraction : w % 2 ^ 52 < 2 ^ 52 := Nat.mod_lt _ (by norm_num)
  have hfield : w / 2 ^ 52 % 2048 < 2048 := Nat.mod_lt _ (by norm_num)
  simp only [Nat.pow_eq, ofFields]
  generalize w % 2 ^ 52 = fraction at *
  generalize w / 2 ^ 52 % 2048 = field at *
  by_cases hrange : field = 2047
  · rw [if_pos hrange, if_pos hrange]
    refine .inl ⟨rfl, ?_⟩
    split <;> rfl
  · rw [if_neg hrange, if_neg hrange]
    right
    by_cases hsmall : field = 0
    · rw [if_pos hsmall, if_pos hsmall]
      refine ⟨_, rfl, ?_, hfraction.trans (by norm_num), le_rfl, .inr rfl⟩
      simp [unpacked]
    · rw [if_neg hsmall, if_neg hsmall]
      have hlong : fraction + 2 ^ 52 < 2 ^ 53 := by omega
      have hleast : (-1074 : ℤ) ≤ field - 1075 := by omega
      refine ⟨_, rfl, ?_, hlong, hleast, .inl (Nat.le_add_left _ _)⟩
      simp [unpacked, Nat.add_comm]

theorem amount_iff : Amount x q ↔ Worth x.toModel.unpack q := by
  rcases unpack_cases x with ⟨hnone, hinfinite⟩ | ⟨b, hsome, hunpack, hcanonical⟩
  · refine ⟨?_, fun hworth => ?_⟩
    · rintro ⟨b, hsome, -⟩
      rw [hnone] at hsome
      cases hsome
    · generalize x.toModel.unpack = u at hinfinite hworth
      cases hworth <;> cases hinfinite
  · rw [hunpack]
    refine ⟨?_, fun hworth => ⟨b, hsome, ?_⟩⟩
    · rintro ⟨b', hsome', hsign, rfl⟩
      obtain rfl := Option.some.inj (hsome.symm.trans hsome')
      rw [unpacked, hsign]
      split
      · next hzero =>
        rw [hzero, Nat.cast_zero, zero_mul]
        exact .zero
      · exact .finite _ hcanonical
    · obtain ⟨negative, significand, exponent⟩ := b
      rw [unpacked] at hworth
      cases negative with
      | true => split at hworth <;> cases hworth
      | false =>
        split at hworth
        · next hzero =>
          cases hworth
          refine ⟨rfl, ?_⟩
          simp only at hzero
          simp [hzero]
        · cases hworth
          exact ⟨rfl, rfl⟩

/-! ## What is packed -/

theorem unpack_packComponents (exponent : BitVec 11) (fraction : BitVec 52) :
    UnpackedFloat.unpack Format.binary64
        (packComponents Format.binary64 .positive exponent fraction) =
      ofFields .positive exponent.toNat fraction.toNat := by
  rw [unpack_eq, unpackSign_packComponents, unpackExponent_packComponents,
    unpackMantissa_packComponents]
  rfl

/-- What fits is read as it was packed. -/
theorem unpack_pack_of_le (hpos : 0 < m) (hm : Canonical m e) (he : e ≤ 971) :
    UnpackedFloat.unpack Format.binary64
        (UnpackedFloat.pack Format.binary64 (.finite .positive m e hpos)) =
      .finite .positive m e hpos := by
  have hleast := hm.least
  have hshort := hm.short
  have hbiased : (e + (Format.binary64.exponentBias : ℤ) + (52 : ℕ)).toNat = (e + 1075).toNat := by
    have hbias : (Format.binary64.exponentBias : ℤ) = 1023 := rfl
    rw [hbias]
    omega
  have hroom : ¬ 2 ^ 11 ≤ (e + 1075).toNat + 1 := by omega
  have hfield : (e + 1075).toNat % 2 ^ 11 = (e + 1075).toNat := Nat.mod_eq_of_lt (by omega)
  simp only [UnpackedFloat.pack]
  rw [hbiased, if_neg hroom]
  by_cases hfull : 2 ^ 52 ≤ m
  · have hlog : m.log2 + 1 = Format.binary64.mantissaBits :=
      congrArg (· + 1) ((Nat.log2_eq_iff hpos.ne').mpr ⟨hfull, hshort⟩)
    have himplicit : 2 ^ 52 + m % 2 ^ 52 = m := by omega
    rw [if_pos hlog, unpack_packComponents, BitVec.toNat_ofNat, BitVec.toNat_ofNat, hfield, ofFields,
      if_neg (by omega), if_neg (by omega)]
    congr 1
    omega
  · have hlog : ¬ m.log2 + 1 = Format.binary64.mantissaBits := by
      have hlt := (Nat.log2_lt hpos.ne').mpr (not_le.mp hfull)
      change ¬ m.log2 + 1 = 53
      omega
    have hfraction : m % 2 ^ 52 = m := Nat.mod_eq_of_lt (not_le.mp hfull)
    have hzero : (0#11).toNat = 0 := rfl
    have hnat : (BitVec.ofNat 52 m).toNat = m := (BitVec.toNat_ofNat ..).trans hfraction
    rw [if_neg hlog, unpack_packComponents, hzero, hnat, ofFields, if_neg (by norm_num), if_pos rfl,
      dif_neg hpos.ne']
    congr 1
    exact (hm.full.resolve_left hfull).symm

/-- What is too large becomes infinite. -/
theorem unpack_pack_of_gt (hpos : 0 < m) (he : 971 < e) :
    UnpackedFloat.unpack Format.binary64
        (UnpackedFloat.pack Format.binary64 (.finite .positive m e hpos)) =
      .infinity .positive := by
  have hroom : 2 ^ 11 ≤ (e + (Format.binary64.exponentBias : ℤ) + (52 : ℕ)).toNat + 1 := by
    have hbias : (Format.binary64.exponentBias : ℤ) = 1023 := rfl
    rw [hbias]
    omega
  simp only [UnpackedFloat.pack]
  rw [if_pos hroom]
  rfl

/-- The exponent of what is worth less than `2 ^ 1024` is in range. -/
theorem Canonical.le_iff (h : Canonical m e) : e ≤ 971 ↔ (m : ℚ) * 2 ^ e < 2 ^ 1024 := by
  constructor
  · intro he
    have hm : (m : ℚ) < 2 ^ 53 := by exact_mod_cast h.short
    have hexp : (2 : ℚ) ^ e ≤ 2 ^ (971 : ℤ) := zpow_le_zpow_right₀ one_le_two he
    calc (m : ℚ) * 2 ^ e < 2 ^ 53 * 2 ^ e := mul_lt_mul_of_pos_right hm (by positivity)
      _ ≤ 2 ^ 53 * 2 ^ (971 : ℤ) := by gcongr
      _ = 2 ^ 1024 := (zpow_split 971 53).symm.trans (zpow_natCast 2 1024)
  · intro hlt
    by_contra he
    rw [not_le] at he
    have hfull : 2 ^ 52 ≤ m := h.full.resolve_right (by omega)
    have hm : (2 : ℚ) ^ 52 ≤ m := by exact_mod_cast hfull
    have hexp : (2 : ℚ) ^ (972 : ℤ) ≤ 2 ^ e := zpow_le_zpow_right₀ one_le_two he
    have hleast : (2 : ℚ) ^ 52 * 2 ^ (972 : ℤ) = 2 ^ 1024 :=
      (zpow_split 972 52).symm.trans (zpow_natCast 2 1024)
    have hge : (2 : ℚ) ^ 1024 ≤ m * 2 ^ e := by
      rw [← hleast]
      gcongr
    exact absurd hlt (not_lt.mpr hge)

/-- **What is packed is read again**, or is infinite if it is too large. -/
theorem Worth.unpack_pack (h : Worth u r) :
    UnpackedFloat.unpack Format.binary64 (UnpackedFloat.pack Format.binary64 u) =
      if r < 2 ^ 1024 then u else .infinity .positive := by
  cases h with
  | zero =>
    rw [if_pos (by positivity)]
    rfl
  | @finite m e hpos hcanonical =>
    have hrange := hcanonical.le_iff
    split
    · next hlt => exact unpack_pack_of_le hpos hcanonical (hrange.mpr hlt)
    · next hge => exact unpack_pack_of_gt hpos (not_le.mp (mt hrange.mp hge))

end Binary64

end CapabilityBroker
