import RequestRunner.Proofs.Decimal.Packing

/-!
# Whole numbers are rounded to whole numbers

A significand that is shifted by places that hold zeros alone loses nothing
(`shiftRight_of_dvd`), so a whole number is rounded to a whole number (`exists_round_whole`), a large
one perhaps to infinity (`FullWhole.integral_unpack_pack`). Decimals are read by such roundings: one
without a fraction is read as a whole number or infinity (`integral_ofDecimal`), and none is read as
something undefined or below zero (`sign?_ofDecimal`).
-/

set_option autoImplicit false

namespace RequestRunner.Decimal

open Float.Model (Format UnpackedFloat)
open Float.Model.UnpackedFloat

/-! ## Shifting -/

/-- A significand without residual bits. -/
abbrev exactly (m : Nat) : ExtendedMantissa := ⟨m, false, false⟩

theorem mantissa_shiftRight (x : ExtendedMantissa) (n : Nat) :
    (x >>> n).mantissa = x.mantissa / 2 ^ n := by
  induction n with
  | zero => exact (Nat.div_one _).symm
  | succ n ih =>
    change (x >>> n).mantissa / 2 = _
    rw [ih, Nat.div_div_eq_div_mul, Nat.pow_succ]

/-- A significand is shifted exactly by places that hold zeros alone. -/
theorem shiftRight_of_dvd {m n : Nat} (h : 2 ^ n ∣ m) :
    exactly m >>> n = exactly (m / 2 ^ n) := by
  induction n with
  | zero => exact congrArg exactly (Nat.div_one _).symm
  | succ n ih =>
    obtain ⟨k, rfl⟩ := h
    have hpos : 0 < 2 ^ n := Nat.two_pow_pos n
    have hquotient : 2 ^ (n + 1) * k / 2 ^ n = 2 * k := by
      rw [Nat.pow_succ, Nat.mul_assoc, Nat.mul_div_cancel_left _ hpos]
    change (exactly (2 ^ (n + 1) * k) >>> n).shiftRightOne = _
    rw [ih ⟨2 * k, by rw [Nat.pow_succ, Nat.mul_assoc]⟩, hquotient,
      Nat.mul_div_cancel_left _ (Nat.two_pow_pos _), ExtendedMantissa.shiftRightOne]
    simp

theorem roundedMantissa_bounds (x : ExtendedMantissa) :
    x.mantissa ≤ x.roundedMantissa ∧ x.roundedMantissa ≤ x.mantissa + 1 := by
  obtain ⟨m, roundBit, stickyBit⟩ := x
  have hparity : m % 2 ≤ 1 := Nat.le_of_lt_succ (Nat.mod_lt _ (by decide))
  cases roundBit <;> cases stickyBit <;>
    simp [ExtendedMantissa.roundedMantissa, ExtendedMantissa.accuracy,
      Accuracy.roundToNearestEven, hparity]

theorem targetExponent_eq (m : Nat) (e : Int) :
    Format.binary64.targetExponent (Float.Model.totalExponent m e) =
      max ((m.log2 : Int) + e - 52) (-1074) := by
  have hmin : Format.binary64.minExponent = -1074 := by decide
  rw [Format.targetExponent, hmin, Float.Model.totalExponent]
  change max ((m.log2 : Int) + 1 + e - (53 : Nat)) (-1074) = _
  omega

/-- How far a significand is shifted. -/
theorem shiftToTargetExponent_eq {m n : Nat} {e t : Int}
    (ht : max ((m.log2 : Int) + e - 52) (-1074) = t) (hn : (t - e).toNat = n) :
    shiftToTargetExponent .binary64 m e .exact = (exactly m >>> n, e + n) := by
  rw [shiftToTargetExponent, targetExponent_eq, ht]
  simp only [shiftToExponent, hn, ExtendedMantissa.ofMantissaAndAccuracy]

theorem log2_eq_of_bounds {m : Nat} (hlow : 2 ^ 52 ≤ m) (hhigh : m < 2 ^ 53) : m.log2 = 52 := by
  have hm : m ≠ 0 := by omega
  have hle := (Nat.le_log2 hm).2 hlow
  have hlt := (Nat.log2_lt hm).2 hhigh
  omega

/-- A significand that has all its bits stays where it is. -/
theorem shiftToTargetExponent_of_full {m : Nat} {e : Int} (hlow : 2 ^ 52 ≤ m) (hhigh : m < 2 ^ 53)
    (he : -1074 ≤ e) :
    shiftToTargetExponent .binary64 m e .exact = (exactly m, e) := by
  have hlog := log2_eq_of_bounds hlow hhigh
  rw [shiftToTargetExponent_eq (n := 0) (t := e) (by omega) (by omega)]
  exact congrArg (Prod.mk _) (Int.add_zero e)

/-- One that has one bit too many after rounding is shifted by one place. -/
theorem shiftToTargetExponent_of_carry {e : Int} (he : -1074 ≤ e) :
    shiftToTargetExponent .binary64 (2 ^ 53) e .exact = (exactly (2 ^ 52), e + 1) := by
  have hlog : (2 ^ 53).log2 = 53 := Nat.log2_two_pow
  rw [shiftToTargetExponent_eq (n := 1) (t := e + 1) (by omega) (by omega)]
  rfl

/-! ## Whole numbers -/

/-- The significand has all its bits, and with its exponent it is a whole number. -/
structure FullWhole (m : Nat) (e : Int) : Prop where
  low : 2 ^ 52 ≤ m
  high : m < 2 ^ 53
  exponent : -52 ≤ e
  dvd : 2 ^ (-e).toNat ∣ m

theorem FullWhole.of_nonneg {m : Nat} {e : Int} (hlow : 2 ^ 52 ≤ m) (hhigh : m < 2 ^ 53)
    (he : 0 ≤ e) : FullWhole m e := by
  refine ⟨hlow, hhigh, by omega, ?_⟩
  rw [show (-e).toNat = 0 by omega]
  exact Nat.one_dvd m

/-- A whole number has no more places behind the point than in front of it. -/
theorem log2_add_nonneg {m : Nat} {e : Int} (hm : m ≠ 0) (hdvd : 2 ^ (-e).toNat ∣ m) :
    0 ≤ (m.log2 : Int) + e := by
  have hle := (Nat.le_log2 hm).2 (Nat.le_of_dvd (Nat.pos_of_ne_zero hm) hdvd)
  omega

/-- **Whole numbers are rounded to whole numbers.** -/
theorem exists_round_whole (sign : Sign) {m : Nat} {e : Int} (hm : 2 ^ 52 ≤ m)
    (hdvd : 2 ^ (-e).toNat ∣ m) :
    ∃ m' e' h, roundWithAccuracy .binary64 sign m e .exact = .finite sign m' e' h ∧
      FullWhole m' e' := by
  have hne : m ≠ 0 := by omega
  have htotal := log2_add_nonneg hne hdvd
  have hlog : 52 ≤ m.log2 := (Nat.le_log2 hne).2 hm
  obtain ⟨n, hn⟩ : ∃ n, m.log2 = 52 + n := ⟨m.log2 - 52, by omega⟩
  have hfirst : shiftToTargetExponent .binary64 m e .exact = (exactly m >>> n, e + n) :=
    shiftToTargetExponent_eq (n := n) (t := e + n) (by omega) (by omega)
  have hlow : 2 ^ 52 ≤ m / 2 ^ n := by
    rw [Nat.le_div_iff_mul_le (Nat.two_pow_pos n), ← Nat.pow_add, ← hn]
    exact Nat.log2_self_le hne
  have hhigh : m / 2 ^ n < 2 ^ 53 := by
    rw [Nat.div_lt_iff_lt_mul (Nat.two_pow_pos n), ← Nat.pow_add]
    exact (Nat.log2_lt hne).1 (by omega)
  have hstay : ∀ {r : Nat}, 2 ^ 52 ≤ r → r < 2 ^ 53 → (exactly m >>> n).roundedMantissa = r →
      ∃ h, roundWithAccuracy .binary64 sign m e .exact = .finite sign r (e + n) h := by
    intro r hr hr' hrounded
    rw [roundWithAccuracy, hfirst]
    dsimp only
    rw [hrounded, shiftToTargetExponent_of_full hr hr' (by omega)]
    have hr0 : r ≠ 0 := by omega
    exact ⟨Nat.pos_of_ne_zero hr0, dif_neg hr0⟩
  rcases Int.lt_or_le (e + n) 0 with hneg | hnonneg
  · -- the places that are lost hold zeros
    obtain ⟨j, hj⟩ : ∃ j, (-e).toNat = n + j := ⟨(-e).toNat - n, by omega⟩
    obtain ⟨k, hk⟩ := hdvd
    have hquotient : m / 2 ^ n = 2 ^ j * k := by
      rw [hk, hj, Nat.pow_add, Nat.mul_assoc, Nat.mul_div_cancel_left _ (Nat.two_pow_pos n)]
    have hexact : exactly m >>> n = exactly (m / 2 ^ n) :=
      shiftRight_of_dvd ⟨2 ^ j * k, by rw [hk, hj, Nat.pow_add, Nat.mul_assoc]⟩
    obtain ⟨h, hround⟩ := hstay hlow hhigh (by rw [hexact]; rfl)
    refine ⟨_, _, h, hround, hlow, hhigh, by omega, ?_⟩
    rw [hquotient, show (-(e + n)).toNat = j by omega]
    exact Nat.dvd_mul_right _ k
  · -- any significand will do
    obtain ⟨hbelow, habove⟩ := roundedMantissa_bounds (exactly m >>> n)
    have hquotient : (exactly m >>> n).mantissa = m / 2 ^ n := mantissa_shiftRight (exactly m) n
    rw [hquotient] at hbelow habove
    rcases Nat.lt_or_ge (exactly m >>> n).roundedMantissa (2 ^ 53) with hfits | hcarry
    · obtain ⟨h, hround⟩ := hstay (by omega) hfits rfl
      exact ⟨_, _, h, hround, .of_nonneg (by omega) hfits hnonneg⟩
    · have hrounded : (exactly m >>> n).roundedMantissa = 2 ^ 53 := by omega
      refine ⟨2 ^ 52, e + n + 1, by decide, ?_, .of_nonneg (Nat.le_refl _) (by decide) (by omega)⟩
      rw [roundWithAccuracy, hfirst]
      dsimp only
      rw [hrounded, shiftToTargetExponent_of_carry (by omega)]
      exact dif_neg (show ¬2 ^ 52 = 0 by decide)

/-- An unpacked whole number of a sign, or an infinity. -/
inductive Integral (sign : Sign) : UnpackedFloat → Prop
  | infinity : Integral sign (.infinity sign)
  | zero : Integral sign (.zero sign)
  | finite {m : Nat} {e : Int} (hm : 0 < m) (hwhole : FullWhole m e) (he : e ≤ 971) :
    Integral sign (.finite sign m e hm)

theorem Integral.sign?_eq {sign : Sign} {x : UnpackedFloat} (h : Integral sign x) :
    sign? x = some sign := by
  cases h <;> rfl

/-- Packing keeps whole numbers, apart from those that are too large. -/
theorem FullWhole.integral_unpack_pack {sign : Sign} {m : Nat} {e : Int} (h : FullWhole m e)
    (hm : 0 < m) : Integral sign (unpack .binary64 (pack .binary64 (.finite sign m e hm))) := by
  have hexponent := h.exponent
  rcases Int.lt_or_le 971 e with hlarge | hfits
  · rw [unpack_pack_large hm hlarge]
    exact .infinity
  · rw [unpack_pack_finite hm h.low h.high (by omega) hfits]
    exact .finite hm h hfits

theorem Integral.unpack_pack {sign : Sign} {x : UnpackedFloat} (h : Integral sign x) :
    Integral sign (unpack .binary64 (pack .binary64 x)) := by
  cases h with
  | infinity =>
    rw [unpack_pack_infinity]
    exact .infinity
  | zero =>
    rw [unpack_pack_zero]
    exact .zero
  | finite hm hwhole he => exact hwhole.integral_unpack_pack hm

theorem Integral.neg {sign : Sign} {x : UnpackedFloat} (h : Integral sign x) :
    Integral (-sign) x.neg := by
  cases h with
  | infinity => exact .infinity
  | zero => exact .zero
  | finite hm hwhole he => exact .finite hm hwhole he

theorem Integral.unpack_neg {sign : Sign} {x : Float} (h : Integral sign x.toModel.unpack) :
    Integral (-sign) (-x).toModel.unpack :=
  h.neg.unpack_pack

/-- **What is integral is whole, unless it is infinite.** -/
theorem Integral.isWhole_eq {sign : Sign} {x : Float} (h : Integral sign x.toModel.unpack) :
    isWhole x = !x.isInf := by
  have hnan : x.isNaN = false := isNaN_of_sign? h.sign?_eq
  rw [isWhole, hnan, Bool.false_or]
  cases hx : x.toModel.unpack with
  | infinity _ =>
    have hinf : x.isInf = true := congrArg UnpackedFloat.isInf hx
    rw [hinf]
    rfl
  | notANumber =>
    rw [hx] at h
    cases h
  | zero _ =>
    have hinf : x.isInf = false := congrArg UnpackedFloat.isInf hx
    rw [hinf, ofFloat?_of_zero hx]
    rfl
  | finite _ m e hm =>
    have hinf : x.isInf = false := congrArg UnpackedFloat.isInf hx
    obtain ⟨narrow, hdecoded⟩ := ofFloat?_of_finite hx
    rw [hx] at h
    cases h with
    | finite hm hwhole he =>
      rw [hinf, hdecoded]
      change Binary.isWhole ⟨m, e, narrow⟩ = true
      simp only [Binary.isWhole, Bool.or_eq_true, beq_iff_eq]
      right
      exact Nat.mod_eq_zero_of_dvd hwhole.dvd

/-- A rounded whole number is one when it is packed. -/
theorem integral_round (sign : Sign) {m : Nat} {e : Int} (hm : 2 ^ 52 ≤ m)
    (hdvd : 2 ^ (-e).toNat ∣ m) :
    Integral sign (unpack .binary64 (pack .binary64
      (roundWithAccuracy .binary64 sign m e .exact))) := by
  obtain ⟨m', e', h, hround, hwhole⟩ := exists_round_whole sign hm hdvd
  rw [hround]
  exact hwhole.integral_unpack_pack h

/-- A whole number times one is a whole number. -/
theorem Integral.mul_one {sign : Sign} {x : UnpackedFloat} (h : Integral sign x)
    (hone : 0 < 2 ^ 52) :
    Integral sign (unpack .binary64 (pack .binary64
      (mul .binary64 x (.finite .positive (2 ^ 52) (-52) hone)))) := by
  have hsign : sign * .positive = sign := by cases sign <;> rfl
  cases h with
  | infinity =>
    rw [mul, hsign]
    exact Integral.infinity.unpack_pack
  | zero =>
    rw [mul, hsign]
    exact Integral.zero.unpack_pack
  | @finite m e hm hwhole he =>
    rw [mul, hsign]
    have hlow := hwhole.low
    apply integral_round
    · omega
    · rcases Int.lt_or_le 0 e with hpos | hneg
      · exact Nat.dvd_mul_left_of_dvd (Nat.pow_dvd_pow 2 (by omega)) m
      · rw [show (-(e + -52)).toNat = (-e).toNat + 52 by omega, Nat.pow_add]
        exact Nat.mul_dvd_mul_right hwhole.dvd _

/-! ## Floating-point numbers -/

/-- Machine words that fit are converted exactly. -/
theorem integral_toFloat {n : Nat} (hn : n ≠ 0) (hfits : n < 2 ^ 53) :
    Integral .positive n.toUInt64.toFloat.toModel.unpack := by
  have htoNat : n.toUInt64.toNat = n := by
    change n % 2 ^ 64 = n
    exact Nat.mod_eq_of_lt (by omega)
  have hgt : compare (n : Int) 0 = .gt := Int.compare_eq_gt.2 (by omega)
  have hlog : n.log2 < 53 := (Nat.log2_lt hn).2 hfits
  obtain ⟨k, hk⟩ : ∃ k, 52 = n.log2 + k := ⟨52 - n.log2, by omega⟩
  have hshift : (0 - Format.binary64.targetExponent (Float.Model.totalExponent n 0)).toNat = k := by
    rw [targetExponent_eq]
    omega
  change Integral .positive (unpack .binary64 (pack .binary64
    (UnpackedFloat.normalize .binary64 (n.toUInt64.toNat : Int) 0 .positive)))
  rw [htoNat, UnpackedFloat.normalize, hgt]
  dsimp only
  -- the significand is shifted up until it has all its bits
  rw [Int.toNat_natCast, UnpackedFloat.round]
  simp only [decreaseExponent, hshift, Nat.shiftLeft_eq]
  apply integral_round
  · rw [hk, Nat.pow_add]
    exact Nat.mul_le_mul_right _ (Nat.log2_self_le hn)
  · rw [show (-(0 - (k : Int))).toNat = k by omega]
    exact Nat.dvd_mul_left _ n

theorem unpack_one (hone : 0 < 2 ^ 52) :
    (Float.exactlyRepresentablePowersOfTen[0]).toModel.unpack =
      .finite .positive (2 ^ 52) (-52) hone := by
  have hbits : (Float.exactlyRepresentablePowersOfTen[0]).toModel.toBits = 0x3FF0000000000000 := by
    decide +kernel
  rw [Float.Model.unpack, hbits]
  rfl

/-- A natural number is rounded to a whole number. -/
theorem integral_ofScientific {n : Nat} (hn : n ≠ 0) :
    Integral .positive (Float.ofScientific n false 0).toModel.unpack := by
  by_cases hfast : n < 2 ^ 53 ∧ 0 ≤ 22
  · rw [Float.ofScientific, dif_pos hfast]
    -- the power of ten is one
    have hproduct := (integral_toFloat hn hfast.1).mul_one (by decide)
    rw [← unpack_one (by decide)] at hproduct
    exact hproduct
  · rw [Float.ofScientific, dif_neg hfast]
    change Integral .positive (unpack .binary64 (pack .binary64 (ofScientific .binary64 n 0)))
    have hbits : (0 : Int) ≤ 2 ^ Format.binary64.exponentBits := by decide
    have hlow : ¬(0 : Int) < -((2 ^ Format.binary64.exponentBits : Int) + n.log2) := by omega
    rw [ofScientific, dif_neg hn, if_neg (by decide), if_neg hlow, if_pos (by decide), mul]
    apply integral_round
    · rw [Nat.shiftLeft_eq]
      have hmany : 2 ^ 53 ≤ n * 2 ^ 53 := Nat.le_mul_of_pos_left _ (Nat.pos_of_ne_zero hn)
      change 2 ^ 52 ≤ n * 2 ^ 53 * 10 ^ 0
      omega
    · rw [Nat.shiftLeft_eq]
      change 2 ^ 53 ∣ n * 2 ^ 53 * 1
      rw [Nat.mul_one]
      exact Nat.dvd_mul_left _ n

/-- The sign of what is rounded stays. -/
theorem sign?_roundWithAccuracy (sign : Sign) (m : Nat) (e : Int) (accuracy : Accuracy) :
    sign? (roundWithAccuracy .binary64 sign m e accuracy) = some sign := by
  rw [roundWithAccuracy]
  dsimp only
  split <;> rfl

/-- A positive number that is not zero. -/
def isPositive : UnpackedFloat → Bool
  | .finite .positive _ _ _ => true
  | _ => false

theorem isPositive_powerOfTen : ∀ k : Fin Float.exactlyRepresentablePowersOfTen.size,
    isPositive (Float.exactlyRepresentablePowersOfTen[k]).toModel.unpack = true := by
  decide +kernel

/-- Dividing a whole number keeps its sign. -/
theorem Integral.sign?_div {sign : Sign} {x y : UnpackedFloat} (hx : Integral sign x)
    (hy : isPositive y = true) :
    sign? (unpack .binary64 (pack .binary64 (div .binary64 x y))) = some sign := by
  have hsign : sign / .positive = sign := by cases sign <;> rfl
  cases y with
  | finite sign' m e hm =>
    cases sign' with
    | negative => cases hy
    | positive =>
      apply sign?_unpack_pack
      cases hx with
      | infinity => exact congrArg some hsign
      | zero => exact congrArg some hsign
      | finite hm' hwhole he =>
        rw [div, hsign]
        exact sign?_roundWithAccuracy ..
  | _ => cases hy

/-! ## Decimals -/

theorem unpack_infinity_constant : infinity.toModel.unpack = .infinity .positive := by
  have hbits : infinity.toModel.toBits = 0x7FF0000000000000 := by decide +kernel
  rw [Float.Model.unpack, hbits]
  rfl

/-- How a decimal is read. -/
theorem ofDecimal_cases (m : Nat) (e : Int) :
    ofDecimal m e = 0 ∨ ofDecimal m e = infinity ∨
      (m ≠ 0 ∧ e < 0 ∧ ofDecimal m e = Float.ofScientific m true e.natAbs) ∨
      (m ≠ 0 ∧ 0 ≤ e ∧ ofDecimal m e = Float.ofScientific (m * Nat.pow 10 e.toNat) false 0) := by
  by_cases hm : m = 0
  · exact .inl (if_pos hm)
  rw [ofDecimal, if_neg hm]
  dsimp only
  split
  · exact .inr (.inl rfl)
  split
  · exact .inl rfl
  split
  · next he => exact .inr (.inr (.inl ⟨hm, he, rfl⟩))
  · next he => exact .inr (.inr (.inr ⟨hm, Int.not_lt.1 he, rfl⟩))

/-- A natural number is rounded to a whole number, whatever power of ten it is multiplied by. -/
theorem integral_scaled {m k : Nat} (hm : m ≠ 0) :
    Integral .positive (Float.ofScientific (m * Nat.pow 10 k) false 0).toModel.unpack :=
  integral_ofScientific (Nat.mul_ne_zero hm (Nat.ne_of_gt (Nat.pow_pos (by decide))))

/-- **A decimal without fraction is rounded to a whole number.** -/
theorem integral_ofDecimal (m : Nat) {e : Int} (he : 0 ≤ e) :
    Integral .positive (ofDecimal m e).toModel.unpack := by
  rcases ofDecimal_cases m e with h | h | ⟨-, hneg, -⟩ | ⟨hm, -, h⟩
  · rw [h, unpack_zero]
    exact .zero
  · rw [h, unpack_infinity_constant]
    exact .infinity
  · omega
  · rw [h]
    exact integral_scaled hm

theorem sign?_ofScientific_fraction {m : Nat} (hm : m ≠ 0) (k : Nat) :
    sign? (Float.ofScientific m true k).toModel.unpack = some .positive := by
  by_cases hfast : m < 2 ^ 53 ∧ k ≤ 22
  · rw [Float.ofScientific, dif_pos hfast]
    exact (integral_toFloat hm hfast.1).sign?_div (isPositive_powerOfTen ⟨k, by
      simp [Float.exactlyRepresentablePowersOfTen]; omega⟩)
  · rw [Float.ofScientific, dif_neg hfast]
    have hquotient : sign? (ofScientific .binary64 m (Int.negOfNat k)) = some .positive := by
      rw [ofScientific, dif_neg hm]
      split
      · rfl
      split
      · rfl
      split
      · exact sign?_roundWithAccuracy ..
      · exact sign?_roundWithAccuracy ..
    exact sign?_unpack_pack hquotient

/-- **No decimal is undefined or below zero.** -/
theorem sign?_ofDecimal (m : Nat) (e : Int) :
    sign? (ofDecimal m e).toModel.unpack = some .positive := by
  rcases ofDecimal_cases m e with h | h | ⟨hm, -, h⟩ | ⟨hm, -, h⟩
  · rw [h, unpack_zero]
    rfl
  · rw [h, unpack_infinity_constant]
    rfl
  · rw [h]
    exact sign?_ofScientific_fraction hm _
  · rw [h]
    exact (integral_scaled hm).sign?_eq

end RequestRunner.Decimal
