import Mathlib
import RequestRunner.Decimal.Whole

/-!
# Packed numbers

A floating-point number is worked on unpacked into sign, significand and exponent. Packing a result
keeps its sign and never makes it undefined (`sign?_unpack_pack`), and keeps it as it is if its
significand has all its bits (`unpack_pack_finite`). The magnitude that is read off the bits of a
number is the one that they unpack to (`ofFloat?_of_finite`).
-/

set_option autoImplicit false

namespace RequestRunner.Decimal

open Float.Model (Format UnpackedFloat)
open Float.Model.UnpackedFloat

/-! ## Packing -/

/-- The sign of what is a number. -/
def sign? : UnpackedFloat → Option Sign
  | .infinity sign => some sign
  | .notANumber => none
  | .zero sign => some sign
  | .finite sign _ _ _ => some sign

theorem sign_ofBitVec_toBitVec (sign : Sign) : Sign.ofBitVec sign.toBitVec = sign := by
  cases sign <;> rfl

theorem unpackSign_packComponents (spec : Format) (sign : Sign)
    (exponent : BitVec spec.exponentBits) (mantissa : BitVec spec.mantissaBitsWithoutImplicit) :
    unpackSign (packComponents spec sign exponent mantissa) = sign.toBitVec := by
  apply BitVec.eq_of_getLsbD_eq
  intro i hi
  obtain rfl : i = 0 := by omega
  simp [unpackSign, packComponents, BitVec.getLsbD_append, BitVec.getElem_append]

section Components

variable (sign : Sign) {exponent : BitVec 11} {mantissa : BitVec 52}

/-- All bits of the exponent are set for what is not finite. -/
theorem unpack_infinity :
    unpack .binary64 (packComponents .binary64 sign (-1#11) 0#52) = .infinity sign := by
  simp only [unpack, unpackMantissa_packComponents, unpackExponent_packComponents,
    unpackSign_packComponents, sign_ofBitVec_toBitVec, if_true]

/-- No bit is set for zero, apart from its sign. -/
theorem unpack_zero_components :
    unpack .binary64 (packComponents .binary64 sign 0#11 0#52) = .zero sign := by
  simp only [unpack, unpackMantissa_packComponents, unpackExponent_packComponents,
    unpackSign_packComponents, sign_ofBitVec_toBitVec]
  rfl

theorem sign?_unpack_packComponents (h : exponent ≠ -1#11) :
    sign? (unpack .binary64 (packComponents .binary64 sign exponent mantissa)) = some sign := by
  simp only [unpack, unpackMantissa_packComponents, unpackExponent_packComponents,
    unpackSign_packComponents, sign_ofBitVec_toBitVec, if_neg h]
  split
  · split <;> rfl
  · rfl

end Components

theorem unpack_pack_infinity (sign : Sign) :
    unpack .binary64 (pack .binary64 (.infinity sign)) = .infinity sign :=
  unpack_infinity sign

theorem unpack_pack_zero (sign : Sign) :
    unpack .binary64 (pack .binary64 (.zero sign)) = .zero sign :=
  unpack_zero_components sign

/-- **Packing keeps the sign and makes nothing undefined.** -/
theorem sign?_unpack_pack {x : UnpackedFloat} {sign : Sign} (h : sign? x = some sign) :
    sign? (unpack .binary64 (pack .binary64 x)) = some sign := by
  cases x with
  | notANumber => cases h
  | infinity _ => rwa [unpack_pack_infinity]
  | zero _ => rwa [unpack_pack_zero]
  | finite sign' m e hm =>
    rw [← h, pack]
    dsimp only
    split
    · have hinfinity := congrArg sign? (unpack_infinity sign')
      exact hinfinity
    next hexponent =>
      split
      · apply sign?_unpack_packComponents
        intro hones
        have htoNat := congrArg BitVec.toNat hones
        rw [BitVec.toNat_ofNat, Nat.mod_eq_of_lt (by omega)] at htoNat
        have hall : (-1#11).toNat = 2047 := by decide
        omega
      · exact sign?_unpack_packComponents sign' (by decide)

/-- The implicit leading bit of a significand. -/
theorem toNat_implicit (x : BitVec 52) : (1#1 ++ x).toNat = 2 ^ 52 + x.toNat := by
  rw [BitVec.toNat_append, ← Nat.shiftLeft_add_eq_or_of_lt (BitVec.isLt _), Nat.shiftLeft_eq]
  rfl

/-- A significand with all its bits and a moderate exponent are kept. -/
theorem unpack_pack_finite {sign : Sign} {m : Nat} {e : Int} (hm : 0 < m) (hlow : 2 ^ 52 ≤ m)
    (hhigh : m < 2 ^ 53) (he : -1074 ≤ e) (he' : e ≤ 971) :
    unpack .binary64 (pack .binary64 (.finite sign m e hm)) = .finite sign m e hm := by
  have hbits : m.log2 + 1 = Format.binary64.mantissaBits := by
    have hle := (Nat.le_log2 (Nat.ne_of_gt hm)).2 hlow
    have hlt := (Nat.log2_lt (Nat.ne_of_gt hm)).2 hhigh
    change m.log2 + 1 = 53
    omega
  have hexponent : (BitVec.ofNat 11 (e + 1023 + 52).toNat).toNat = (e + 1075).toNat := by
    rw [BitVec.toNat_ofNat, Nat.mod_eq_of_lt (by omega)]
    omega
  have hmantissa : (1#1 ++ BitVec.ofNat 52 m).toNat = m := by
    rw [toNat_implicit, BitVec.toNat_ofNat]
    omega
  have hones : BitVec.ofNat 11 (e + 1023 + 52).toNat ≠ -1#11 := by
    intro h
    have htoNat := congrArg BitVec.toNat h
    rw [hexponent, show (-1#11).toNat = 2047 by decide] at htoNat
    omega
  have hzero : BitVec.ofNat 11 (e + 1023 + 52).toNat ≠ 0#11 := by
    intro h
    have htoNat := congrArg BitVec.toNat h
    rw [hexponent, show (0#11).toNat = 0 by decide] at htoNat
    omega
  have hpack : pack .binary64 (.finite sign m e hm) = packComponents .binary64 sign
      (BitVec.ofNat 11 (e + 1023 + 52).toNat) (BitVec.ofNat 52 m) := by
    rw [pack]
    dsimp only
    have hbias : (Format.binary64.exponentBias : Int) = 1023 := by decide
    rw [if_neg (by rw [hbias]; omega), if_pos hbits]
    rfl
  rw [hpack]
  simp only [unpack, unpackMantissa_packComponents, unpackExponent_packComponents,
    unpackSign_packComponents, sign_ofBitVec_toBitVec, if_neg hones, if_neg hzero, hexponent,
    hmantissa]
  congr 1
  change ((e + 1075).toNat : Int) - 1075 = e
  omega

/-- A finite number that is too large is packed as infinity. -/
theorem unpack_pack_large {sign : Sign} {m : Nat} {e : Int} (hm : 0 < m) (he : 971 < e) :
    unpack .binary64 (pack .binary64 (.finite sign m e hm)) = .infinity sign := by
  have hbias : (Format.binary64.exponentBias : Int) = 1023 := by decide
  rw [pack]
  dsimp only
  rw [if_pos (by rw [hbias]; omega)]
  exact unpack_infinity sign

/-! ## Decoding -/

/-- The exponent field, as the bits of a number hold it. -/
theorem toNat_unpackExponent (bits : BitVec 64) :
    (@unpackExponent Format.binary64 bits).toNat = bits.toNat % 2 ^ 63 / 2 ^ 52 := by
  simp only [unpackExponent, BitVec.toNat_cast, BitVec.extractLsb_toNat]
  simp only [Nat.shiftRight_eq_div_pow]
  omega

theorem toNat_unpackMantissa (bits : BitVec 64) :
    (@unpackMantissa Format.binary64 bits).toNat = bits.toNat % 2 ^ 63 % 2 ^ 52 := by
  simp only [unpackMantissa, BitVec.toNat_cast, BitVec.extractLsb_toNat]
  simp only [Nat.shiftRight_eq_div_pow]
  omega

/-- **A finite number is decoded as it is unpacked.** -/
theorem ofBits?_of_finite {bits : BitVec 64} {sign : Sign} {m : Nat} {e : Int} {hm : 0 < m}
    (h : unpack Format.binary64 bits = .finite sign m e hm) :
    ∃ narrow, Binary.ofBits? (bits.toNat % Nat.pow 2 63) = some ⟨m, e, narrow⟩ := by
  have hfield := toNat_unpackExponent bits
  have hfraction := toNat_unpackMantissa bits
  unfold unpack at h
  dsimp only at h
  by_cases hones : @unpackExponent Format.binary64 bits = -1#11
  · rw [if_pos hones] at h
    split at h <;> cases h
  rw [if_neg hones] at h
  have hones' : ¬bits.toNat % 2 ^ 63 / 2 ^ 52 = 2047 := by
    intro hall
    exact hones (BitVec.eq_of_toNat_eq (hfield.trans hall))
  by_cases hzero : @unpackExponent Format.binary64 bits = 0#11
  · rw [if_pos hzero] at h
    have hzero' : bits.toNat % 2 ^ 63 / 2 ^ 52 = 0 := by
      rw [← hfield, hzero]
      rfl
    by_cases hmantissa : @unpackMantissa Format.binary64 bits = 0#52
    · rw [dif_pos hmantissa] at h
      cases h
    · rw [dif_neg hmantissa] at h
      have hmantissa' : ¬bits.toNat % 2 ^ 63 % 2 ^ 52 = 0 := by
        intro hall
        exact hmantissa (BitVec.eq_of_toNat_eq (hfraction.trans hall))
      injection h with _ hm' he'
      rw [hfraction] at hm'
      rw [hfield, hzero'] at he'
      subst hm' he'
      refine ⟨false, ?_⟩
      exact (if_neg hones').trans ((if_pos hzero').trans (if_neg hmantissa'))
  · rw [if_neg hzero] at h
    have hzero' : ¬bits.toNat % 2 ^ 63 / 2 ^ 52 = 0 := by
      intro hall
      exact hzero (BitVec.eq_of_toNat_eq (hfield.trans hall))
    injection h with _ hm' he'
    rw [toNat_implicit, hfraction] at hm'
    rw [hfield] at he'
    subst hm' he'
    exact ⟨_, (if_neg hones').trans (if_neg hzero')⟩

/-- A zero has no bits besides its sign. -/
theorem mod_eq_zero_of_unpack {bits : BitVec 64} {sign : Sign}
    (h : unpack Format.binary64 bits = .zero sign) : bits.toNat % 2 ^ 63 = 0 := by
  have hfield := toNat_unpackExponent bits
  have hfraction := toNat_unpackMantissa bits
  unfold unpack at h
  dsimp only at h
  by_cases hones : @unpackExponent Format.binary64 bits = -1#11
  · rw [if_pos hones] at h
    split at h <;> cases h
  rw [if_neg hones] at h
  by_cases hexponent : @unpackExponent Format.binary64 bits = 0#11
  · rw [if_pos hexponent] at h
    by_cases hmantissa : @unpackMantissa Format.binary64 bits = 0#52
    · rw [hexponent] at hfield
      rw [hmantissa] at hfraction
      change 0 = _ at hfield
      change 0 = _ at hfraction
      omega
    · rw [dif_neg hmantissa] at h
      cases h
  · rw [if_neg hexponent] at h
    cases h

theorem ofFloat?_of_finite {x : Float} {sign : Sign} {m : Nat} {e : Int} {hm : 0 < m}
    (h : x.toModel.unpack = .finite sign m e hm) :
    ∃ narrow, Binary.ofFloat? x = some ⟨m, e, narrow⟩ :=
  ofBits?_of_finite h

theorem ofFloat?_of_zero {x : Float} {sign : Sign} (h : x.toModel.unpack = .zero sign) :
    Binary.ofFloat? x = none := by
  have hbits : x.toBits.toNat % Nat.pow 2 63 = 0 := mod_eq_zero_of_unpack h
  rw [Binary.ofFloat?, hbits]
  rfl

/-! ## Signed numbers -/

theorem unpack_zero : (0 : Float).toModel.unpack = .zero .positive := by
  have hbits : (0 : Float).toModel.toBits = 0 := by decide +kernel
  rw [Float.Model.unpack, hbits]
  rfl

/-- What has a sign is a number. -/
theorem isNaN_of_sign? {x : Float} {sign : Sign} (h : sign? x.toModel.unpack = some sign) :
    x.isNaN = false := by
  change x.toModel.unpack.isNaN = false
  cases hx : x.toModel.unpack with
  | notANumber =>
    rw [hx] at h
    cases h
  | _ => rfl

/-- What is positive is not below zero. -/
theorem not_lt_zero {x : Float} (h : sign? x.toModel.unpack = some .positive) : ¬x < 0 := by
  intro hlt
  have hunpacked : x.toModel.unpack.lt (0 : Float).toModel.unpack = true := of_decide_eq_true hlt
  rw [unpack_zero] at hunpacked
  cases hx : x.toModel.unpack <;> rw [hx] at h hunpacked <;> cases h <;> cases hunpacked

theorem sign?_neg {x : Float} {sign : Sign} (h : sign? x.toModel.unpack = some sign) :
    sign? (-x).toModel.unpack = some (-sign) := by
  apply sign?_unpack_pack
  cases hx : x.toModel.unpack <;> rw [hx] at h <;> cases h <;> rfl

end RequestRunner.Decimal
