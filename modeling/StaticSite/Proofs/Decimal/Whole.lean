import Mathlib
import StaticSite.Template.Operators

/-!
Whole numbers of at most 53 bits as floats. Reading the digits of such a number, and changing the sign
of what was read, are exact, so that the values of templates keep them as the integers they are.
-/

namespace StaticSite.Decimal

open Float.Model Float.Model.UnpackedFloat

theorem targetExponent_of_log2 {mantissa : Nat} {exponent : Int} (full : mantissa.log2 = 52)
    (normal : -1074 ≤ exponent) :
    Format.binary64.targetExponent (totalExponent mantissa exponent) = exponent := by
  simp only [Format.targetExponent, totalExponent, full, Format.minExponent, Format.mantissaBits]
  omega

theorem shiftRight_exact (mantissa places : Nat) :
    (⟨mantissa * 2 ^ places, false, false⟩ : ExtendedMantissa) >>> places =
      ⟨mantissa, false, false⟩ := by
  change Nat.repeat ExtendedMantissa.shiftRightOne places _ = _
  induction places generalizing mantissa with
  | zero => simp [Nat.repeat]
  | succ places ih =>
      have double : mantissa * 2 ^ (places + 1) = mantissa * 2 * 2 ^ places := by
        rw [Nat.pow_succ, Nat.mul_comm (2 ^ places), ← Nat.mul_assoc]
      rw [Nat.repeat, double, ih]
      simp [ExtendedMantissa.shiftRightOne]

theorem log2_mul_two_pow {n : Nat} (nonzero : n ≠ 0) (places : Nat) :
    (n * 2 ^ places).log2 = n.log2 + places := by
  have bounds := (Nat.log2_eq_iff nonzero).mp rfl
  have positive : 0 < 2 ^ places := Nat.two_pow_pos places
  rw [Nat.log2_eq_iff (Nat.mul_ne_zero nonzero (Nat.ne_of_gt positive))]
  refine ⟨?_, ?_⟩
  · rw [Nat.pow_add]
    exact Nat.mul_le_mul_right _ bounds.1
  · rw [Nat.add_right_comm, Nat.pow_add]
    exact Nat.mul_lt_mul_of_pos_right bounds.2 positive

/-- Zeros below a mantissa of 53 bits are shifted away. -/
theorem shiftToTargetExponent_full {mantissa : Nat} {exponent : Int} (full : mantissa.log2 = 52)
    (normal : -1074 ≤ exponent) (places : Nat) :
    shiftToTargetExponent Format.binary64 (mantissa * 2 ^ places) (exponent - places) .exact =
      (⟨mantissa, false, false⟩, exponent) := by
  have nonzero : mantissa ≠ 0 := by
    intro same
    subst same
    cases full
  have total : totalExponent (mantissa * 2 ^ places) (exponent - places) =
      totalExponent mantissa exponent := by
    simp only [totalExponent, log2_mul_two_pow nonzero]
    omega
  have amount : (exponent - (exponent - places)).toNat = places := by omega
  simp only [shiftToTargetExponent, total, targetExponent_of_log2 full normal, shiftToExponent, amount,
    ExtendedMantissa.ofMantissaAndAccuracy, shiftRight_exact]
  congr 1
  omega

/-- Rounding away zeros below a mantissa of 53 bits changes nothing. -/
theorem roundWithAccuracy_exact {mantissa : Nat} {exponent : Int} (sign : Sign)
    (full : mantissa.log2 = 52) (normal : -1074 ≤ exponent) (positive : 0 < mantissa) (places : Nat) :
    roundWithAccuracy Format.binary64 sign (mantissa * 2 ^ places) (exponent - places) .exact =
      .finite sign mantissa exponent positive := by
  have first := shiftToTargetExponent_full full normal places
  have second := shiftToTargetExponent_full full normal 0
  rw [Nat.pow_zero, Nat.mul_one, Int.natCast_zero, Int.sub_zero] at second
  simp only [roundWithAccuracy, first, ExtendedMantissa.roundedMantissa, ExtendedMantissa.accuracy,
    Accuracy.roundToNearestEven, second, dif_neg (Nat.ne_of_gt positive)]

variable {mantissa : Nat} {exponent : Int}

theorem pack_normal (sign : Sign) (full : mantissa.log2 = 52) (least : -1074 ≤ exponent)
    (most : exponent ≤ 971) (positive : 0 < mantissa) :
    UnpackedFloat.pack Format.binary64 (.finite sign mantissa exponent positive) =
      packComponents Format.binary64 sign (BitVec.ofNat 11 (exponent + 1075).toNat)
        (BitVec.ofNat 52 mantissa) := by
  have biased : (exponent + (Format.binary64.exponentBias : Int) + ((52 : Nat) : Int)).toNat =
      (exponent + 1075).toNat := by
    change (exponent + 1023 + 52).toNat = _
    omega
  have inRange : ¬ 2 ^ 11 ≤ (exponent + 1075).toNat + 1 := by omega
  have normal : mantissa.log2 + 1 = Format.binary64.mantissaBits := by
    rw [full]
    rfl
  simp only [UnpackedFloat.pack, biased, if_neg inRange, if_pos normal]

theorem toNat_packComponents (sign : Sign) (exponent : BitVec 11) (mantissa : BitVec 52) :
    (packComponents Format.binary64 sign exponent mantissa).toNat =
      sign.toBitVec.toNat * 2 ^ 63 + exponent.toNat * 2 ^ 52 + mantissa.toNat := by
  have exponentBound := exponent.isLt
  have mantissaBound := mantissa.isLt
  rw [packComponents, BitVec.toNat_append, BitVec.toNat_append,
    ← Nat.shiftLeft_add_eq_or_of_lt mantissaBound, ← Nat.shiftLeft_add_eq_or_of_lt exponentBound]
  simp only [Nat.shiftLeft_eq, Nat.add_mul]
  omega

theorem unpack_pack_normal (sign : Sign) (full : mantissa.log2 = 52) (least : -1074 ≤ exponent)
    (most : exponent ≤ 971) (positive : 0 < mantissa) :
    UnpackedFloat.unpack Format.binary64
        (UnpackedFloat.pack Format.binary64 (.finite sign mantissa exponent positive)) =
      .finite sign mantissa exponent positive := by
  have bounds := (Nat.log2_eq_iff (Nat.ne_of_gt positive)).mp full
  have biased : (BitVec.ofNat 11 (exponent + 1075).toNat).toNat = (exponent + 1075).toNat := by
    rw [BitVec.toNat_ofNat]
    omega
  have notAll : BitVec.ofNat 11 (exponent + 1075).toNat ≠ -1#11 := fun all => by
    have := congrArg BitVec.toNat all
    rw [biased] at this
    change (exponent + 1075).toNat = 2047 at this
    omega
  have notNone : BitVec.ofNat 11 (exponent + 1075).toNat ≠ 0#11 := fun none_ => by
    have := congrArg BitVec.toNat none_
    rw [biased] at this
    change (exponent + 1075).toNat = 0 at this
    omega
  have implicit : (1#1 ++ BitVec.ofNat 52 mantissa).toNat = mantissa := by
    rw [BitVec.toNat_append, ← Nat.shiftLeft_add_eq_or_of_lt (BitVec.isLt _), BitVec.toNat_ofNat]
    simp only [BitVec.toNat_ofNat, Nat.shiftLeft_eq]
    omega
  have unbiased : ((exponent + 1075).toNat : Int) - ((Format.binary64.exponentBias : Int) + (52 : Nat)) =
      exponent := by
    change ((exponent + 1075).toNat : Int) - (1023 + 52) = exponent
    omega
  rw [pack_normal sign full least most positive]
  simp only [UnpackedFloat.unpack, unpackMantissa_packComponents, unpackExponent_packComponents,
    unpackSign_packComponents, if_neg notAll, if_neg notNone, biased, unbiased,
    Sign.ofBitVec_toBitVec, implicit]

/-- A whole number shifted to a mantissa of 53 bits. -/
def fullMantissa (n : Nat) : Nat := n * 2 ^ (52 - n.log2)

/-- The exponent that undoes the shift. -/
def fullExponent (n : Nat) : Int := (n.log2 : Int) - 52

variable {n : Nat}

theorem log2_le (positive : 0 < n) (bound : n < 2 ^ 53) : n.log2 ≤ 52 := by
  have := (Nat.log2_lt (Nat.ne_of_gt positive)).mpr bound
  omega

theorem fullMantissa_log2 (positive : 0 < n) (bound : n < 2 ^ 53) : (fullMantissa n).log2 = 52 := by
  have places := log2_le positive bound
  have within := (Nat.log2_eq_iff (Nat.ne_of_gt positive)).mp (rfl : n.log2 = n.log2)
  have shift : 0 < 2 ^ (52 - n.log2) := Nat.two_pow_pos _
  rw [fullMantissa, Nat.log2_eq_iff (Nat.mul_ne_zero (Nat.ne_of_gt positive) (Nat.ne_of_gt shift))]
  refine ⟨?_, ?_⟩
  · calc 2 ^ 52 = 2 ^ n.log2 * 2 ^ (52 - n.log2) := by rw [← Nat.pow_add, Nat.add_sub_cancel' places]
      _ ≤ n * 2 ^ (52 - n.log2) := Nat.mul_le_mul_right _ within.1
  · calc n * 2 ^ (52 - n.log2) < 2 ^ (n.log2 + 1) * 2 ^ (52 - n.log2) :=
          Nat.mul_lt_mul_of_pos_right within.2 shift
      _ = 2 ^ (52 + 1) := by rw [← Nat.pow_add]; congr 1; omega

theorem fullMantissa_pos (positive : 0 < n) : 0 < fullMantissa n :=
  Nat.mul_pos positive (Nat.two_pow_pos _)

/-- The float that a sign and a whole number make. -/
def wholeFloat (sign : Sign) (n : Nat) (positive : 0 < n) : Float :=
  .ofModel (.pack (.finite sign (fullMantissa n) (fullExponent n) (fullMantissa_pos positive)))

theorem unpack_wholeFloat (sign : Sign) (positive : 0 < n) (bound : n < 2 ^ 53) :
    (wholeFloat sign n positive).toModel.unpack =
      .finite sign (fullMantissa n) (fullExponent n) (fullMantissa_pos positive) := by
  have places := log2_le positive bound
  exact unpack_pack_normal sign (fullMantissa_log2 positive bound) (by unfold fullExponent; omega)
    (by unfold fullExponent; omega) (fullMantissa_pos positive)

theorem toFloat_toUInt64 (positive : 0 < n) (bound : n < 2 ^ 53) :
    n.toUInt64.toFloat = wholeFloat .positive n positive := by
  have places := log2_le positive bound
  have full := fullMantissa_log2 positive bound
  have small : n.toUInt64.toNat = n := by
    simp only [Nat.toUInt64, UInt64.toNat_ofNat']
    omega
  have greater : compare (n : Int) 0 = .gt := by
    rw [Int.compare_eq_gt]
    omega
  have target : Format.binary64.targetExponent (totalExponent n 0) = fullExponent n := by
    simp only [Format.targetExponent, totalExponent, Format.minExponent, Format.mantissaBits, fullExponent]
    omega
  have shift : (0 - fullExponent n).toNat = 52 - n.log2 := by
    unfold fullExponent
    omega
  have exponent : (0 : Int) - (52 - n.log2 : Nat) = fullExponent n := by
    unfold fullExponent
    omega
  have normal : -1074 ≤ fullExponent n := by
    unfold fullExponent
    omega
  have rounded := roundWithAccuracy_exact .positive full normal (fullMantissa_pos positive) 0
  rw [Nat.pow_zero, Nat.mul_one, Int.natCast_zero, Int.sub_zero] at rounded
  have converted : UnpackedFloat.ofUInt64 Format.binary64 n.toUInt64 =
      .finite .positive (fullMantissa n) (fullExponent n) (fullMantissa_pos positive) := by
    simp only [UnpackedFloat.ofUInt64, UnpackedFloat.ofNat, UnpackedFloat.ofInt, small,
      UnpackedFloat.normalize, greater, Int.toNat_natCast, UnpackedFloat.round, target, decreaseExponent,
      shift, exponent, Nat.shiftLeft_eq]
    exact rounded
  exact congrArg (fun unpacked => Float.ofModel (.pack unpacked)) converted

theorem nearest_whole (positive : 0 < n) (bound : n < 2 ^ 53) :
    nearest n 0 = wholeFloat .positive n positive := by
  have count : (Nat.toDigits 10 n).length ≤ 16 := by
    rw [Nat.length_toDigits_le_iff (by decide) (by decide)]
    omega
  have places := log2_le positive bound
  have one : (Float.ofBits 0x3FF0000000000000).toModel.unpack =
      .finite .positive (2 ^ 52) (-52) (by decide) := rfl
  have product : n.toUInt64.toFloat * Float.ofBits 0x3FF0000000000000 =
      wholeFloat .positive n positive := by
    rw [toFloat_toUInt64 positive bound]
    change Float.ofModel (.pack (UnpackedFloat.mul _ (wholeFloat .positive n positive).toModel.unpack
      (Float.ofBits 0x3FF0000000000000).toModel.unpack)) = _
    rw [unpack_wholeFloat .positive positive bound, one]
    exact congrArg (fun unpacked => Float.ofModel (.pack unpacked))
      (roundWithAccuracy_exact .positive (fullMantissa_log2 positive bound)
        (by unfold fullExponent; omega) (fullMantissa_pos positive) 52)
  have scientific : Float.ofScientific n false 0 =
      n.toUInt64.toFloat * Float.ofBits 0x3FF0000000000000 := by
    unfold Float.ofScientific
    rw [dif_pos ⟨bound, by omega⟩]
    rfl
  unfold nearest
  rw [if_neg (by simpa using Nat.ne_of_gt positive), Int.add_zero, if_neg (by omega), if_neg (by omega)]
  exact scientific.trans product

theorem neg_wholeFloat (sign : Sign) (positive : 0 < n) (bound : n < 2 ^ 53) :
    -wholeFloat sign n positive = wholeFloat (-sign) n positive := by
  change Float.ofModel (.pack (wholeFloat sign n positive).toModel.unpack.neg) = _
  rw [unpack_wholeFloat sign positive bound]
  rfl

theorem abs_wholeFloat (sign : Sign) (positive : 0 < n) (bound : n < 2 ^ 53) :
    (wholeFloat sign n positive).abs = wholeFloat .positive n positive := by
  change Float.ofModel (.pack (wholeFloat sign n positive).toModel.unpack.abs) = _
  rw [unpack_wholeFloat sign positive bound]
  rfl

theorem ofFloat?_wholeFloat (sign : Sign) (positive : 0 < n) (bound : n < 2 ^ 53) :
    Binary.ofFloat? (wholeFloat sign n positive) =
      some ⟨sign.toBitVec.toNat == 1, fullMantissa n, fullExponent n⟩ := by
  have places := log2_le positive bound
  have full := fullMantissa_log2 positive bound
  have within := (Nat.log2_eq_iff (Nat.ne_of_gt (fullMantissa_pos positive))).mp full
  have bits : (wholeFloat sign n positive).toBits.toNat = sign.toBitVec.toNat * 2 ^ 63 +
      (fullExponent n + 1075).toNat * 2 ^ 52 + (fullMantissa n - 2 ^ 52) := by
    change (UnpackedFloat.pack Format.binary64 _).toNat = _
    rw [pack_normal sign full (by unfold fullExponent; omega) (by unfold fullExponent; omega)
      (fullMantissa_pos positive), toNat_packComponents, BitVec.toNat_ofNat, BitVec.toNat_ofNat]
    unfold fullExponent
    omega
  have exponentRange : 1023 ≤ (fullExponent n + 1075).toNat ∧ (fullExponent n + 1075).toNat ≤ 1075 := by
    unfold fullExponent
    omega
  have signBound := sign.toBitVec.isLt
  have fraction : (wholeFloat sign n positive).toBits.toNat % 2 ^ 52 = fullMantissa n - 2 ^ 52 := by
    rw [bits]
    omega
  have biased : (wholeFloat sign n positive).toBits.toNat / 2 ^ 52 % 2 ^ 11 =
      (fullExponent n + 1075).toNat := by
    rw [bits]
    omega
  have signBit : (wholeFloat sign n positive).toBits.toNat / 2 ^ 63 = sign.toBitVec.toNat := by
    rw [bits]
    omega
  have mantissa : 2 ^ 52 + (fullMantissa n - 2 ^ 52) = fullMantissa n := by omega
  have exponent : ((fullExponent n + 1075).toNat : Int) - 1075 = fullExponent n := by omega
  simp only [Binary.ofFloat?, Nat.pow_eq, fraction, biased, signBit, beq_iff_eq]
  rw [if_neg (by omega), if_neg (by omega), mantissa, exponent]

theorem toInt?_wholeFloat (sign : Sign) (positive : 0 < n) (bound : n < 2 ^ 53) :
    toInt? (wholeFloat sign n positive) = some (sign.apply n) := by
  have places := log2_le positive bound
  have signs (m : Nat) :
      (if (sign.toBitVec.toNat == 1) = true then -(m : Int) else m) = sign.apply m := by
    cases sign <;> rfl
  simp only [toInt?, ofFloat?_wholeFloat sign positive bound, Option.bind_some, Binary.toInt?, signs,
    Nat.pow_eq]
  split
  · have whole : n.log2 = 52 := by unfold fullExponent at *; omega
    have unshifted : fullMantissa n * 2 ^ (fullExponent n).toNat = n := by
      simp [fullMantissa, fullExponent, whole]
    rw [unshifted]
  · have shift : (-fullExponent n).toNat = 52 - n.log2 := by unfold fullExponent; omega
    have exact_ : fullMantissa n % 2 ^ (52 - n.log2) = 0 := Nat.mul_mod_left _ _
    have quotient : fullMantissa n / 2 ^ (52 - n.log2) = n :=
      Nat.mul_div_cancel _ (Nat.two_pow_pos _)
    rw [shift, exact_, quotient]
    rfl

end StaticSite.Decimal

namespace StaticSite.Template

open Decimal Float.Model Float.Model.UnpackedFloat

theorem wholeFloat_lt_wholeBound {n : Nat} (positive : 0 < n) (bound : n < 2 ^ 53) :
    wholeFloat .positive n positive < wholeBound := by
  have places := log2_le positive bound
  have limit : wholeBound.toModel.unpack = .finite .positive (2 ^ 52) 1 (by decide) := rfl
  refine decide_eq_true (p := UnpackedFloat.lt (wholeFloat .positive n positive).toModel.unpack
    wholeBound.toModel.unpack = true) ?_
  rw [unpack_wholeFloat .positive positive bound, limit]
  have smaller : compare (fullExponent n) 1 = .lt := by
    rw [Int.compare_eq_lt]
    unfold fullExponent
    omega
  simp [UnpackedFloat.lt, UnpackedFloat.compare, smaller, Ordering.then]

theorem ofFloat_of_toInt? {f : Float} {whole : Int} (isWhole : toInt? f = some whole)
    (below : f.abs < wholeBound) : ofFloat f = .ok (.number (.int whole)) := by
  unfold ofFloat
  rw [isWhole]
  simp only [if_pos below]

theorem ofFloat_wholeFloat {n : Nat} (sign : Sign) (positive : 0 < n) (bound : n < 2 ^ 53) :
    ofFloat (wholeFloat sign n positive) = .ok (.number (.int (sign.apply n))) := by
  refine ofFloat_of_toInt? (toInt?_wholeFloat sign positive bound) ?_
  rw [abs_wholeFloat sign positive bound]
  exact wholeFloat_lt_wholeBound positive bound

/-- The digits of a whole number of at most 53 bits are read as that integer. -/
theorem ofFloat_nearest {n : Nat} (bound : n < 2 ^ 53) :
    ofFloat (nearest n 0) = .ok (.number (.int n)) := by
  rcases Nat.eq_zero_or_pos n with rfl | positive
  · exact ofFloat_of_toInt? (by decide +kernel) (by decide +kernel)
  · rw [nearest_whole positive bound, ofFloat_wholeFloat .positive positive bound]
    rfl

theorem ofFloat_neg_nearest {n : Nat} (bound : n < 2 ^ 53) :
    ofFloat (-nearest n 0) = .ok (.number (.int (-n))) := by
  rcases Nat.eq_zero_or_pos n with rfl | positive
  · exact ofFloat_of_toInt? (by decide +kernel) (by decide +kernel)
  · rw [nearest_whole positive bound, neg_wholeFloat .positive positive bound]
    exact ofFloat_wholeFloat .negative positive bound

end StaticSite.Template
