import StaticSite.Proofs.Decimal.Whole

/-!
The other sign. A float is a sign, an exponent and a mantissa, side by side in its bits; to change the sign
of a finite float changes nothing else. So the number that a minus sign makes of a number is finite again,
and an integer where the number was one.
-/

namespace StaticSite.Decimal

open Float.Model Float.Model.UnpackedFloat

variable {f : Float} {sign : Sign} {exponent : BitVec 11} {mantissa : BitVec 52}

/-- The bits of a float have these parts. -/
def Composed (f : Float) (sign : Sign) (exponent : BitVec 11) (mantissa : BitVec 52) : Prop :=
  f.toBits.toBitVec = packComponents Format.binary64 sign exponent mantissa

theorem exists_composed (f : Float) : ∃ sign exponent mantissa, Composed f sign exponent mantissa := by
  refine ⟨.ofBitVec (f.toBits.toBitVec.extractLsb' 63 1), f.toBits.toBitVec.extractLsb' 52 11,
    f.toBits.toBitVec.extractLsb' 0 52, ?_⟩
  have signs (v : BitVec 1) : (Sign.ofBitVec v).toBitVec = v := by
    revert v
    decide
  refine BitVec.eq_of_toNat_eq ?_
  have bound : f.toBits.toBitVec.toNat < 2 ^ 64 := f.toBits.toBitVec.isLt
  rw [toNat_packComponents, signs]
  simp only [BitVec.extractLsb'_toNat, Nat.shiftRight_eq_div_pow]
  omega

/-- The float that the parts are, while the exponent is not that of infinities. -/
def unpacked (exponent : BitVec 11) (mantissa : BitVec 52) (sign : Sign) : UnpackedFloat :=
  if exponent = 0#11 then
    if empty : mantissa = 0#52 then .zero sign
    else
      .finite sign mantissa.toNat (-1074) (Nat.pos_of_ne_zero fun none_ => empty (BitVec.eq_of_toNat_eq none_))
  else .finite sign (2 ^ 52 + mantissa.toNat) (exponent.toNat - 1075) (Nat.add_pos_left (by decide) _)

theorem toNat_one_append (mantissa : BitVec 52) : (1#1 ++ mantissa).toNat = 2 ^ 52 + mantissa.toNat := by
  rw [BitVec.toNat_append, ← Nat.shiftLeft_add_eq_or_of_lt mantissa.isLt]
  rfl

theorem unpack_packComponents (sign : Sign) (inRange : exponent ≠ -1#11) (mantissa : BitVec 52) :
    UnpackedFloat.unpack Format.binary64 (packComponents Format.binary64 sign exponent mantissa) =
      unpacked exponent mantissa sign := by
  simp only [UnpackedFloat.unpack, unpackMantissa_packComponents, unpackExponent_packComponents,
    unpackSign_packComponents, Sign.ofBitVec_toBitVec, unpacked]
  rw [if_neg inRange]
  split
  · rename_i least
    subst least
    rfl
  · congr 1
    exact toNat_one_append mantissa

theorem toNat_lt_of_ne (inRange : exponent ≠ -1#11) : exponent.toNat < 2047 := by
  have bound := exponent.isLt
  have apart : exponent.toNat ≠ 2047 := fun all => inRange (BitVec.eq_of_toNat_eq all)
  omega

theorem pack_subnormal (sign : Sign) (positive : 0 < mantissa.toNat) :
    UnpackedFloat.pack Format.binary64 (.finite sign mantissa.toNat (-1074) positive) =
      packComponents Format.binary64 sign 0#11 mantissa := by
  have short := (Nat.log2_lt (Nat.ne_of_gt positive)).mpr mantissa.isLt
  have biased : (-1074 + (Format.binary64.exponentBias : Int) + ((52 : Nat) : Int)).toNat = 1 := rfl
  have subnormal : ¬ mantissa.toNat.log2 + 1 = Format.binary64.mantissaBits := by
    change ¬ mantissa.toNat.log2 + 1 = 53
    omega
  simp only [UnpackedFloat.pack, biased, if_neg (by decide : ¬ 2 ^ 11 ≤ 1 + 1), if_neg subnormal]
  congr 1
  exact BitVec.ofNat_toNat 52 mantissa

theorem pack_normal_parts (sign : Sign) (inRange : exponent ≠ -1#11) (normal : exponent ≠ 0#11)
    (mantissa : BitVec 52) (positive : 0 < 2 ^ 52 + mantissa.toNat) :
    UnpackedFloat.pack Format.binary64
        (.finite sign (2 ^ 52 + mantissa.toNat) (exponent.toNat - 1075) positive) =
      packComponents Format.binary64 sign exponent mantissa := by
  have bound := mantissa.isLt
  have below := toNat_lt_of_ne inRange
  have above : exponent.toNat ≠ 0 := fun none_ => normal (BitVec.eq_of_toNat_eq none_)
  have full : (2 ^ 52 + mantissa.toNat).log2 = 52 := (Nat.log2_eq_iff (by omega)).mpr (by omega)
  have biased : ((exponent.toNat : Int) - 1075 + 1075).toNat = exponent.toNat := by omega
  have same : BitVec.ofNat 52 (2 ^ 52 + mantissa.toNat) = mantissa := BitVec.eq_of_toNat_eq (by
    rw [BitVec.toNat_ofNat]
    omega)
  rw [pack_normal sign full (by omega) (by omega), biased, same]
  congr 1
  exact BitVec.ofNat_toNat 11 exponent

theorem pack_unpacked (sign : Sign) (inRange : exponent ≠ -1#11) (mantissa : BitVec 52) :
    UnpackedFloat.pack Format.binary64 (unpacked exponent mantissa sign) =
      packComponents Format.binary64 sign exponent mantissa := by
  unfold unpacked
  split
  · rename_i least
    subst least
    split
    · rename_i empty
      subst empty
      rfl
    · exact pack_subnormal sign _
  · exact pack_normal_parts sign inRange ‹_› mantissa _

theorem neg_unpacked (sign : Sign) :
    (unpacked exponent mantissa sign).neg = unpacked exponent mantissa (-sign) := by
  unfold unpacked
  split
  · split <;> rfl
  · rfl

theorem abs_unpacked (sign : Sign) :
    (unpacked exponent mantissa sign).abs = unpacked exponent mantissa .positive := by
  unfold unpacked
  split
  · split <;> rfl
  · rfl

theorem isFinite_unpacked (sign : Sign) : (unpacked exponent mantissa sign).isFinite = true := by
  unfold unpacked
  split
  · split <;> rfl
  · rfl

namespace Composed

theorem unpack (composed : Composed f sign exponent mantissa) (inRange : exponent ≠ -1#11) :
    f.toModel.unpack = unpacked exponent mantissa sign := by
  change UnpackedFloat.unpack Format.binary64 f.toBits.toBitVec = _
  rw [composed, unpack_packComponents sign inRange]

theorem neg (composed : Composed f sign exponent mantissa) (inRange : exponent ≠ -1#11) :
    Composed (-f) (-sign) exponent mantissa := by
  change UnpackedFloat.pack Format.binary64 f.toModel.unpack.neg = _
  rw [composed.unpack inRange, neg_unpacked, pack_unpacked _ inRange]

theorem abs (composed : Composed f sign exponent mantissa) (inRange : exponent ≠ -1#11) :
    Composed f.abs .positive exponent mantissa := by
  change UnpackedFloat.pack Format.binary64 f.toModel.unpack.abs = _
  rw [composed.unpack inRange, abs_unpacked, pack_unpacked _ inRange]

theorem eq {g : Float} (composed : Composed f sign exponent mantissa)
    (composed' : Composed g sign exponent mantissa) : f = g := by
  obtain ⟨⟨bits, valid⟩⟩ := f
  obtain ⟨⟨bits', valid'⟩⟩ := g
  have same : bits = bits' := UInt64.toBitVec_inj.mp (composed.trans composed'.symm)
  subst same
  rfl

theorem isFinite (composed : Composed f sign exponent mantissa) : f.isFinite = (exponent != -1#11) := by
  change f.toModel.unpack.isFinite = _
  by_cases inRange : exponent = -1#11
  · change (UnpackedFloat.unpack Format.binary64 f.toBits.toBitVec).isFinite = _
    rw [composed]
    simp only [UnpackedFloat.unpack, unpackMantissa_packComponents, unpackExponent_packComponents]
    rw [if_pos inRange]
    split <;> simp [inRange, UnpackedFloat.isFinite]
  · rw [composed.unpack inRange, isFinite_unpacked]
    simpa using inRange

theorem ofFloat? (composed : Composed f sign exponent mantissa) :
    Binary.ofFloat? f =
      if exponent = -1#11 then none
      else some ⟨sign == .negative, if exponent = 0#11 then mantissa.toNat else 2 ^ 52 + mantissa.toNat,
        if exponent = 0#11 then leastExponent else exponent.toNat - 1075⟩ := by
  have bits : f.toBits.toNat = sign.toBitVec.toNat * 2 ^ 63 + exponent.toNat * 2 ^ 52 + mantissa.toNat :=
    (congrArg BitVec.toNat composed).trans (toNat_packComponents sign exponent mantissa)
  have below := mantissa.isLt
  have below' := exponent.isLt
  have fraction : f.toBits.toNat % 2 ^ 52 = mantissa.toNat := by omega
  have biased : f.toBits.toNat / 2 ^ 52 % 2 ^ 11 = exponent.toNat := by omega
  have signBit : f.toBits.toNat / 2 ^ 63 = sign.toBitVec.toNat := by omega
  have negative : (sign.toBitVec.toNat == 1) = (sign == .negative) := by cases sign <;> rfl
  have full : exponent.toNat = 2047 ↔ exponent = -1#11 :=
    ⟨fun all => BitVec.eq_of_toNat_eq all, fun same => same ▸ rfl⟩
  have least : exponent.toNat = 0 ↔ exponent = 0#11 :=
    ⟨fun none_ => BitVec.eq_of_toNat_eq none_, fun same => same ▸ rfl⟩
  simp only [Binary.ofFloat?, Nat.pow_eq, fraction, biased, signBit, negative, beq_iff_eq, full, least]
  split
  · rfl
  split <;> rfl

end Composed

theorem exists_composed_of_isFinite (finite : f.isFinite = true) :
    ∃ sign exponent mantissa, Composed f sign exponent mantissa ∧ exponent ≠ -1#11 := by
  obtain ⟨sign, exponent, mantissa, composed⟩ := exists_composed f
  exact ⟨sign, exponent, mantissa, composed, by simpa [composed.isFinite] using finite⟩

theorem Binary.toInt?_not (negative : Bool) (mantissa : Nat) (exponent : Int) :
    Binary.toInt? ⟨!negative, mantissa, exponent⟩ =
      (Binary.toInt? ⟨negative, mantissa, exponent⟩).map (- ·) := by
  simp only [Binary.toInt?]
  split
  · cases negative <;> simp
  · split <;> cases negative <;> simp

theorem Binary.natAbs_le_of_toInt? {b : Binary} {whole : Int} (isWhole : b.toInt? = some whole)
    (small : b.exponent ≤ 0) : whole.natAbs ≤ b.mantissa := by
  have signed (n : Nat) : (if b.negative then -(n : Int) else n).natAbs = n := by split <;> omega
  simp only [Binary.toInt?] at isWhole
  split at isWhole
  · have unit : b.exponent.toNat = 0 := by omega
    cases isWhole
    rw [signed, unit]
    simp
  · split at isWhole
    · cases isWhole
      rw [signed]
      exact Nat.div_le_self _ _
    · cases isWhole

/-- The other sign makes the other integer of an integer. -/
theorem toInt?_neg (finite : f.isFinite = true) : toInt? (-f) = (toInt? f).map (- ·) := by
  obtain ⟨sign, exponent, mantissa, composed, inRange⟩ := exists_composed_of_isFinite finite
  have flipped : (-sign == .negative) = !(sign == .negative) := by cases sign <;> rfl
  simp only [toInt?, composed.ofFloat?, (composed.neg inRange).ofFloat?, if_neg inRange,
    Option.bind_some, flipped, Binary.toInt?_not]

theorem isFinite_neg (finite : f.isFinite = true) : (-f).isFinite = true := by
  obtain ⟨sign, exponent, mantissa, composed, inRange⟩ := exists_composed_of_isFinite finite
  rw [(composed.neg inRange).isFinite]
  simpa using inRange

theorem abs_neg_of_isFinite (finite : f.isFinite = true) : (-f).abs = f.abs := by
  obtain ⟨sign, exponent, mantissa, composed, inRange⟩ := exists_composed_of_isFinite finite
  exact ((composed.neg inRange).abs inRange).eq (composed.abs inRange)

theorem isFinite_of_toInt? {whole : Int} (isWhole : toInt? f = some whole) : f.isFinite = true := by
  obtain ⟨sign, exponent, mantissa, composed⟩ := exists_composed f
  rw [composed.isFinite]
  by_cases inRange : exponent = -1#11
  · simp [toInt?, composed.ofFloat?, inRange] at isWhole
  · simpa using inRange

end StaticSite.Decimal

namespace StaticSite.Template

open Decimal Float.Model Float.Model.UnpackedFloat
open Json (Number Value)

variable {f : Float}

/-- Whole floats below the bound are integers of at most 53 bits. -/
theorem natAbs_lt_of_toInt? {whole : Int} (isWhole : toInt? f = some whole) (below : f.abs < wholeBound) :
    whole.natAbs < 2 ^ 53 := by
  obtain ⟨sign, exponent, mantissa, composed, inRange⟩ :=
    exists_composed_of_isFinite (isFinite_of_toInt? isWhole)
  have limit : wholeBound.toModel.unpack = .finite .positive (2 ^ 52) 1 (by decide) := rfl
  have less : UnpackedFloat.lt f.abs.toModel.unpack wholeBound.toModel.unpack = true :=
    of_decide_eq_true below
  rw [(composed.abs inRange).unpack inRange, limit] at less
  rw [toInt?, composed.ofFloat?, if_neg inRange, Option.bind_some] at isWhole
  have bound := mantissa.isLt
  -- the exponent is at most 0, as with a greater one the mantissa alone would reach the bound
  have small : (if exponent = 0#11 then leastExponent else (exponent.toNat : Int) - 1075) ≤ 0 := by
    unfold unpacked at less
    split
    · decide
    · rename_i normal
      simp only [if_neg normal, UnpackedFloat.lt, UnpackedFloat.compare, beq_iff_eq, Option.some.injEq,
        Ordering.then_eq_lt, Int.compare_eq_lt, Nat.compare_eq_lt] at less
      omega
  have within := Binary.natAbs_le_of_toInt? isWhole small
  dsimp only at within
  split at within <;> omega

/-- A float is a number if it is finite. -/
theorem exists_ofFloat (finite : f.isFinite = true) : ∃ n, ofFloat f = .ok (.number n) := by
  unfold ofFloat
  split
  · split <;> exact ⟨_, rfl⟩
  · rw [if_pos finite]
    exact ⟨_, rfl⟩

theorem isFinite_of_ofFloat (number : ofFloat f = .ok value) : f.isFinite = true := by
  unfold ofFloat at number
  split at number
  · exact isFinite_of_toInt? ‹_›
  · split at number
    · assumption
    · cases number

/-- The number with the other sign. -/
def opposite : Number → Number
  | .int whole => .int (-whole)
  | .float f => .float (-f)

theorem ofFloat_neg_toFloat_int {whole : Int} (bound : whole.natAbs < 2 ^ 53) :
    ofFloat (-Number.toFloat (.int whole)) = .ok (.number (.int (-whole))) := by
  simp only [Number.toFloat]
  split
  · rename_i negative
    have positive : 0 < whole.natAbs := by omega
    rw [nearest_whole positive bound, neg_wholeFloat .positive positive bound,
      neg_wholeFloat _ positive bound, ofFloat_wholeFloat _ positive bound]
    have same : (whole.natAbs : Int) = -whole := by omega
    exact congrArg (fun n => Except.ok (Value.number (.int n))) same
  · rw [ofFloat_neg_nearest bound, Int.natAbs_of_nonneg (by omega)]

/-- A minus sign before a number makes the opposite number. -/
theorem ofFloat_neg_toFloat {n : Number} (number : ofFloat f = .ok (.number n)) :
    ofFloat (-n.toFloat) = .ok (.number (opposite n)) := by
  have finite := isFinite_of_ofFloat number
  have mirrored := toInt?_neg finite
  have sameSize := abs_neg_of_isFinite finite
  unfold ofFloat at number
  split at number
  · rename_i whole isWhole
    split at number
    · rename_i below
      cases number
      exact ofFloat_neg_toFloat_int (natAbs_lt_of_toInt? isWhole below)
    · rename_i notBelow
      cases number
      simp only [Number.toFloat, ofFloat, mirrored, isWhole, Option.map_some, sameSize, if_neg notBelow,
        opposite]
  · rename_i fractional
    rw [if_pos finite] at number
    cases number
    simp only [Number.toFloat, ofFloat, mirrored, fractional, Option.map_none, isFinite_neg finite,
      if_true, opposite]

end StaticSite.Template
