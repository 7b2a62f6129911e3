import StaticSite.Proofs.Decimal.Sign

/-!
Whole numbers of any size as floats. A float has room for 53 bits, so a longer number becomes a multiple of
the power of two that its leading 53 bits count: the nearest, and of two equally near ones the even one. It
is kept if and only if it is such a multiple already.
-/

namespace StaticSite.Decimal

open Float.Model Float.Model.UnpackedFloat

/-- A quotient rounded to the nearest integer, from half way to the even one. -/
def nearestQuotient (whole unit : Nat) : Nat :=
  if unit < 2 * (whole % unit) ∨ 2 * (whole % unit) = unit ∧ whole / unit % 2 = 1 then whole / unit + 1
  else whole / unit

/-- The step from one float of the size of a whole number to the next. -/
def binaryUnit (n : Nat) : Nat := 2 ^ (n.log2 - 52)

/-- A whole number rounded to 53 bits. -/
def rounded (n : Nat) : Nat := nearestQuotient n (binaryUnit n) * binaryUnit n

theorem binaryUnit_pos (n : Nat) : 0 < binaryUnit n := Nat.two_pow_pos _

theorem div_le_nearestQuotient (whole unit : Nat) : whole / unit ≤ nearestQuotient whole unit := by
  unfold nearestQuotient
  split <;> omega

theorem nearestQuotient_le (whole unit : Nat) : nearestQuotient whole unit ≤ whole / unit + 1 := by
  unfold nearestQuotient
  split <;> omega

theorem nearestQuotient_mul (whole unit : Nat) {scale : Nat} (positive : 0 < scale) :
    nearestQuotient (whole * scale) (unit * scale) = nearestQuotient whole unit := by
  have less : unit * scale < 2 * (whole % unit * scale) ↔ unit < 2 * (whole % unit) := by
    rw [← Nat.mul_assoc, Nat.mul_lt_mul_right positive]
  have same : 2 * (whole % unit * scale) = unit * scale ↔ 2 * (whole % unit) = unit := by
    rw [← Nat.mul_assoc, Nat.mul_left_inj (Nat.ne_of_gt positive)]
  unfold nearestQuotient
  rw [Nat.mul_mod_mul_right, Nat.mul_div_mul_right _ _ positive]
  simp only [less, same]

/-- A whole number is kept if it is a multiple of its unit, and only then. -/
theorem rounded_eq_iff (n : Nat) : rounded n = n ↔ binaryUnit n ∣ n := by
  constructor
  · intro kept
    refine ⟨nearestQuotient n (binaryUnit n), ?_⟩
    rw [Nat.mul_comm]
    exact kept.symm
  · intro multiple
    have positive := binaryUnit_pos n
    have exact_ : n % binaryUnit n = 0 := Nat.mod_eq_zero_of_dvd multiple
    have quotient : nearestQuotient n (binaryUnit n) = n / binaryUnit n := by
      unfold nearestQuotient
      rw [exact_, if_neg (by omega)]
    rw [rounded, quotient, Nat.div_mul_cancel multiple]

/-! ## Shifting and rounding a mantissa -/

/-- What is left of a number that is cut to a multiple of a unit, with what the two bits below tell. -/
structure Cut (em : ExtendedMantissa) (whole unit : Nat) : Prop where
  mantissa : em.mantissa = whole / unit
  round : em.roundBit = true ↔ unit ≤ 2 * (whole % unit)
  sticky : em.stickyBit = true ↔ 2 * (whole % unit) ≠ 0 ∧ 2 * (whole % unit) ≠ unit

theorem cut_one (whole : Nat) : Cut ⟨whole, false, false⟩ whole 1 where
  mantissa := (Nat.div_one whole).symm
  round := by simp [Nat.mod_one]
  sticky := by simp [Nat.mod_one]

theorem Cut.shiftRightOne {em : ExtendedMantissa} {whole unit : Nat} (cut : Cut em whole unit)
    (positive : 0 < unit) : Cut em.shiftRightOne whole (unit * 2) := by
  have rest : whole % (unit * 2) = whole % unit + unit * (whole / unit % 2) := Nat.mod_mul
  have below := Nat.mod_lt whole positive
  have bit : whole / unit % 2 = 0 ∨ whole / unit % 2 = 1 := by omega
  constructor
  · rw [ExtendedMantissa.shiftRightOne, cut.mantissa, Nat.div_div_eq_div_mul]
  · rw [ExtendedMantissa.shiftRightOne, cut.mantissa, rest, bne_iff_ne]
    rcases bit with zero | one
    · rw [zero]
      omega
    · rw [one]
      omega
  · rw [ExtendedMantissa.shiftRightOne, Bool.or_eq_true, cut.round, cut.sticky, rest]
    rcases bit with zero | one
    · rw [zero]
      omega
    · rw [one]
      omega

theorem Cut.shiftRight {em : ExtendedMantissa} {whole unit : Nat} (cut : Cut em whole unit)
    (positive : 0 < unit) (places : Nat) : Cut (em >>> places) whole (unit * 2 ^ places) := by
  change Cut (Nat.repeat ExtendedMantissa.shiftRightOne places em) _ _
  induction places with
  | zero => simpa [Nat.repeat] using cut
  | succ places ih =>
      rw [Nat.repeat, Nat.pow_succ, ← Nat.mul_assoc]
      exact ih.shiftRightOne (Nat.mul_pos positive (Nat.two_pow_pos places))

theorem Cut.roundedMantissa {em : ExtendedMantissa} {whole unit : Nat} (cut : Cut em whole unit) :
    em.roundedMantissa = nearestQuotient whole unit := by
  obtain ⟨mantissa, round, sticky⟩ := em
  obtain ⟨same, roundIff, stickyIff⟩ := cut
  dsimp only at same roundIff stickyIff
  subst same
  unfold nearestQuotient
  cases round with
  | false =>
      have down : ¬ unit ≤ 2 * (whole % unit) := fun up => Bool.false_ne_true (roundIff.mpr up)
      rw [if_neg (by omega)]
      cases sticky <;> rfl
  | true =>
      have up := roundIff.mp rfl
      cases sticky with
      | true =>
          have apart := stickyIff.mp rfl
          rw [if_pos (by omega)]
          rfl
      | false =>
          have half : 2 * (whole % unit) = unit := by
            have notApart : ¬ (2 * (whole % unit) ≠ 0 ∧ 2 * (whole % unit) ≠ unit) := fun apart =>
              Bool.false_ne_true (stickyIff.mpr apart)
            omega
          change whole / unit + whole / unit % 2 = _
          split <;> omega

/-- A mantissa that is rounded to one of 53 bits, with zeros below. -/
theorem roundWithAccuracy_of_rounded {mantissa : Nat} {exponent : Int} {whole : Nat} {start : Int}
    {accuracy : Accuracy} {em : ExtendedMantissa} (places : Nat) (sign : Sign) (full : mantissa.log2 = 52)
    (normal : -1074 ≤ exponent) (positive : 0 < mantissa)
    (first : shiftToTargetExponent Format.binary64 whole start accuracy = (em, exponent - places))
    (rounds : em.roundedMantissa = mantissa * 2 ^ places) :
    roundWithAccuracy Format.binary64 sign whole start accuracy =
      .finite sign mantissa exponent positive := by
  simp only [roundWithAccuracy, first, rounds, shiftToTargetExponent_full full normal,
    dif_neg (Nat.ne_of_gt positive)]

variable {n : Nat}

/-- The quotient of a long number by its unit has 53 bits. -/
theorem div_binaryUnit_bounds (long : 52 ≤ n.log2) :
    2 ^ 52 ≤ n / binaryUnit n ∧ n / binaryUnit n < 2 ^ 53 := by
  have nonzero : n ≠ 0 := by
    rintro rfl
    simp at long
  have bounds := (Nat.log2_eq_iff nonzero).mp rfl
  have low : 2 ^ n.log2 = 2 ^ 52 * binaryUnit n := by
    rw [binaryUnit, ← Nat.pow_add]
    congr 1
    omega
  have high : 2 ^ (n.log2 + 1) = 2 ^ 53 * binaryUnit n := by
    rw [binaryUnit, ← Nat.pow_add]
    congr 1
    omega
  rw [low, high] at bounds
  exact ⟨(Nat.le_div_iff_mul_le (binaryUnit_pos n)).mpr bounds.1,
    (Nat.div_lt_iff_lt_mul (binaryUnit_pos n)).mpr bounds.2⟩

/-- A long number is rounded to a mantissa of 53 bits, which may be one place further up. -/
theorem exists_round_whole (long : 52 ≤ n.log2) (sign : Sign) :
    ∃ (mantissa exponent : Nat) (positive : 0 < mantissa),
      roundWithAccuracy Format.binary64 sign (n * 2 ^ 53) (-53) .exact =
        .finite sign mantissa exponent positive ∧
      mantissa.log2 = 52 ∧ mantissa * 2 ^ exponent = rounded n := by
  have bounds := div_binaryUnit_bounds long
  have nonzero : n ≠ 0 := by
    rintro rfl
    simp at long
  have target : Format.binary64.targetExponent (totalExponent (n * 2 ^ 53) (-53)) =
      ((n.log2 - 52 : Nat) : Int) := by
    simp only [Format.targetExponent, totalExponent, log2_mul_two_pow nonzero, Format.mantissaBits,
      Format.minExponent]
    omega
  have amount : (((n.log2 - 52 : Nat) : Int) - -53).toNat = n.log2 - 52 + 53 := by omega
  have first : shiftToTargetExponent Format.binary64 (n * 2 ^ 53) (-53) .exact =
      ((⟨n * 2 ^ 53, false, false⟩ : ExtendedMantissa) >>> (n.log2 - 52 + 53),
        ((n.log2 - 52 : Nat) : Int)) := by
    simp only [shiftToTargetExponent, target, shiftToExponent, amount,
      ExtendedMantissa.ofMantissaAndAccuracy]
    congr 1
    omega
  have rounds : ((⟨n * 2 ^ 53, false, false⟩ : ExtendedMantissa) >>> (n.log2 - 52 + 53)).roundedMantissa =
      nearestQuotient n (binaryUnit n) := by
    have cut := (cut_one (n * 2 ^ 53)).shiftRight Nat.one_pos (n.log2 - 52 + 53)
    rw [cut.roundedMantissa, Nat.one_mul, Nat.pow_add, nearestQuotient_mul _ _ (Nat.two_pow_pos 53)]
    rfl
  have low := Nat.le_trans bounds.1 (div_le_nearestQuotient n (binaryUnit n))
  have high := nearestQuotient_le n (binaryUnit n)
  rcases Nat.lt_or_ge (nearestQuotient n (binaryUnit n)) (2 ^ 53) with fits | carries
  · have full : (nearestQuotient n (binaryUnit n)).log2 = 52 :=
      (Nat.log2_eq_iff (by omega)).mpr ⟨low, fits⟩
    refine ⟨_, n.log2 - 52, by omega, ?_, full, rfl⟩
    apply roundWithAccuracy_of_rounded 0 sign full (by omega) _ _ (by rw [rounds, Nat.pow_zero, Nat.mul_one])
    rw [first]
    simp
  · have all : nearestQuotient n (binaryUnit n) = 2 ^ 52 * 2 ^ 1 := by omega
    have full : (2 ^ 52).log2 = 52 := Nat.log2_two_pow
    refine ⟨2 ^ 52, n.log2 - 52 + 1, by decide, ?_, full, ?_⟩
    · apply roundWithAccuracy_of_rounded 1 sign full (by omega) _ _ (rounds.trans all)
      rw [first]
      simp
    · rw [rounded, all, binaryUnit, Nat.pow_succ 2 (n.log2 - 52), Nat.pow_one, Nat.mul_assoc, Nat.mul_comm 2]

/-! ## The float nearest to a whole number -/

theorem binaryUnit_of_lt (short : n < 2 ^ 53) : binaryUnit n = 1 := by
  rcases Nat.eq_zero_or_pos n with rfl | positive
  · rfl
  · have places := log2_le positive short
    rw [binaryUnit, Nat.sub_eq_zero_of_le places, Nat.pow_zero]

theorem rounded_of_lt (short : n < 2 ^ 53) : rounded n = n := by
  rw [rounded_eq_iff, binaryUnit_of_lt short]
  exact one_dvd n

theorem two_pow_log2_le_rounded (long : 52 ≤ n.log2) : 2 ^ n.log2 ≤ rounded n := by
  have bounds := div_binaryUnit_bounds long
  calc 2 ^ n.log2 = 2 ^ 52 * binaryUnit n := by rw [binaryUnit, ← Nat.pow_add]; congr 1; omega
    _ ≤ rounded n := Nat.mul_le_mul_right _ (Nat.le_trans bounds.1 (div_le_nearestQuotient _ _))

section Pack

variable {mantissa exponent : Nat} {sign : Sign}

theorem toBits_pack (unpacked : UnpackedFloat) :
    (Float.ofModel (.pack unpacked)).toBits.toBitVec = UnpackedFloat.pack Format.binary64 unpacked := rfl

/-- The float of a sign, a mantissa of 53 bits and a power of two. -/
def floatOf (sign : Sign) (mantissa exponent : Nat) (positive : 0 < mantissa) : Float :=
  .ofModel (.pack (.finite sign mantissa exponent positive))

theorem toInt?_floatOf (full : mantissa.log2 = 52) (most : exponent ≤ 971) (positive : 0 < mantissa) :
    toInt? (floatOf sign mantissa exponent positive) = some (sign.apply (mantissa * 2 ^ exponent)) := by
  have bounds := (Nat.log2_eq_iff (Nat.ne_of_gt positive)).mp full
  have composed : Composed (floatOf sign mantissa exponent positive) sign
      (BitVec.ofNat 11 ((exponent : Int) + 1075).toNat) (BitVec.ofNat 52 mantissa) := by
    unfold Composed floatOf
    rw [toBits_pack, pack_normal sign full (by omega) (by omega) positive]
  have biased : (BitVec.ofNat 11 ((exponent : Int) + 1075).toNat).toNat = exponent + 1075 := by
    rw [BitVec.toNat_ofNat]
    omega
  have low : (BitVec.ofNat 52 mantissa).toNat = mantissa - 2 ^ 52 := by
    rw [BitVec.toNat_ofNat]
    omega
  have inRange : BitVec.ofNat 11 ((exponent : Int) + 1075).toNat ≠ -1#11 := fun all => by
    have := congrArg BitVec.toNat all
    rw [biased] at this
    change exponent + 1075 = 2047 at this
    omega
  have normal : BitVec.ofNat 11 ((exponent : Int) + 1075).toNat ≠ 0#11 := fun none_ => by
    have := congrArg BitVec.toNat none_
    rw [biased] at this
    change exponent + 1075 = 0 at this
    omega
  have whole : 2 ^ 52 + (mantissa - 2 ^ 52) = mantissa := by omega
  have shift : ((exponent + 1075 : Nat) : Int) - 1075 = exponent := by omega
  rw [toInt?, composed.ofFloat?, if_neg inRange, if_neg normal, if_neg normal, biased, low, whole, shift]
  simp only [Option.bind_some, Binary.toInt?, Int.natCast_nonneg, if_true, Int.toNat_natCast, Nat.pow_eq]
  cases sign <;> rfl

theorem floatOf_eq_infinity (most : 971 < exponent) (positive : 0 < mantissa) :
    floatOf sign mantissa exponent positive = .ofModel (.pack (.infinity sign)) := by
  have packed : UnpackedFloat.pack Format.binary64 (.finite sign mantissa exponent positive) =
      UnpackedFloat.pack Format.binary64 (.infinity sign) := by
    have biased : ((exponent : Int) + (Format.binary64.exponentBias : Int) + ((52 : Nat) : Int)).toNat =
        exponent + 1075 := by
      change ((exponent : Int) + 1023 + 52).toNat = _
      omega
    simp only [UnpackedFloat.pack, biased, if_pos (by omega : 2 ^ 11 ≤ exponent + 1075 + 1)]
  unfold floatOf Float.Model.pack
  simp only [packed]

/-- The floats end below `2 ^ 1024`. -/
theorem mul_two_pow_lt_iff (full : mantissa.log2 = 52) :
    mantissa * 2 ^ exponent < 2 ^ 1024 ↔ exponent ≤ 971 := by
  have nonzero : mantissa ≠ 0 := by
    intro none_
    rw [none_] at full
    cases full
  have product : mantissa * 2 ^ exponent ≠ 0 := Nat.mul_ne_zero nonzero (Nat.ne_of_gt (Nat.two_pow_pos _))
  rw [← Nat.log2_lt product, log2_mul_two_pow nonzero, full]
  omega

end Pack

theorem nearest_eq_round (long : 2 ^ 53 ≤ n) (digits : (Nat.toDigits 10 n).length ≤ 400) :
    nearest n 0 =
      .ofModel (.pack (roundWithAccuracy Format.binary64 .positive (n * 2 ^ 53) (-53) .exact)) := by
  have nonzero : n ≠ 0 := by omega
  have scientific : Float.ofScientific n false 0 =
      .ofModel (.pack (UnpackedFloat.ofScientific Format.binary64 n 0)) := by
    unfold Float.ofScientific
    rw [dif_neg (fun fits => Nat.not_lt_of_le long fits.1)]
    rfl
  have product : UnpackedFloat.ofScientific Format.binary64 n 0 =
      roundWithAccuracy Format.binary64 .positive (n * 2 ^ 53) (-53) .exact := by
    have bits : (2 : Int) ^ Format.binary64.exponentBits = 2 ^ 11 := rfl
    have places : Format.binary64.mantissaBits = 53 := rfl
    have one : 10 ^ Int.toNat 0 = 1 := rfl
    rw [UnpackedFloat.ofScientific, dif_neg nonzero, bits, if_neg (by decide), if_neg (by omega),
      if_pos (by decide)]
    simp only [UnpackedFloat.mul, Nat.shiftLeft_eq, places, one, Nat.mul_one, Int.add_zero]
    rfl
  unfold nearest
  rw [if_neg (by simpa using nonzero), Int.add_zero, if_neg (by omega), if_neg (by omega), ← product]
  exact scientific

theorem two_pow_le_ten_pow (places : Nat) : 2 ^ (3 * places) ≤ 10 ^ places := by
  rw [pow_mul]
  exact Nat.pow_le_pow_left (by decide) places

theorem length_toDigits_le_of_rounded_lt (long : 52 ≤ n.log2) (below : rounded n < 2 ^ 1024) :
    (Nat.toDigits 10 n).length ≤ 400 := by
  have nonzero : n ≠ 0 := by
    rintro rfl
    simp at long
  have places := Nat.lt_of_le_of_lt (two_pow_log2_le_rounded long) below
  rw [pow_lt_pow_iff_right₀ Nat.one_lt_two] at places
  rw [Nat.length_toDigits_le_iff (by decide) (by decide)]
  calc n < 2 ^ (3 * 400) := (Nat.log2_lt nonzero).mp (by omega)
    _ ≤ 10 ^ 400 := two_pow_le_ten_pow 400

/-- Digits are read as the rounded number while it is within the range of floats. -/
theorem toInt?_nearest (below : rounded n < 2 ^ 1024) : toInt? (nearest n 0) = some (rounded n : Int) := by
  rcases Nat.lt_or_ge n (2 ^ 53) with short | long
  · rw [rounded_of_lt short]
    rcases Nat.eq_zero_or_pos n with rfl | positive
    · decide +kernel
    · rw [nearest_whole positive short]
      exact toInt?_wholeFloat .positive positive short
  · have places : 52 ≤ n.log2 := by
      rw [Nat.le_log2 (by omega)]
      omega
    obtain ⟨mantissa, exponent, positive, rounds, full, same⟩ := exists_round_whole places .positive
    rw [← same, mul_two_pow_lt_iff full] at below
    rw [nearest_eq_round long (length_toDigits_le_of_rounded_lt places (by rwa [← same, mul_two_pow_lt_iff full])),
      rounds, ← same]
    exact toInt?_floatOf full below positive

/-- Digits of a number beyond the range of floats are read as infinity. -/
theorem nearest_eq_infinity (beyond : 2 ^ 1024 ≤ rounded n) :
    nearest n 0 = .ofModel (.pack (.infinity .positive)) := by
  have long : 2 ^ 53 ≤ n := by
    rw [← Nat.not_lt]
    intro short
    rw [rounded_of_lt short] at beyond
    omega
  rcases Nat.lt_or_ge 400 (Nat.toDigits 10 n).length with many | few
  · have nonzero : n ≠ 0 := by omega
    unfold nearest
    rw [if_neg (by simpa using nonzero), Int.add_zero, if_pos (by omega)]
    decide +kernel
  · have places : 52 ≤ n.log2 := by
      rw [Nat.le_log2 (by omega)]
      omega
    obtain ⟨mantissa, exponent, positive, rounds, full, same⟩ := exists_round_whole places .positive
    rw [← same, ← Nat.not_lt, mul_two_pow_lt_iff full, Nat.not_le] at beyond
    rw [nearest_eq_round long few, rounds]
    exact floatOf_eq_infinity beyond positive

theorem isFinite_infinity : (Float.ofModel (.pack (.infinity .positive))).isFinite = false ∧
    (-Float.ofModel (.pack (.infinity .positive))).isFinite = false := by
  decide +kernel

end StaticSite.Decimal
