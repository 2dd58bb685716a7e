import Mathlib.Tactic.Ring

/-!
# Doubles near to whole numbers

The arithmetic of doubles keeps 53 bits of a result and rounds off the others, to the nearest
number and of two such to the even one. `Rounding.nearest` is this rounding for whole numbers
alone, and `Rounding.Holds` says that a double is a whole number. A product of two doubles is
infinite when the number nearest to it is `2 ^ 1024` or greater, which it is from the middle
between `2 ^ 1024` and the last double on.

Whole numbers are counted in units of `2 ^ -53`, since the double of a small one has digits
behind the point.
-/

namespace JsonForms.Rounding

open Float.Model Float.Model.UnpackedFloat

/-! ## Rounding whole numbers -/

/-- A number without its last bits, rounded to the nearest one and of two such to the even one. -/
def shiftedRight (number bits : Nat) : Nat :=
  if 2 * (number % 2 ^ bits) < 2 ^ bits then number / 2 ^ bits
  else if 2 * (number % 2 ^ bits) = 2 ^ bits then
    number / 2 ^ bits + number / 2 ^ bits % 2
  else number / 2 ^ bits + 1

/-- How many of a number's bits come after the first 53. -/
def excess (number : Nat) : Nat := number.log2 - 52

/-- The nearest number with no more than 53 bits before its zeros. -/
def nearest (number : Nat) : Nat := shiftedRight number (excess number) * 2 ^ excess number

/-- What the bits that were shifted out are remembered by. -/
structure Remembers (extended : ExtendedMantissa) (number bits : Nat) : Prop where
  mantissa : extended.mantissa = number / 2 ^ bits
  roundBit : extended.roundBit = true ↔ 2 ^ bits ≤ 2 * (number % 2 ^ bits)
  stickyBit : extended.stickyBit = true ↔
    number % 2 ^ bits ≠ 0 ∧ 2 * (number % 2 ^ bits) ≠ 2 ^ bits

/-- Before any shift nothing has been lost. -/
theorem remembers_exact (number : Nat) :
    Remembers (.ofMantissaAndAccuracy number .exact) number 0 := by
  constructor <;> simp [ExtendedMantissa.ofMantissaAndAccuracy, Nat.mod_one]

/-- One bit more is shifted out. -/
theorem Remembers.shiftRightOne {extended : ExtendedMantissa} {number bits : Nat}
    (remembers : Remembers extended number bits) :
    Remembers extended.shiftRightOne number (bits + 1) := by
  obtain ⟨mantissa, roundBit, stickyBit⟩ := remembers
  have further : number % 2 ^ (bits + 1) =
      number % 2 ^ bits + 2 ^ bits * (number / 2 ^ bits % 2) := Nat.mod_pow_succ
  have small : number % 2 ^ bits < 2 ^ bits := Nat.mod_lt _ (Nat.two_pow_pos bits)
  have doubled : 2 ^ (bits + 1) = 2 ^ bits * 2 := pow_succ 2 bits
  have lowest := Nat.mod_two_eq_zero_or_one (number / 2 ^ bits)
  constructor
  · rw [ExtendedMantissa.shiftRightOne, mantissa, Nat.div_div_eq_div_mul, doubled]
  · rw [ExtendedMantissa.shiftRightOne, mantissa, further, doubled, bne_iff_ne]
    obtain even | odd := lowest
    · rw [even]
      omega
    · rw [odd]
      omega
  · rw [ExtendedMantissa.shiftRightOne, Bool.or_eq_true, roundBit, stickyBit, further, doubled]
    obtain even | odd := lowest
    · rw [even]
      omega
    · rw [odd]
      omega

/-- What a mantissa remembers is kept through any number of shifts. -/
theorem Remembers.shiftRight {extended : ExtendedMantissa} {number : Nat} (bits : Nat)
    (remembers : Remembers extended number 0) : Remembers (extended >>> bits) number bits := by
  induction bits with
  | zero => exact remembers
  | succ bits inductionHypothesis => exact inductionHypothesis.shiftRightOne

/-- What is remembered is enough to round. -/
theorem Remembers.roundedMantissa {extended : ExtendedMantissa} {number bits : Nat}
    (remembers : Remembers extended number bits) :
    extended.roundedMantissa = shiftedRight number bits := by
  obtain ⟨mantissa, roundBit, stickyBit⟩ := remembers
  obtain ⟨kept, round, sticky⟩ := extended
  dsimp only at mantissa roundBit stickyBit
  have unit := Nat.two_pow_pos bits
  rw [shiftedRight, ← mantissa]
  cases round <;> cases sticky <;>
    simp only [ExtendedMantissa.roundedMantissa, ExtendedMantissa.accuracy,
      Accuracy.roundToNearestEven, Bool.false_eq_true, false_iff, true_iff, not_le] at *
  · rw [if_pos roundBit]
  · rw [if_pos roundBit]
  · rw [if_neg (by omega), if_pos (by omega)]
  · rw [if_neg (by omega), if_neg (by omega)]

/-! ## Bounds of rounding -/

/-- Rounding goes by half a unit of the bits that are kept at most. -/
theorem shiftedRight_near (number bits : Nat) :
    2 * (shiftedRight number bits * 2 ^ bits) ≤ 2 * number + 2 ^ bits ∧
      2 * number ≤ 2 * (shiftedRight number bits * 2 ^ bits) + 2 ^ bits := by
  have split := Nat.div_add_mod' number (2 ^ bits)
  have small : number % 2 ^ bits < 2 ^ bits := Nat.mod_lt _ (Nat.two_pow_pos bits)
  rw [shiftedRight]
  split_ifs with below tie
  · omega
  · obtain even | odd := Nat.mod_two_eq_zero_or_one (number / 2 ^ bits)
    · rw [even, Nat.add_zero]
      omega
    · rw [odd, Nat.add_mul]
      omega
  · rw [Nat.add_mul]
    omega

/-- The places of the first bit of a number and of the bit before it. -/
theorem excess_spec {number : Nat} (wide : 2 ^ 52 ≤ number) :
    2 ^ 52 * 2 ^ excess number ≤ number ∧ number < 2 ^ 53 * 2 ^ excess number := by
  have nonzero : number ≠ 0 := by omega
  have above : 52 ≤ number.log2 := (Nat.le_log2 nonzero).mpr wide
  have first := Nat.log2_self_le nonzero
  have next := @Nat.lt_log2_self number
  have bits : number.log2 = 52 + excess number := by
    rw [excess]
    omega
  rw [bits] at first next
  rw [← pow_add, ← pow_add]
  exact ⟨first, by rwa [Nat.add_right_comm] at next⟩

/-- Only one number has its first bit at a place. -/
theorem excess_eq {number bits : Nat} (least : 2 ^ 52 * 2 ^ bits ≤ number)
    (greatest : number < 2 ^ 53 * 2 ^ bits) : excess number = bits := by
  have positive := Nat.two_pow_pos (52 + bits)
  rw [← pow_add] at least greatest
  rw [excess, (Nat.log2_eq_iff (by omega)).mpr ⟨least, by rwa [Nat.add_right_comm]⟩]
  omega

/-- What is left after rounding has 53 bits, or it is the first number with more. -/
theorem shiftedRight_excess_bounds {number : Nat} (wide : 2 ^ 52 ≤ number) :
    2 ^ 52 ≤ shiftedRight number (excess number) ∧
      shiftedRight number (excess number) ≤ 2 ^ 53 := by
  obtain ⟨least, greatest⟩ := excess_spec wide
  have unit := Nat.two_pow_pos (excess number)
  have lower := (Nat.le_div_iff_mul_le unit).mpr least
  have upper := (Nat.div_lt_iff_lt_mul unit).mpr greatest
  rw [shiftedRight]
  split_ifs <;> omega

/-- A number is rounded up to the next power of two from the middle between it and the last
number with 53 bits. -/
theorem shiftedRight_excess_eq_iff {number : Nat} (wide : 2 ^ 52 ≤ number) :
    shiftedRight number (excess number) = 2 ^ 53 ↔
      (2 ^ 54 - 1) * 2 ^ excess number ≤ 2 * number := by
  obtain ⟨-, greatest⟩ := excess_spec wide
  have unit := Nat.two_pow_pos (excess number)
  have upper := (Nat.div_lt_iff_lt_mul unit).mpr greatest
  have split := Nat.div_add_mod' number (2 ^ excess number)
  have small : number % 2 ^ excess number < 2 ^ excess number := Nat.mod_lt _ unit
  obtain last | before : number / 2 ^ excess number = 2 ^ 53 - 1 ∨
      number / 2 ^ excess number ≤ 2 ^ 53 - 2 := by omega
  · rw [last] at split
    rw [shiftedRight, last]
    split_ifs <;> omega
  · have further := Nat.mul_le_mul_right (2 ^ excess number) before
    constructor
    · intro top
      rw [shiftedRight] at top
      split_ifs at top <;> omega
    · omega

/-- Rounding changes a number by one part in `2 ^ 53` at most. -/
theorem nearest_near {number : Nat} (wide : 2 ^ 52 ≤ number) :
    2 ^ 53 * nearest number ≤ (2 ^ 53 + 1) * number ∧
      (2 ^ 53 - 1) * number ≤ 2 ^ 53 * nearest number := by
  obtain ⟨least, -⟩ := excess_spec wide
  obtain ⟨above, below⟩ := shiftedRight_near number (excess number)
  rw [nearest]
  omega

/-! ## Rounding in the arithmetic of doubles -/

/-- A double keeps 53 bits, but none that counts less than `2 ^ -1074`. -/
theorem targetExponent_binary64 (exponent : Int) :
    Format.binary64.targetExponent exponent = max (exponent - 53) (-1074) := rfl

/-- A significand that fits is not shifted any more. -/
theorem shiftToTargetExponent_of_fits {significand : Nat} {exponent : Int}
    (fits : significand < 2 ^ 53) (least : -1074 ≤ exponent) :
    shiftToTargetExponent Format.binary64 significand exponent .exact =
      (.ofMantissaAndAccuracy significand .exact, exponent) := by
  have bits : significand.log2 ≤ 52 := by
    by_cases zero : significand = 0
    · subst zero
      decide
    · exact Nat.lt_succ_iff.mp ((Nat.log2_lt zero).mpr fits)
  have stays : (Format.binary64.targetExponent (totalExponent significand exponent) -
      exponent).toNat = 0 := by
    rw [targetExponent_binary64, totalExponent]
    omega
  rw [shiftToTargetExponent, shiftToExponent, stays]
  exact Prod.ext rfl (Int.add_zero exponent)

/-- A significand that was rounded up to one bit more is shifted by that bit. -/
theorem shiftToTargetExponent_of_carry {exponent : Int} (least : -1074 ≤ exponent) :
    shiftToTargetExponent Format.binary64 (2 ^ 53) exponent .exact =
      (.ofMantissaAndAccuracy (2 ^ 52) .exact, exponent + 1) := by
  have bits : (2 ^ 53 : Nat).log2 = 53 := Nat.log2_two_pow
  have once : (Format.binary64.targetExponent (totalExponent (2 ^ 53) exponent) -
      exponent).toNat = 1 := by
    rw [targetExponent_binary64, totalExponent, bits]
    omega
  rw [shiftToTargetExponent, shiftToExponent, once]
  rfl

/-- Of a wide significand all bits after the first 53 are shifted out. -/
theorem shiftToTargetExponent_of_wide {significand : Nat} {exponent : Int}
    (wide : 2 ^ 52 ≤ significand) (least : -1074 ≤ exponent) :
    shiftToTargetExponent Format.binary64 significand exponent .exact =
      (ExtendedMantissa.ofMantissaAndAccuracy significand .exact >>> excess significand,
        exponent + excess significand) := by
  have above : 52 ≤ significand.log2 := (Nat.le_log2 (by omega)).mpr wide
  have shift : (Format.binary64.targetExponent (totalExponent significand exponent) -
      exponent).toNat = excess significand := by
    rw [targetExponent_binary64, totalExponent, excess]
    omega
  rw [shiftToTargetExponent, shiftToExponent, shift]

/-- A wide significand is rounded to one of 53 bits for the nearest number. -/
theorem roundWithAccuracy_eq {significand : Nat} {exponent : Int}
    (wide : 2 ^ 52 ≤ significand) (least : -1074 ≤ exponent) :
    ∃ kept bits positive,
      roundWithAccuracy Format.binary64 .positive significand exponent .exact =
        .finite .positive kept (exponent + (bits : Nat)) positive ∧
      2 ^ 52 ≤ kept ∧ kept < 2 ^ 53 ∧ kept * 2 ^ bits = nearest significand := by
  obtain ⟨lower, upper⟩ := shiftedRight_excess_bounds wide
  have rounded := ((remembers_exact significand).shiftRight
    (excess significand)).roundedMantissa
  have higher : -1074 ≤ exponent + excess significand := by omega
  rw [roundWithAccuracy, shiftToTargetExponent_of_wide wide least]
  dsimp only
  rw [rounded]
  obtain carry | fits : shiftedRight significand (excess significand) = 2 ^ 53 ∨
      shiftedRight significand (excess significand) < 2 ^ 53 := by omega
  · rw [carry, shiftToTargetExponent_of_carry higher]
    have nonzero : ¬ (ExtendedMantissa.ofMantissaAndAccuracy (2 ^ 52) .exact).mantissa = 0 := by
      decide
    refine ⟨2 ^ 52, excess significand + 1, by decide, (dif_neg nonzero).trans ?_, le_rfl,
      by decide, ?_⟩
    · congr 1
      omega
    · rw [nearest, carry, pow_succ, pow_succ]
      ring
  · rw [shiftToTargetExponent_of_fits fits higher]
    have positive : 0 < shiftedRight significand (excess significand) := by omega
    exact ⟨_, excess significand, positive, dif_neg positive.ne', lower, fits, rfl⟩

/-- The sign that was packed is unpacked. -/
theorem unpackSign_packComponents (exponent : BitVec 11) (mantissa : BitVec 52) :
    Sign.ofBitVec (unpackSign (packComponents Format.binary64 .positive exponent mantissa)) =
      .positive := by
  have sign : unpackSign (packComponents Format.binary64 .positive exponent mantissa) = 0#1 := by
    refine BitVec.eq_of_getLsbD_eq fun index inside => ?_
    obtain rfl := Nat.lt_one_iff.mp inside
    change (BitVec.cast rfl (BitVec.extractLsb 63 63 (packComponents Format.binary64 .positive
      exponent mantissa))).getLsbD 0 = _
    simp only [packComponents, Sign.toBitVec, BitVec.getLsbD_cast, BitVec.getLsbD_extractLsb,
      BitVec.getLsbD_append]
    rfl
  rw [sign]
  rfl

/-- A double whose exponent is neither the greatest nor zero has a first bit that is not kept. -/
theorem unpack_of_normal {packed : BitVec 64}
    (notTop : @unpackExponent Format.binary64 packed ≠ -1#11)
    (notZero : @unpackExponent Format.binary64 packed ≠ 0#11) :
    ∃ positive, UnpackedFloat.unpack Format.binary64 packed =
      .finite (Sign.ofBitVec (@unpackSign Format.binary64 packed))
        (1#1 ++ @unpackMantissa Format.binary64 packed).toNat
        ((@unpackExponent Format.binary64 packed).toNat - (1023 + 52)) positive :=
  ⟨_, (if_neg notTop).trans (if_neg notZero)⟩

/-- A significand of 53 bits is kept without its first bit. -/
theorem toNat_append_one {kept : Nat} (lower : 2 ^ 52 ≤ kept) (upper : kept < 2 ^ 53) :
    (1#1 ++ BitVec.ofNat 52 kept).toNat = kept := by
  rw [BitVec.toNat_append, BitVec.toNat_ofNat, BitVec.toNat_ofNat,
    ← Nat.shiftLeft_add_eq_or_of_lt (Nat.mod_lt _ (by decide)), Nat.shiftLeft_eq]
  omega

/-- A double is infinite when its exponent is too large, and kept with its first bit or
without it otherwise. -/
theorem pack_binary64 {kept : Nat} {exponent : Int} (positive : 0 < kept) :
    UnpackedFloat.pack Format.binary64 (.finite .positive kept exponent positive) =
      if 2 ^ 11 ≤ (exponent + 1023 + 52).toNat + 1 then packedInfinity Format.binary64 .positive
      else if kept.log2 + 1 = 53 then
        packComponents Format.binary64 .positive
          (BitVec.ofNat 11 (exponent + 1023 + 52).toNat) (BitVec.ofNat 52 kept)
      else packComponents Format.binary64 .positive (0#11) (BitVec.ofNat 52 kept) := rfl

/-- A double that is neither too small nor too large is kept as it is. -/
theorem unpack_pack_of_normal {kept : Nat} {exponent : Int} (positive : 0 < kept)
    (lower : 2 ^ 52 ≤ kept) (upper : kept < 2 ^ 53) (least : -1074 ≤ exponent)
    (greatest : exponent ≤ 971) :
    (Float.Model.pack (.finite .positive kept exponent positive)).unpack =
      .finite .positive kept exponent positive := by
  have bits : kept.log2 = 52 := (Nat.log2_eq_iff positive.ne').mpr ⟨lower, upper⟩
  have biased : (BitVec.ofNat 11 (exponent + 1023 + 52).toNat).toNat =
      (exponent + 1023 + 52).toNat := by
    rw [BitVec.toNat_ofNat]
    omega
  have notTop : BitVec.ofNat 11 (exponent + 1023 + 52).toNat ≠ -1#11 := by
    intro top
    have number := congrArg BitVec.toNat top
    rw [biased] at number
    simp at number
    omega
  have notZero : BitVec.ofNat 11 (exponent + 1023 + 52).toNat ≠ 0#11 := by
    intro zero
    have number := congrArg BitVec.toNat zero
    rw [biased] at number
    simp at number
    omega
  have packed : UnpackedFloat.pack Format.binary64 (.finite .positive kept exponent positive) =
      packComponents Format.binary64 .positive
        (BitVec.ofNat 11 (exponent + 1023 + 52).toNat) (BitVec.ofNat 52 kept) := by
    have fits : ¬ 2 ^ 11 ≤ (exponent + 1023 + 52).toNat + 1 := by omega
    rw [pack_binary64, bits, if_neg fits, if_pos rfl]
  change UnpackedFloat.unpack Format.binary64 (UnpackedFloat.pack _ _) = _
  obtain ⟨_, unpacked⟩ := @unpack_of_normal
    (packComponents Format.binary64 .positive (BitVec.ofNat 11 (exponent + 1023 + 52).toNat)
      (BitVec.ofNat 52 kept))
    (by rwa [unpackExponent_packComponents]) (by rwa [unpackExponent_packComponents])
  rw [packed, unpacked, UnpackedFloat.finite.injEq, unpackSign_packComponents,
    unpackMantissa_packComponents, unpackExponent_packComponents, biased,
    toNat_append_one lower upper]
  refine ⟨rfl, rfl, ?_⟩
  omega

/-- A double that is too large is infinite. -/
theorem unpack_pack_of_large {kept : Nat} {exponent : Int} (positive : 0 < kept)
    (large : 972 ≤ exponent) :
    (Float.Model.pack (.finite .positive kept exponent positive)).unpack =
      .infinity .positive := by
  have packed : UnpackedFloat.pack Format.binary64 (.finite .positive kept exponent positive) =
      packedInfinity Format.binary64 .positive := by
    have beyond : 2 ^ 11 ≤ (exponent + 1023 + 52).toNat + 1 := by omega
    rw [pack_binary64, if_pos beyond]
  change UnpackedFloat.unpack Format.binary64 (UnpackedFloat.pack _ _) = _
  rw [packed]
  rfl

/-! ## Doubles that are nearest to whole numbers -/

/-- A double is a whole number of units of `2 ^ -53`, and has all of its 53 bits. -/
def Holds (value : Float) (number : Nat) : Prop :=
  ∃ kept bits positive,
    value.toModel.unpack = .finite .positive kept ((bits : Nat) - 53 : Int) positive ∧
      2 ^ 52 ≤ kept ∧ kept < 2 ^ 53 ∧ kept * 2 ^ bits = number

/-- The place of the first bit of a number of 53 bits and zeros. -/
theorem lt_two_pow_iff {kept bits bound : Nat} (lower : 2 ^ 52 ≤ kept) (upper : kept < 2 ^ 53) :
    kept * 2 ^ bits < 2 ^ (52 + bound) ↔ bits < bound := by
  constructor
  · intro small
    have least := Nat.mul_le_mul_right (2 ^ bits) lower
    rw [← pow_add] at least
    have exponents := (Nat.pow_lt_pow_iff_right (by decide)).mp (least.trans_lt small)
    omega
  · intro fewer
    calc kept * 2 ^ bits < 2 ^ 53 * 2 ^ bits :=
          Nat.mul_lt_mul_of_pos_right upper (Nat.two_pow_pos bits)
      _ = 2 ^ (53 + bits) := (pow_add 2 53 bits).symm
      _ ≤ 2 ^ (52 + bound) := Nat.pow_le_pow_right (by decide) (by omega)

/-- The double for a significand and a power of ten is the nearest one, if that is not too large. -/
theorem holds_ofScientific {significand power : Nat} (nonzero : significand ≠ 0)
    (bounded : power ≤ 2048)
    (small : nearest (2 ^ 53 * (significand * 10 ^ power)) < 2 ^ (52 + 1025)) :
    Holds ⟨Float.Model.ofScientific significand power⟩
      (nearest (2 ^ 53 * (significand * 10 ^ power))) := by
  have whole : 0 < significand * 10 ^ power :=
    Nat.mul_pos (Nat.pos_of_ne_zero nonzero) (Nat.pow_pos (by decide))
  have wide : 2 ^ 52 ≤ 2 ^ 53 * (significand * 10 ^ power) := by omega
  have units : significand <<< 53 * 10 ^ power = 2 ^ 53 * (significand * 10 ^ power) := by
    rw [Nat.shiftLeft_eq]
    ring
  obtain ⟨kept, bits, positive, rounded, lower, upper, same⟩ :=
    roundWithAccuracy_eq wide (by decide : (-1074 : Int) ≤ -53)
  have fits : bits < 1025 := (lt_two_pow_iff lower upper).mp (same.trans_lt small)
  refine ⟨kept, bits, positive, ?_, lower, upper, same⟩
  have notLarge : ¬ ((power : Int) > 2 ^ Format.binary64.exponentBits) := by
    change ¬ ((power : Int) > 2048)
    omega
  have notSmall : ¬ ((power : Int) < -((2 ^ Format.binary64.exponentBits : Int) +
      significand.log2)) := by
    change ¬ ((power : Int) < -(2048 + significand.log2))
    omega
  have scaled : UnpackedFloat.ofScientific Format.binary64 significand power =
      roundWithAccuracy Format.binary64 .positive (significand <<< 53 * 10 ^ power) (-53 + 0)
        .exact := by
    rw [UnpackedFloat.ofScientific, dif_neg nonzero, if_neg notLarge, if_neg notSmall,
      if_pos (Int.natCast_nonneg power)]
    rfl
  rw [Float.Model.ofScientific, scaled, units, Int.add_zero, rounded,
    unpack_pack_of_normal positive lower upper (by omega) (by omega), Int.add_comm]
  rfl

/-- Scaling by a power of two only moves the place where a number is rounded. -/
theorem nearest_mul_two_pow {number : Nat} (wide : 2 ^ 52 ≤ number) (bits : Nat) :
    nearest (number * 2 ^ bits) = nearest number * 2 ^ bits := by
  obtain ⟨least, greatest⟩ := excess_spec wide
  have unit := Nat.two_pow_pos bits
  have places : 2 ^ (excess number + bits) = 2 ^ excess number * 2 ^ bits := pow_add 2 _ _
  have moved : excess (number * 2 ^ bits) = excess number + bits := by
    refine excess_eq ?_ ?_
    · rw [places, ← Nat.mul_assoc]
      exact Nat.mul_le_mul_right _ least
    · rw [places, ← Nat.mul_assoc]
      exact Nat.mul_lt_mul_of_pos_right greatest unit
  have same : shiftedRight (number * 2 ^ bits) (excess number + bits) =
      shiftedRight number (excess number) := by
    rw [shiftedRight, shiftedRight, places, Nat.mul_div_mul_right _ _ unit,
      Nat.mul_mod_mul_right, ← Nat.mul_assoc]
    simp only [Nat.mul_lt_mul_right unit, Nat.mul_left_inj unit.ne']
  rw [nearest, nearest, moved, same, places, Nat.mul_assoc]

/-- A product of doubles is infinite if the number nearest to it is. -/
theorem isInf_mul {first second : Float} {number other : Nat} (one : Holds first number)
    (two : Holds second other) :
    (first * second).isInf = true ↔ 2 ^ (52 + 1078) ≤ nearest (number * other) := by
  obtain ⟨kept, bits, positive, unpacked, lower, upper, rfl⟩ := one
  obtain ⟨keptToo, bitsToo, positiveToo, unpackedToo, lowerToo, upperToo, rfl⟩ := two
  have wide : 2 ^ 52 ≤ kept * keptToo := by
    have product := Nat.mul_le_mul lower lowerToo
    omega
  have exponents : ((bits : Int) - 53) + ((bitsToo : Int) - 53) = (bits + bitsToo : Nat) - 106 := by
    omega
  obtain ⟨left, more, positiveLeft, rounded, lowerLeft, upperLeft, same⟩ :=
    roundWithAccuracy_eq wide (by omega : (-1074 : Int) ≤ (bits + bitsToo : Nat) - 106)
  have product : (first * second).toModel =
      Float.Model.pack (.finite .positive left ((bits + bitsToo : Nat) - 106 + (more : Nat))
        positiveLeft) := by
    change Float.Model.pack (UnpackedFloat.mul _ first.toModel.unpack second.toModel.unpack) = _
    rw [unpacked, unpackedToo, ← rounded, ← exponents]
    rfl
  have scaled : nearest (kept * 2 ^ bits * (keptToo * 2 ^ bitsToo)) =
      left * 2 ^ (more + (bits + bitsToo)) := by
    rw [Nat.mul_mul_mul_comm, ← pow_add, nearest_mul_two_pow wide, ← same, Nat.mul_assoc,
      ← pow_add]
  have place : left * 2 ^ (more + (bits + bitsToo)) < 2 ^ (52 + 1078) ↔
      more + (bits + bitsToo) < 1078 := lt_two_pow_iff lowerLeft upperLeft
  change (first * second).toModel.unpack.isInf = true ↔ _
  rw [scaled, product, ← not_lt, place]
  by_cases large : more + (bits + bitsToo) < 1078
  · rw [unpack_pack_of_normal positiveLeft lowerLeft upperLeft (by omega) (by omega)]
    simp [UnpackedFloat.isInf, large]
  · rw [unpack_pack_of_large positiveLeft (by omega)]
    simp [UnpackedFloat.isInf, large]

/-- The numbers that are rounded to a power of two or beyond are those from the middle between
it and the last number of 53 bits below it. -/
theorem two_pow_le_nearest_iff {number bits : Nat} (wide : 2 ^ 52 ≤ number) :
    2 ^ (53 + bits) ≤ nearest number ↔ (2 ^ 54 - 1) * 2 ^ bits ≤ 2 * number := by
  obtain ⟨least, greatest⟩ := excess_spec wide
  obtain ⟨lower, upper⟩ := shiftedRight_excess_bounds wide
  obtain fewer | rfl | more := Nat.lt_trichotomy (excess number) bits
  · have double : 2 * 2 ^ excess number ≤ 2 ^ bits := by
      rw [← pow_succ']
      exact Nat.pow_le_pow_right (by decide) fewer
    have rounded := Nat.mul_le_mul_right (2 ^ excess number) upper
    rw [nearest, pow_add]
    omega
  · rw [← shiftedRight_excess_eq_iff wide, nearest, pow_add,
      Nat.mul_le_mul_right_iff (Nat.two_pow_pos _)]
    omega
  · have double : 2 * 2 ^ bits ≤ 2 ^ excess number := by
      rw [← pow_succ']
      exact Nat.pow_le_pow_right (by decide) more
    have rounded := Nat.mul_le_mul_right (2 ^ excess number) lower
    rw [nearest, pow_add]
    omega

end JsonForms.Rounding
