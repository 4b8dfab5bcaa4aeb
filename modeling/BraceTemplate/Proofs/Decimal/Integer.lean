/-
# BraceTemplate.Proofs.Decimal.Integer — 64-bit integers as floats

A 64-bit integer has a float nearest to it, which is never infinite: a float overflows only far
beyond 2^64. The proof follows the conversion. The integer is moved to the left by at most 52 places
and rounded to 53 bits, twice, and no step raises the exponent by more than the number of bits it
has to drop. So coarse bounds on the exponent are enough, and the rounding itself does not matter.

* `exponent_round_le`: how large the exponent of a rounded significand can be;
* `isFinite_toFloat`: the float of a 64-bit integer is finite.
-/
import Mathlib

namespace BraceTemplate.Decimal

set_option autoImplicit false

open Float.Model Float.Model.UnpackedFloat

/-! ## Finite bit patterns -/

theorem isFinite_unpack {bits : BitVec Format.binary64.numBits}
    (normal : unpackExponent bits ≠ -1#_) :
    (UnpackedFloat.unpack Format.binary64 bits).isFinite = true := by
  rw [UnpackedFloat.unpack]
  simp only [if_neg normal]
  split
  · split <;> rfl
  · rfl

/-- Packing overflows only if the exponent is large. -/
theorem isFinite_pack {sign : Sign} {significand : Nat} {exponent : Int} {pos : 0 < significand}
    (small : exponent ≤ 900) :
    (UnpackedFloat.unpack Format.binary64
      (UnpackedFloat.pack Format.binary64
        (.finite sign significand exponent pos))).isFinite = true := by
  have biased : (exponent + 1023 + 52).toNat + 1 < 2 ^ 11 := by omega
  refine isFinite_unpack ?_
  rw [UnpackedFloat.pack]
  simp only
  refine if_neg (Nat.not_le.2 biased) ▸ ?_
  split
  · rw [unpackExponent_packComponents]
    intro same
    have largest : (exponent + 1023 + 52).toNat % 2 ^ 11 = 2 ^ 11 - 1 := congrArg BitVec.toNat same
    omega
  · rw [unpackExponent_packComponents]
    exact (by decide : (0#_ : BitVec Format.binary64.exponentBits) ≠ -1#_)

/-! ## Rounding -/

theorem mantissa_shiftRight_le (m : ExtendedMantissa) (k : Nat) :
    (m >>> k).mantissa ≤ m.mantissa := by
  induction k with
  | zero => exact Nat.le_refl _
  | succ k ih => exact Nat.le_trans (Nat.div_le_self _ 2) ih

theorem roundedMantissa_le (m : ExtendedMantissa) : m.roundedMantissa ≤ m.mantissa + 1 := by
  obtain ⟨mantissa, roundBit, stickyBit⟩ := m
  cases roundBit <;> cases stickyBit <;>
    simp only [ExtendedMantissa.roundedMantissa, ExtendedMantissa.accuracy,
      Accuracy.roundToNearestEven] <;>
    omega

/-- Moving a significand of `k` bits to the exponent where it has 53 of them. -/
theorem shiftToTargetExponent_le {significand k : Nat} (bound : significand ≤ 2 ^ k)
    (exponent : Int) :
    (shiftToTargetExponent Format.binary64 significand exponent .exact).1.mantissa ≤ significand ∧
      (shiftToTargetExponent Format.binary64 significand exponent .exact).2 ≤
        max exponent (max (k + exponent - 52) (-1074)) := by
  refine ⟨mantissa_shiftRight_le _ _, ?_⟩
  have bits : significand.log2 ≤ k := by
    rw [Nat.log2_eq_log_two]
    calc Nat.log 2 significand ≤ Nat.log 2 (2 ^ k) := Nat.log_mono_right bound
      _ = k := Nat.log_pow Nat.one_lt_two k
  have target : Format.binary64.targetExponent (totalExponent significand exponent) =
      max (significand.log2 + 1 + exponent - 53) (-1074) := rfl
  simp only [shiftToTargetExponent, shiftToExponent, target]
  omega

/-- A significand of fewer than 200 bits is rounded to zero or to a float whose exponent is not
large. -/
theorem exponent_round_le {significand : Nat} (bound : significand < 2 ^ 200) {exponent : Int}
    (whole : exponent ≤ 0) (sign : Sign) :
    roundWithAccuracy Format.binary64 sign significand exponent .exact = .zero sign ∨
      ∃ significand' exponent' pos,
        roundWithAccuracy Format.binary64 sign significand exponent .exact =
          .finite sign significand' exponent' pos ∧ exponent' ≤ 900 := by
  have first := shiftToTargetExponent_le (Nat.le_of_lt bound) exponent
  rw [roundWithAccuracy]
  generalize shiftToTargetExponent Format.binary64 significand exponent .exact = shifted at first ⊢
  obtain ⟨mantissa, exponent₁⟩ := shifted
  simp only at first ⊢
  have rounded : mantissa.roundedMantissa ≤ 2 ^ 200 := by
    have := roundedMantissa_le mantissa
    omega
  have second := shiftToTargetExponent_le rounded exponent₁
  generalize
    shiftToTargetExponent Format.binary64 mantissa.roundedMantissa exponent₁ .exact = shifted
    at second ⊢
  obtain ⟨mantissa', exponent₂⟩ := shifted
  simp only at second ⊢
  split
  · exact .inl rfl
  · rename_i nonzero
    exact .inr ⟨_, _, Nat.pos_of_ne_zero nonzero, rfl, by omega⟩

/-- A positive integer below 2^64 is rounded after a move to the left by at most 52 places. -/
theorem round_eq_roundWithAccuracy {n : Nat} (bound : n < 2 ^ 64) :
    ∃ significand exponent, significand < 2 ^ 200 ∧ exponent ≤ 0 ∧
      UnpackedFloat.round Format.binary64 .positive n 0 =
        roundWithAccuracy Format.binary64 .positive significand exponent .exact := by
  have target : -52 ≤ Format.binary64.targetExponent (totalExponent n 0) :=
    Int.le_trans (by omega) (Int.le_max_left (n.log2 + 1 + 0 - 53) (-1074))
  refine ⟨_, _, ?_, ?_, rfl⟩
  · rw [Nat.shiftLeft_eq]
    generalize places : (0 - Format.binary64.targetExponent (totalExponent n 0)).toNat = k
    have few : k ≤ 52 := by omega
    calc n * 2 ^ k ≤ n * 2 ^ 52 := Nat.mul_le_mul_left n (Nat.pow_le_pow_right (by omega) few)
      _ < 2 ^ 200 := by omega
  · omega

/-- The float of a 64-bit integer is finite. -/
theorem isFinite_toFloat (n : UInt64) : n.toFloat.isFinite = true := by
  -- The conversion rounds the integer with exponent 0 and packs it; zero is not rounded.
  have unfolded : n.toFloat.isFinite = (UnpackedFloat.unpack Format.binary64
      (UnpackedFloat.pack Format.binary64
        (UnpackedFloat.normalize Format.binary64 n.toNat 0 .positive))).isFinite := rfl
  rw [unfolded]
  rcases Nat.eq_zero_or_pos n.toNat with zero | pos
  · rw [zero]
    exact isFinite_unpack (by decide)
  · have normalized : UnpackedFloat.normalize Format.binary64 n.toNat 0 .positive =
        UnpackedFloat.round Format.binary64 .positive n.toNat 0 := by
      rw [UnpackedFloat.normalize, Int.compare_eq_gt.2 (by omega)]
      rfl
    obtain ⟨significand, exponent, bound, whole, rounded⟩ :=
      round_eq_roundWithAccuracy n.toNat_lt
    rw [normalized, rounded]
    obtain zero | ⟨_, _, _, finite, small⟩ := exponent_round_le bound whole .positive
    · rw [zero]
      exact isFinite_unpack (by decide)
    · rw [finite]
      exact isFinite_pack small

end BraceTemplate.Decimal
