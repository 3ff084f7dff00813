import Flowchart.Proofs.Float
import Mathlib.Algebra.Group.Int.Defs
import Mathlib.Data.Nat.Basic
import Mathlib.Order.Basic
/-! Floating point without infinities. Whole numbers that fit into a machine word are finite, and
sums and products of finite numbers are numbers, though perhaps infinite ones. -/
namespace Flowchart
open Float.Model (UnpackedFloat Format)

namespace Unpacked
open Float.Model.UnpackedFloat (Accuracy ExtendedMantissa Sign)

variable {f g : UnpackedFloat} {mantissa limit : ℕ} {exponent : ℤ} {sign : Sign}
variable {accuracy : Accuracy}

/-- Finite, with an exponent up to a limit. -/
def Below (limit : ℕ) : UnpackedFloat → Prop
  | .zero _ => True
  | .finite _ _ exponent _ => exponent ≤ limit
  | .infinity _ => False
  | .notANumber => False

section Round

theorem mantissa_shift_le (m : ExtendedMantissa) (n : ℕ) : (m >>> n).mantissa ≤ m.mantissa := by
  change (n.repeat ExtendedMantissa.shiftRightOne m).mantissa ≤ m.mantissa
  induction n with
  | zero => exact le_rfl
  | succ n ih => exact (Nat.div_le_self _ 2).trans ih

theorem roundedMantissa_le (m : ExtendedMantissa) : m.roundedMantissa ≤ m.mantissa + 1 := by
  obtain ⟨mantissa, half, rest⟩ := m
  have parity : mantissa % 2 ≤ 1 := Nat.le_of_lt_succ (Nat.mod_lt mantissa (by decide))
  cases half <;> cases rest
  · exact Nat.le_succ _
  · exact Nat.le_succ _
  · exact Nat.add_le_add_left parity mantissa
  · exact le_rfl

theorem mantissa_ofMantissaAndAccuracy (mantissa : ℕ) (accuracy : Accuracy) :
    (ExtendedMantissa.ofMantissaAndAccuracy mantissa accuracy).mantissa = mantissa := by
  cases accuracy with
  | exact => rfl
  | inexact order => cases order <;> rfl

/-- Rounding shifts a mantissa at most by its length, and by its length again where it overflows. -/
theorem below_roundWithAccuracy (bits room : ℕ) (short : mantissa < 2 ^ bits)
    (low : exponent ≤ room) : Below (room + 2 * bits + 1)
      (UnpackedFloat.roundWithAccuracy .binary64 sign mantissa exponent accuracy) := by
  have length {m k : ℕ} (less : m < 2 ^ (k + 1)) : m.log2 ≤ k := by
    rcases Nat.eq_zero_or_pos m with rfl | positive
    · exact Nat.zero_le k
    · exact Nat.lt_succ_iff.mp ((Nat.log2_lt positive.ne').mpr less)
  let first := UnpackedFloat.shiftToTargetExponent .binary64 mantissa exponent accuracy
  have kept : first.1.mantissa ≤ mantissa := by
    rw [← mantissa_ofMantissaAndAccuracy mantissa accuracy]
    exact mantissa_shift_le _ _
  have before : mantissa.log2 ≤ bits := length (short.trans (by rw [pow_succ]; omega))
  have after : first.1.roundedMantissa.log2 ≤ bits := by
    refine length ?_
    have rounded := roundedMantissa_le first.1
    rw [pow_succ]
    omega
  have shifted : first.2 = max exponent (max (mantissa.log2 + 1 + exponent - 53) (-1074)) := by
    change exponent + ((max (mantissa.log2 + 1 + exponent - 53) (-1074) - exponent).toNat : ℤ) = _
    omega
  have last : (UnpackedFloat.shiftToTargetExponent .binary64 first.1.roundedMantissa first.2
      .exact).2 ≤ room + 2 * bits + 1 := by
    change first.2 +
      ((max (first.1.roundedMantissa.log2 + 1 + first.2 - 53) (-1074) - first.2).toNat : ℤ) ≤ _
    omega
  unfold UnpackedFloat.roundWithAccuracy
  dsimp only
  rw [apply_dite (Below (room + 2 * bits + 1))]
  exact dite_prop_iff_and.mpr ⟨fun _ => trivial, fun _ => last⟩

theorem isNaN_round (format : Format) :
    (UnpackedFloat.round format sign mantissa exponent).isNaN = false :=
  isNaN_roundWithAccuracy ..

end Round

section Pack

theorem exponent_pack_le (below : Below limit f) (small : limit < 972) :
    (UnpackedFloat.unpackExponent (UnpackedFloat.pack .binary64 f)).toNat ≤ limit + 1075 := by
  cases f with
  | notANumber => exact below.elim
  | infinity sign => exact below.elim
  | zero sign =>
      have none : UnpackedFloat.unpackExponent (UnpackedFloat.pack .binary64 (.zero sign)) = 0 :=
        UnpackedFloat.unpackExponent_packComponents
      rw [none]
      exact Nat.zero_le _
  | finite sign mantissa exponent positive =>
      change exponent ≤ limit at below
      obtain ⟨beyond, -⟩ | ⟨-, least⟩ := pack_finite .binary64 sign exponent positive
      · change 2048 ≤ (exponent + 1023 + 52).toNat + 1 at beyond
        omega
      · refine least.trans ?_
        change (exponent + 1023 + 52).toNat ≤ limit + 1075
        omega

theorem below_unpack {b : BitVec Format.binary64.numBits}
    (small : (UnpackedFloat.unpackExponent b).toNat ≤ limit + 1075) (finite : limit < 972) :
    Below limit (UnpackedFloat.unpack .binary64 b) := by
  have ordinary : UnpackedFloat.unpackExponent b ≠ -1#11 := by
    intro full
    rw [full] at small
    change 2047 ≤ limit + 1075 at small
    omega
  have unpacked := unpacks .binary64 b
  generalize UnpackedFloat.unpack .binary64 b = f at unpacked
  cases unpacked with
  | infinity full none => exact absurd full ordinary
  | notANumber full some => exact absurd full ordinary
  | zero none => trivial
  | subnormal least positive =>
      have zero : (UnpackedFloat.unpackExponent b).toNat = 0 := congrArg BitVec.toNat least
      change ((UnpackedFloat.unpackExponent b).toNat : ℤ) - (1023 + 52) + 1 ≤ limit
      omega
  | normal positive =>
      change ((UnpackedFloat.unpackExponent b).toNat : ℤ) - (1023 + 52) ≤ limit
      omega

/-- Packing keeps what is not too large. -/
theorem below_unpack_pack (below : Below limit f) (small : limit < 972) :
    Below limit (UnpackedFloat.unpack .binary64 (UnpackedFloat.pack .binary64 f)) :=
  below_unpack (exponent_pack_le below small) small

theorem mantissa_unpack_lt {b : BitVec Format.binary64.numBits} {positive : 0 < mantissa}
    (same : UnpackedFloat.unpack .binary64 b = .finite sign mantissa exponent positive) :
    mantissa < 2 ^ 53 := by
  have unpacked := unpacks .binary64 b
  rw [same] at unpacked
  cases unpacked with
  | subnormal least positive => exact (BitVec.isLt _).trans (by decide)
  | normal positive => exact BitVec.isLt _

end Pack

section Operations

theorem below_ofNat {n : ℕ} (word : n < 2 ^ 64) :
    Below 235 (UnpackedFloat.ofNat .binary64 n) := by
  unfold UnpackedFloat.ofNat UnpackedFloat.ofInt UnpackedFloat.normalize
  split
  · next less =>
    rw [Int.compare_eq_lt] at less
    omega
  · trivial
  · unfold UnpackedFloat.round UnpackedFloat.decreaseExponent
    simp only [Int.toNat_natCast]
    have shift : ((0 : ℤ) - Format.binary64.targetExponent
        (Float.Model.totalExponent n 0)).toNat ≤ 52 := by
      change ((0 : ℤ) - max ((n.log2 : ℤ) + 1 + 0 - 53) (-1074)).toNat ≤ 52
      omega
    refine below_roundWithAccuracy 117 0 ?_ (by omega)
    rw [Nat.shiftLeft_eq]
    calc _ < 2 ^ 64 * 2 ^ 52 := by
          exact Nat.mul_lt_mul_of_lt_of_le word (Nat.pow_le_pow_right (by decide) shift) (by decide)
      _ ≤ 2 ^ 117 := by decide

theorem below_ofScientific {n : ℕ} (word : n < 2 ^ 64) :
    Below 235 (UnpackedFloat.ofScientific .binary64 n 0) := by
  unfold UnpackedFloat.ofScientific
  by_cases none : n = 0
  · rw [dif_pos none]
    trivial
  · have enough : ¬ (0 : ℤ) < -(2 ^ 11 + n.log2) := by omega
    rw [dif_neg none, if_neg (by decide), if_neg enough, if_pos (by decide)]
    unfold UnpackedFloat.mul
    dsimp only
    have width : Format.binary64.mantissaBits = 53 := rfl
    rw [width, Int.toNat_zero, Nat.shiftLeft_eq]
    refine below_roundWithAccuracy 117 0 ?_ ?_
    · omega
    · omega

theorem isNaN_mul_finite (format : Format) (first : f.isFinite = true)
    (second : g.isFinite = true) : (UnpackedFloat.mul format f g).isNaN = false := by
  cases f <;> cases g <;> cases first <;> cases second
  · rfl
  · rfl
  · rfl
  · exact Unpacked.isNaN_mul format rfl

theorem isNaN_add_finite (format : Format) (first : f.isNaN = false) (second : g.isFinite = true) :
    (UnpackedFloat.add format f g).isNaN = false := by
  cases g with
  | notANumber => cases second
  | infinity sign => cases second
  | zero sign =>
      cases f with
      | notANumber => cases first
      | infinity sign => rfl
      | zero sign => unfold UnpackedFloat.add; dsimp only; split <;> rfl
      | finite sign mantissa exponent positive => rfl
  | finite sign mantissa exponent positive =>
      cases f with
      | notANumber => cases first
      | infinity sign => rfl
      | zero sign => rfl
      | finite sign mantissa exponent positive =>
          unfold UnpackedFloat.add UnpackedFloat.normalize
          dsimp only
          split
          · exact isNaN_round format
          · rfl
          · exact isNaN_round format

end Operations
end Unpacked

section Float
variable {x y : Float} {n : ℕ}

theorem finite_of_below (limit : ℕ) (below : Unpacked.Below limit x.toModel.unpack) :
    x.isFinite = true := by
  change x.toModel.unpack.isFinite = true
  cases unpacked : x.toModel.unpack with
  | notANumber => rw [unpacked] at below; exact below.elim
  | infinity sign => rw [unpacked] at below; exact below.elim
  | zero sign => rfl
  | finite sign mantissa exponent positive => rfl

/-- Whole numbers up to the precision are read as words and multiplied by one. -/
theorem ofNat_of_short (short : n < 2 ^ 53) :
    Float.ofNat n = n.toUInt64.toFloat * Float.ofBits 0x3FF0000000000000 := by
  change Float.ofScientific n false 0 = _
  unfold Float.ofScientific
  rw [dif_pos ⟨short, by decide⟩]
  rfl

theorem ofNat_of_long (long : ¬ n < 2 ^ 53) :
    (Float.ofNat n).toModel = .pack (UnpackedFloat.ofScientific .binary64 n 0) := by
  change (Float.ofScientific n false 0).toModel = _
  unfold Float.ofScientific
  rw [dif_neg (fun both => long both.1)]
  rfl

/-- A whole number that fits into a machine word is finite. -/
theorem finite_ofNat (word : n < 2 ^ 64) : (Float.ofNat n).isFinite = true := by
  by_cases short : n < 2 ^ 53
  · have whole : Unpacked.Below 235 n.toUInt64.toFloat.toModel.unpack :=
      Unpacked.below_unpack_pack (Unpacked.below_ofNat n.toUInt64.toNat_lt) (by decide)
    rw [ofNat_of_short short]
    refine finite_of_below 446 (Unpacked.below_unpack_pack ?_ (by decide))
    change Unpacked.Below 446 (UnpackedFloat.mul .binary64 n.toUInt64.toFloat.toModel.unpack
      (.finite .positive (2 ^ 52) (-52) (by decide)))
    cases unpacked : n.toUInt64.toFloat.toModel.unpack with
    | notANumber => rw [unpacked] at whole; exact whole.elim
    | infinity sign => rw [unpacked] at whole; exact whole.elim
    | zero sign => trivial
    | finite sign mantissa exponent positive =>
        rw [unpacked] at whole
        change exponent ≤ 235 at whole
        have less := Unpacked.mantissa_unpack_lt unpacked
        exact Unpacked.below_roundWithAccuracy 105 235 (by omega) (by omega)
  · refine finite_of_below 235 ?_
    change Unpacked.Below 235 (.unpack .binary64 (Float.ofNat n).toModel.toBits.toBitVec)
    rw [ofNat_of_long short]
    exact Unpacked.below_unpack_pack (Unpacked.below_ofScientific word) (by decide)

theorem number_mul_finite (first : x.isFinite = true) (second : y.isFinite = true) :
    (x * y).isNaN = false :=
  @Unpacked.isNaN_unpack_pack _ .binary64 (Unpacked.isNaN_mul_finite _ first second)

theorem number_add_finite (first : x.isNaN = false) (second : y.isFinite = true) :
    (x + y).isNaN = false :=
  @Unpacked.isNaN_unpack_pack _ .binary64 (Unpacked.isNaN_add_finite _ first second)

end Float
end Flowchart
