import Flowchart.Scalar.Float
import Mathlib.Algebra.Group.Nat.Defs
/-! Floating point without NaN: what computing the scale of a view needs to stay a number. -/
namespace Flowchart
open Float.Model (UnpackedFloat Format)

namespace Unpacked

variable {f g : UnpackedFloat}

/-- What bits are unpacked to. An exponent without a zero stands for no finite number, and one
without a one for zero and the numbers next to it. -/
inductive Unpacks (format : Format) (b : BitVec format.numBits) : UnpackedFloat → Prop
  | infinity {sign : UnpackedFloat.Sign} (full : UnpackedFloat.unpackExponent b = -1#_)
      (none : UnpackedFloat.unpackMantissa b = 0#_) : Unpacks format b (.infinity sign)
  | notANumber (full : UnpackedFloat.unpackExponent b = -1#_)
      (some : UnpackedFloat.unpackMantissa b ≠ 0#_) : Unpacks format b .notANumber
  | zero {sign : UnpackedFloat.Sign} (none : UnpackedFloat.unpackMantissa b = 0#_) :
      Unpacks format b (.zero sign)
  | subnormal {sign : UnpackedFloat.Sign} (least : UnpackedFloat.unpackExponent b = 0#_)
      (positive : 0 < (UnpackedFloat.unpackMantissa b).toNat) :
      Unpacks format b (.finite sign _
        ((UnpackedFloat.unpackExponent b).toNat -
          (format.exponentBias + format.mantissaBitsWithoutImplicit) + 1) positive)
  | normal {sign : UnpackedFloat.Sign}
      (positive : 0 < (1#1 ++ UnpackedFloat.unpackMantissa b).toNat) :
      Unpacks format b (.finite sign _
        ((UnpackedFloat.unpackExponent b).toNat -
          (format.exponentBias + format.mantissaBitsWithoutImplicit)) positive)

theorem unpacks (format : Format) (b : BitVec format.numBits) :
    Unpacks format b (UnpackedFloat.unpack format b) := by
  unfold UnpackedFloat.unpack
  dsimp only
  by_cases full : UnpackedFloat.unpackExponent b = -1#_
  · rw [if_pos full]
    by_cases none : UnpackedFloat.unpackMantissa b = 0#_
    · rw [if_pos none]
      exact .infinity full none
    · rw [if_neg none]
      exact .notANumber full none
  · rw [if_neg full]
    by_cases least : UnpackedFloat.unpackExponent b = 0#_
    · rw [if_pos least]
      by_cases none : UnpackedFloat.unpackMantissa b = 0#_
      · rw [dif_pos none]
        exact .zero none
      · rw [dif_neg none]
        exact .subnormal least _
    · rw [if_neg least]
      exact .normal _

/-- The bits of a NaN: all of the exponent, and some of the mantissa. -/
theorem bits_of_isNaN {format : Format} {b : BitVec format.numBits}
    (nan : (UnpackedFloat.unpack format b).isNaN = true) :
    UnpackedFloat.unpackExponent b = -1#_ ∧ UnpackedFloat.unpackMantissa b ≠ 0#_ := by
  have unpacked := unpacks format b
  generalize UnpackedFloat.unpack format b = f at nan unpacked
  cases unpacked with
  | notANumber full some => exact ⟨full, some⟩
  | infinity full none => cases nan
  | zero none => cases nan
  | subnormal least positive => cases nan
  | normal positive => cases nan

/-- A finite number is packed as an infinity, or with a smaller exponent. -/
theorem pack_finite (format : Format) (sign : UnpackedFloat.Sign) {mantissa : Nat} (exponent : Int)
    (positive : 0 < mantissa) :
    let biased := (exponent + format.exponentBias + format.mantissaBitsWithoutImplicit).toNat
    let packed := UnpackedFloat.pack format (.finite sign mantissa exponent positive)
    (2 ^ format.exponentBits ≤ biased + 1 ∧ UnpackedFloat.unpackMantissa packed = 0#_) ∨
      (biased + 1 < 2 ^ format.exponentBits ∧
        (UnpackedFloat.unpackExponent packed).toNat ≤ biased) := by
  intro biased packed
  by_cases beyond : 2 ^ format.exponentBits ≤ biased + 1
  · have infinite : packed = UnpackedFloat.packedInfinity format sign := if_pos beyond
    rw [infinite]
    exact .inl ⟨beyond, UnpackedFloat.unpackMantissa_packComponents⟩
  · have finite : packed = if mantissa.log2 + 1 = format.mantissaBits then
        UnpackedFloat.packComponents format sign (.ofNat _ biased) (.ofNat _ mantissa)
      else UnpackedFloat.packComponents format sign 0#_ (.ofNat _ mantissa) := if_neg beyond
    refine .inr ⟨Nat.lt_of_not_le beyond, ?_⟩
    rw [finite]
    split
    · rw [UnpackedFloat.unpackExponent_packComponents, BitVec.toNat_ofNat]
      exact Nat.mod_le _ _
    · rw [UnpackedFloat.unpackExponent_packComponents]
      exact Nat.zero_le _

/-- Packing makes no NaN. -/
theorem isNaN_unpack_pack {format : Format} (number : f.isNaN = false) :
    (UnpackedFloat.unpack format (UnpackedFloat.pack format f)).isNaN = false := by
  rw [← Bool.not_eq_true]
  intro packed
  obtain ⟨full, some⟩ := bits_of_isNaN packed
  cases f with
  | notANumber => cases number
  | infinity sign => exact some UnpackedFloat.unpackMantissa_packComponents
  | zero sign => exact some UnpackedFloat.unpackMantissa_packComponents
  | finite sign mantissa exponent positive =>
      obtain ⟨-, none⟩ | ⟨within, least⟩ := pack_finite format sign exponent positive
      · exact some none
      · rw [full, BitVec.neg_one_eq_allOnes, BitVec.toNat_allOnes] at least
        omega

theorem isNaN_of_compare {order : Ordering} (ordered : f.compare g = some order) :
    f.isNaN = false ∧ g.isNaN = false := by
  constructor
  · cases f with
    | notANumber => cases ordered
    | _ => rfl
  · cases g with
    | notANumber => cases f <;> cases ordered
    | _ => rfl

theorem beq_self (f : UnpackedFloat) : f.beq f = !f.isNaN := by
  cases f with
  | notANumber => rfl
  | infinity sign => cases sign <;> rfl
  | zero sign => rfl
  | finite sign mantissa exponent positive =>
      have same : (compare exponent exponent).then (compare mantissa mantissa) = .eq := by
        rw [Std.ReflOrd.compare_self, Std.ReflOrd.compare_self]
        rfl
      cases sign
      · exact beq_iff_eq.mpr (congrArg (some ∘ Ordering.swap) same)
      · exact beq_iff_eq.mpr (congrArg some same)

/-- Rounding ends with zero or a finite number. -/
theorem isNaN_roundWithAccuracy (format : Format) (sign : UnpackedFloat.Sign) (mantissa : Nat)
    (exponent : Int) (accuracy : UnpackedFloat.Accuracy) :
    (UnpackedFloat.roundWithAccuracy format sign mantissa exponent accuracy).isNaN = false := by
  unfold UnpackedFloat.roundWithAccuracy
  dsimp only
  exact (apply_dite UnpackedFloat.isNaN _ _ _).trans (dite_eq_right_iff.mpr fun _ => rfl)

/-- A product with a finite number other than zero is a number. -/
theorem isNaN_mul (format : Format) {sign : UnpackedFloat.Sign} {mantissa : Nat} {exponent : Int}
    {positive : 0 < mantissa} (number : f.isNaN = false) :
    (UnpackedFloat.mul format f (.finite sign mantissa exponent positive)).isNaN = false := by
  cases f with
  | notANumber => cases number
  | infinity sign => rfl
  | zero sign => rfl
  | finite sign mantissa exponent positive => exact isNaN_roundWithAccuracy ..

end Unpacked

section Float
variable {x y low high : Float}

theorem beq_self_iff_number : (x == x) = true ↔ x.isNaN = false := by
  change x.toModel.unpack.beq x.toModel.unpack = true ↔ x.toModel.unpack.isNaN = false
  rw [Unpacked.beq_self, Bool.not_eq_true']

theorem numbers_of_le (less : x ≤ y) : x.isNaN = false ∧ y.isNaN = false := by
  have ordered : (x.toModel.unpack.compare y.toModel.unpack).any (·.isLE) = true :=
    of_decide_eq_true less
  cases compared : x.toModel.unpack.compare y.toModel.unpack with
  | none => rw [compared] at ordered; cases ordered
  | some order => exact Unpacked.isNaN_of_compare compared

theorem number_mul (number : x.isNaN = false) (finite : y.isFinite = true) (positive : 0 < y) :
    (x * y).isNaN = false := by
  have zero : (0 : Float).toModel.unpack = .zero .positive := by rfl
  have ordered : (0 : Float).toModel.unpack.compare y.toModel.unpack = some .lt :=
    beq_iff_eq.mp (of_decide_eq_true positive)
  change y.toModel.unpack.isFinite = true at finite
  refine @Unpacked.isNaN_unpack_pack _ Format.binary64 ?_
  cases unpacked : y.toModel.unpack with
  | infinity sign => rw [unpacked] at finite; cases finite
  | notANumber => rw [unpacked] at finite; cases finite
  | zero sign => rw [unpacked, zero] at ordered; cases ordered
  | finite sign mantissa exponent positive => exact Unpacked.isNaN_mul _ number

theorem number_greatest (number : y.isNaN = false) : (greatest x y).isNaN = false := by
  unfold greatest
  split
  · exact number
  · split
    · next same => exact beq_self_iff_number.mp same
    · exact number

theorem number_clamp (lowest : low.isNaN = false) (highest : high.isNaN = false)
    (number : x.isNaN = false) : (clamp low high x).isNaN = false := by
  unfold clamp
  split
  · exact lowest
  · split
    · exact highest
    · exact number

end Float
end Flowchart
