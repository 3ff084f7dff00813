import Flowchart.Proofs.Float
import Mathlib.Algebra.Ring.Int.Defs
import Mathlib.Data.Prod.Lex
/-! The order of floating point numbers. All values but NaN have a key in a linear order, and
comparing them is comparing their keys. -/
namespace Flowchart
open Float.Model (UnpackedFloat)

namespace Unpacked

variable {f g : UnpackedFloat}

/-- Infinities lie outermost, and zeros between the finite numbers of both signs. Of these the
exponent counts before the mantissa, and backwards for negative ones. -/
def key : UnpackedFloat → ℤ ×ₗ ℤ ×ₗ ℤ
  | .infinity .negative => toLex (-2, toLex (0, 0))
  | .finite .negative mantissa exponent _ => toLex (-1, toLex (-exponent, -mantissa))
  | .zero _ => toLex (0, toLex (0, 0))
  | .finite .positive mantissa exponent _ => toLex (1, toLex (exponent, mantissa))
  | .infinity .positive => toLex (2, toLex (0, 0))
  | .notANumber => toLex (3, toLex (0, 0))

theorem compare_neg (a b : ℤ) : compare (-a) (-b) = (compare a b).swap := by
  rw [← Std.OrientedOrd.eq_swap]
  change compareOfLessAndEq (-a) (-b) = compareOfLessAndEq b a
  simp only [compareOfLessAndEq, Int.neg_lt_neg_iff, neg_inj, eq_comm]

theorem compare_natCast (m n : ℕ) : compare (m : ℤ) (n : ℤ) = compare m n := by
  change compareOfLessAndEq (m : ℤ) n = compareOfLessAndEq m n
  simp only [compareOfLessAndEq, Int.ofNat_lt, Int.natCast_inj]

theorem compare_finite (kind e k m n : ℤ) :
    compare (toLex (kind, toLex (e, m))) (toLex (kind, toLex (k, n))) =
      (compare e k).then (compare m n) := by
  simp only [Prod.Lex.compare_def, compareLex, compareOn, ofLex_toLex, Std.ReflOrd.compare_self,
    Ordering.then]

theorem compare_eq_key (first : f.isNaN = false) (second : g.isNaN = false) :
    f.compare g = some (compare (key f) (key g)) := by
  cases f with
  | notANumber => cases first
  | infinity s =>
      cases g with
      | notANumber => cases second
      | infinity t => cases s <;> cases t <;> rfl
      | zero t => cases s <;> rfl
      | finite t n k _ => cases s <;> cases t <;> rfl
  | zero s =>
      cases g with
      | notANumber => cases second
      | infinity t => cases t <;> rfl
      | zero t => rfl
      | finite t n k _ => cases t <;> rfl
  | finite s m e _ =>
      cases g with
      | notANumber => cases second
      | infinity t => cases s <;> cases t <;> rfl
      | zero t => cases s <;> rfl
      | finite t n k _ =>
          cases s <;> cases t
          · refine congrArg some (Eq.trans ?_ (compare_finite (-1) (-e) (-k) (-m) (-n)).symm)
            rw [compare_neg, compare_neg, compare_natCast, ← Ordering.swap_then]
          · rfl
          · rfl
          · refine congrArg some (Eq.trans ?_ (compare_finite 1 e k m n).symm)
            rw [compare_natCast]

end Unpacked

section Float
variable {x y z low high : Float}

def floatKey (x : Float) : ℤ ×ₗ ℤ ×ₗ ℤ := Unpacked.key x.toModel.unpack

theorem compare_float (first : x.isNaN = false) (second : y.isNaN = false) :
    x.toModel.unpack.compare y.toModel.unpack = some (compare (floatKey x) (floatKey y)) :=
  Unpacked.compare_eq_key first second

theorem le_iff_floatKey :
    x ≤ y ↔ x.isNaN = false ∧ y.isNaN = false ∧ floatKey x ≤ floatKey y := by
  have compared : x ≤ y ↔ (x.toModel.unpack.compare y.toModel.unpack).any (·.isLE) = true :=
    decide_eq_true_iff
  constructor
  · intro less
    obtain ⟨first, second⟩ := numbers_of_le less
    rw [compared, compare_float first second] at less
    exact ⟨first, second, compare_le_iff_le.mp (Ordering.isLE_iff_ne_gt.mp less)⟩
  · rintro ⟨first, second, less⟩
    rw [compared, compare_float first second]
    exact Ordering.isLE_iff_ne_gt.mpr (compare_le_iff_le.mpr less)

theorem lt_iff_floatKey (first : x.isNaN = false) (second : y.isNaN = false) :
    x < y ↔ floatKey x < floatKey y := by
  have compared : x < y ↔ (x.toModel.unpack.compare y.toModel.unpack == some .lt) = true :=
    decide_eq_true_iff
  rw [compared, compare_float first second, beq_iff_eq, Option.some.injEq, compare_lt_iff_lt]

theorem beq_iff_floatKey (first : x.isNaN = false) (second : y.isNaN = false) :
    (x == y) = true ↔ floatKey x = floatKey y := by
  have compared : (x == y) = true ↔
      (x.toModel.unpack.compare y.toModel.unpack == some .eq) = true := .rfl
  rw [compared, compare_float first second, beq_iff_eq, Option.some.injEq, compare_eq_iff_eq]

theorem float_le_refl (number : x.isNaN = false) : x ≤ x :=
  le_iff_floatKey.mpr ⟨number, number, le_rfl⟩

theorem float_le_trans (less : x ≤ y) (later : y ≤ z) : x ≤ z := by
  obtain ⟨first, -, below⟩ := le_iff_floatKey.mp less
  obtain ⟨-, last, above⟩ := le_iff_floatKey.mp later
  exact le_iff_floatKey.mpr ⟨first, last, below.trans above⟩

theorem float_lt_of_lt_of_le (number : x.isNaN = false) (less : x < y) (later : y ≤ z) : x < z := by
  obtain ⟨middle, last, above⟩ := le_iff_floatKey.mp later
  have below := (lt_iff_floatKey number middle).mp less
  exact (lt_iff_floatKey number last).mpr (below.trans_le above)

theorem float_le_of_not_lt (first : x.isNaN = false) (second : y.isNaN = false)
    (above : ¬ x < y) : y ≤ x := by
  rw [lt_iff_floatKey first second, not_lt] at above
  exact le_iff_floatKey.mpr ⟨second, first, above⟩

theorem beq_eq_false_of_float_lt (first : x.isNaN = false) (second : y.isNaN = false)
    (less : x < y) : (y == x) = false := by
  rw [← Bool.not_eq_true, beq_iff_floatKey second first]
  exact ((lt_iff_floatKey first second).mp less).ne'

/-- The larger of two numbers is no smaller than the second, also beside a NaN. -/
theorem float_le_greatest (number : y.isNaN = false) : y ≤ greatest x y := by
  unfold greatest
  split
  · exact float_le_refl number
  · next above =>
    split
    · next same => exact float_le_of_not_lt (beq_self_iff_number.mp same) number above
    · exact float_le_refl number

section Bounds
variable (ordered : low ≤ high)
include ordered

/-- A number is brought within the bounds. -/
theorem clamp_within (number : x.isNaN = false) :
    low ≤ clamp low high x ∧ clamp low high x ≤ high := by
  obtain ⟨lowest, highest⟩ := numbers_of_le ordered
  unfold clamp
  split
  · exact ⟨float_le_refl lowest, ordered⟩
  · next above =>
    split
    · exact ⟨ordered, float_le_refl highest⟩
    · next below =>
      exact ⟨float_le_of_not_lt number lowest above, float_le_of_not_lt highest number below⟩

/-- Whatever is cut off first above and then below is within the bounds, and so is a NaN. -/
theorem greatest_least_within (x : Float) :
    low ≤ greatest (least x high) low ∧ greatest (least x high) low ≤ high := by
  obtain ⟨lowest, highest⟩ := numbers_of_le ordered
  have below : least x high ≤ high := by
    unfold least
    split
    · exact float_le_refl highest
    · next above =>
      split
      · next same => exact float_le_of_not_lt highest (beq_self_iff_number.mp same) above
      · exact float_le_refl highest
  have number := (numbers_of_le below).1
  unfold greatest
  split
  · exact ⟨float_le_refl lowest, ordered⟩
  · next above =>
    rw [if_pos (beq_self_iff_number.mpr number)]
    exact ⟨float_le_of_not_lt number lowest above, below⟩

end Bounds
end Float
end Flowchart
