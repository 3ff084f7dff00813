import Flowchart.Layout.Placement
import Mathlib.Algebra.BigOperators.Group.List.Basic
import Mathlib.Algebra.Order.Field.Rat
/-! Formulas over exact rationals. The library writes them over any number type; here they are the
usual operations. -/
namespace Flowchart

theorem greatest_eq_max (a b : Rat) : greatest a b = max a b := by
  by_cases less : a < b
  · rw [max_eq_right less.le]
    exact if_pos less
  · rw [max_eq_left (not_lt.mp less)]
    exact (if_neg less).trans (if_pos (beq_self_eq_true a))

theorem least_eq_min (a b : Rat) : least a b = min a b := by
  by_cases less : b < a
  · rw [min_eq_right less.le]
    exact if_pos less
  · rw [min_eq_left (not_lt.mp less)]
    exact (if_neg less).trans (if_pos (beq_self_eq_true a))

theorem total_eq_sum (xs : List Rat) : total xs = xs.sum := by
  rw [List.sum_eq_foldl]
  rfl

namespace Box

/-- The boxes have inner points in common. -/
def Overlaps (a b : Box Rat) : Prop :=
  a.x < b.right ∧ b.x < a.right ∧ a.y < b.bottom ∧ b.y < a.bottom

end Box

namespace Layout

theorem spreadOut_cons (width : Nat → Rat) (left : Rat) (id : Nat) (ids : List Nat) :
    spreadOut width left (id :: ids) =
      (id, left + width id / 2) :: spreadOut width (left + width id) ids := rfl

theorem pushedCenter_some (gap wanted left width : Rat) (n : Node Rat) :
    pushedCenter gap wanted (some (left, width)) n =
      if wanted - left < width / 2 + n.box.width / 2 + gap
        then left + (width / 2 + n.box.width / 2 + gap) else wanted := rfl

theorem packRow_cons (gap : Rat) (center : Nat → Rat) (previous : Option (Rat × Rat)) (i : Nat)
    (n : Node Rat) (row : List (Nat × Node Rat)) :
    packRow gap center previous ((i, n) :: row) =
      (i, pushedCenter gap (center n.id) previous n - n.box.width / 2) ::
        packRow gap center (some (pushedCenter gap (center n.id) previous n, n.box.width)) row :=
  rfl

end Layout
end Flowchart
