import Flowchart.Viewport
import Flowchart.Proofs.Box
import Mathlib.Tactic.FieldSimp
import Mathlib.Tactic.Linarith
import Mathlib.Tactic.NormNum
/-! The view over exact rationals. Screen and logical points are images of each other. Zooming keeps
the logical point under its anchor, however often the scale is clamped on the way, and fitting puts
the center of a box on the center of the surface. -/
namespace Flowchart

theorem clamp_eq_max_min {low high : Rat} (ordered : low ≤ high) (a : Rat) :
    clamp low high a = max low (min a high) := by
  by_cases below : a < low
  · rw [min_eq_left (below.le.trans ordered), max_eq_left below.le]
    exact if_pos below
  · refine (if_neg below).trans ?_
    by_cases above : high < a
    · rw [min_eq_right above.le, max_eq_right ordered]
      exact if_pos above
    · rw [min_eq_left (not_lt.mp above), max_eq_right (not_lt.mp below)]
      exact if_neg above

namespace Viewport

section Images
variable {v : Viewport Rat}

theorem toScreen_toLogical (scaled : v.scale ≠ 0) (p : Point Rat) :
    v.toScreen (v.toLogical p) = p := by
  have there : ∀ a offset : Rat, (a - offset) / v.scale * v.scale + offset = a := by
    intro a offset
    rw [div_mul_cancel₀ _ scaled, sub_add_cancel]
  exact congrArg₂ Point.mk (there p.x v.offsetX) (there p.y v.offsetY)

theorem toLogical_toScreen (scaled : v.scale ≠ 0) (p : Point Rat) :
    v.toLogical (v.toScreen p) = p := by
  have back : ∀ a offset : Rat, (a * v.scale + offset - offset) / v.scale = a := by
    intro a offset
    rw [add_sub_cancel_right, mul_div_cancel_right₀ _ scaled]
  exact congrArg₂ Point.mk (back p.x v.offsetX) (back p.y v.offsetY)

end Images

section Zooming
variable {v : Viewport Rat} {anchor : Point Rat} {factor : Rat}

/-- The view after a call to zoom, whether the call changes it or not. -/
def zoomed (anchor : Point Rat) (v : Viewport Rat) (factor : Rat) : Viewport Rat :=
  (v.zoomAt? factor anchor).getD v

/-- The view with another scale that shows the same logical point under the anchor. -/
def rescaled (anchor : Point Rat) (v : Viewport Rat) (scale : Rat) : Viewport Rat :=
  { v with
    scale
    offsetX := anchor.x - (v.toLogical anchor).x * scale
    offsetY := anchor.y - (v.toLogical anchor).y * scale }

def clampedScale (v : Viewport Rat) (factor : Rat) : Rat := max 0.1 (min (v.scale * factor) 5)

theorem clamp_scale (v : Viewport Rat) (factor : Rat) :
    clamp minScale maxScale (v.scale * factor) = v.clampedScale factor :=
  clamp_eq_max_min (by norm_num [minScale, maxScale]) _

theorem zoomAt?_eq (anchor : Point Rat) (v : Viewport Rat) (factor : Rat) :
    v.zoomAt? factor anchor =
      if v.clampedScale factor = v.scale then none
      else some (rescaled anchor v (v.clampedScale factor)) := by
  rw [← clamp_scale]
  simp only [zoomAt?, beq_iff_eq]
  rfl

theorem toLogical_rescaled {scale : Rat} (scaled : scale ≠ 0) :
    (rescaled anchor v scale).toLogical anchor = v.toLogical anchor := by
  have same : ∀ a b : Rat, (a - (a - b * scale)) / scale = b := by
    intro a b
    rw [sub_sub_cancel, mul_div_cancel_right₀ _ scaled]
  exact congrArg₂ Point.mk (same _ _) (same _ _)

theorem clampedScale_within (v : Viewport Rat) (factor : Rat) :
    0.1 ≤ v.clampedScale factor ∧ v.clampedScale factor ≤ 5 :=
  ⟨le_max_left _ _, max_le (by norm_num) (min_le_right _ _)⟩

theorem zoomed_eq (anchor : Point Rat) (v : Viewport Rat) (factor : Rat) :
    zoomed anchor v factor =
      if v.clampedScale factor = v.scale then v
      else rescaled anchor v (v.clampedScale factor) := by
  rw [zoomed, zoomAt?_eq]
  split <;> rfl

theorem scale_zoomed (anchor : Point Rat) (v : Viewport Rat) (factor : Rat) :
    (zoomed anchor v factor).scale = v.clampedScale factor := by
  rw [zoomed_eq]
  split
  · next same => exact same.symm
  · rfl

theorem scale_zoomed_pos (anchor : Point Rat) (v : Viewport Rat) (factor : Rat) :
    0 < (zoomed anchor v factor).scale := by
  rw [scale_zoomed]
  exact lt_of_lt_of_le (by norm_num) (clampedScale_within v factor).1

/-- The scale that counts is the one after clamping, so the anchor holds also where the bounds cut
the factor. -/
theorem toLogical_zoomed (anchor : Point Rat) (v : Viewport Rat) (factor : Rat) :
    (zoomed anchor v factor).toLogical anchor = v.toLogical anchor := by
  have scaled := (scale_zoomed_pos anchor v factor).ne'
  rw [scale_zoomed] at scaled
  rw [zoomed_eq]
  split
  · rfl
  · exact toLogical_rescaled scaled

theorem isSome_zoomAt? (anchor : Point Rat) (v : Viewport Rat) (factor : Rat) :
    (v.zoomAt? factor anchor).isSome = true ↔ (zoomed anchor v factor).scale ≠ v.scale := by
  rw [scale_zoomed, zoomAt?_eq]
  split
  · next same => simp [same]
  · next changed => simp [changed]

/-- The view after several calls to zoom about one anchor. -/
def zoomedBy (anchor : Point Rat) (v : Viewport Rat) (factors : List Rat) : Viewport Rat :=
  factors.foldl (zoomed anchor) v

/-- Every call leaves the logical point under the anchor where the first view had it, on a scale that
can be divided by. -/
theorem zoomedBy_steady (anchor : Point Rat) (scaled : 0 < v.scale) (factors : List Rat) :
    0 < (zoomedBy anchor v factors).scale ∧
      (zoomedBy anchor v factors).toLogical anchor = v.toLogical anchor := by
  induction factors generalizing v with
  | nil => exact ⟨scaled, rfl⟩
  | cons factor factors ih =>
      obtain ⟨positive, same⟩ := ih (scale_zoomed_pos anchor v factor)
      exact ⟨positive, same.trans (toLogical_zoomed anchor v factor)⟩

end Zooming

section Fitting
variable {v : Viewport Rat} {bounds : Box Rat}

/-- The largest scale that leaves the margin free around the box, and that is no larger than fitting
ever makes it. -/
def roomScale (v : Viewport Rat) (bounds : Box Rat) : Rat :=
  min (min ((v.width - 100) / bounds.width) ((v.height - 100) / bounds.height)) 1.5

theorem fit_eq (v : Viewport Rat) (wide : 1 ≤ bounds.width) (high : 1 ≤ bounds.height) :
    v.fit bounds =
      { v with
        scale := max (v.roomScale bounds) 0.3
        offsetX := (v.width - bounds.width * max (v.roomScale bounds) 0.3) / 2 -
          bounds.x * max (v.roomScale bounds) 0.3
        offsetY := (v.height - bounds.height * max (v.roomScale bounds) 0.3) / 2 -
          bounds.y * max (v.roomScale bounds) 0.3 } := by
  have width : greatest bounds.width 1 = bounds.width := by
    rw [greatest_eq_max, max_eq_left wide]
  have height : greatest bounds.height 1 = bounds.height := by
    rw [greatest_eq_max, max_eq_left high]
  simp only [fit, width, height, greatest_eq_max, least_eq_min]
  rfl

theorem scale_fit (wide : 1 ≤ bounds.width) (high : 1 ≤ bounds.height) :
    (v.fit bounds).scale = max (v.roomScale bounds) 0.3 := by
  rw [fit_eq v wide high]

/-- Along one axis: a stretch from `start` of the given length, centered on a surface of size `size`,
begins and ends at least 50 from its ends exactly when it is shorter by 100. -/
theorem stretch_inset_iff (start size : Rat) {length scale : Rat} (long : 0 ≤ length)
    (scaled : 0 < scale) :
    (∀ a, start ≤ a → a ≤ start + length →
      50 ≤ a * scale + ((size - length * scale) / 2 - start * scale) ∧
        a * scale + ((size - length * scale) / 2 - start * scale) ≤ size - 50) ↔
      length * scale ≤ size - 100 := by
  constructor
  · intro inset
    have first := (inset start le_rfl (le_add_of_nonneg_right long)).1
    linarith
  · intro room a after before
    have left : start * scale ≤ a * scale := mul_le_mul_of_nonneg_right after scaled.le
    have right : a * scale ≤ (start + length) * scale := mul_le_mul_of_nonneg_right before scaled.le
    rw [add_mul] at right
    constructor <;> linarith

/-- The box is seen on the surface with at least 50 free on every side. -/
def Inset (v : Viewport Rat) (bounds : Box Rat) : Prop :=
  ∀ p, bounds.contains p = true →
    (50 ≤ (v.toScreen p).x ∧ (v.toScreen p).x ≤ v.width - 50) ∧
      50 ≤ (v.toScreen p).y ∧ (v.toScreen p).y ≤ v.height - 50

theorem scale_fit_pos (wide : 1 ≤ bounds.width) (high : 1 ≤ bounds.height) :
    0 < (v.fit bounds).scale := by
  rw [scale_fit wide high]
  exact lt_of_lt_of_le (by norm_num) (le_max_right _ _)

theorem inset_fit_iff (wide : 1 ≤ bounds.width) (high : 1 ≤ bounds.height) :
    (v.fit bounds).Inset bounds ↔
      bounds.width * (v.fit bounds).scale ≤ v.width - 100 ∧
        bounds.height * (v.fit bounds).scale ≤ v.height - 100 := by
  have scaled := scale_fit_pos (v := v) wide high
  have across : 0 ≤ bounds.width := zero_le_one.trans wide
  have down : 0 ≤ bounds.height := zero_le_one.trans high
  rw [scale_fit wide high] at scaled ⊢
  rw [← stretch_inset_iff bounds.x _ across scaled, ← stretch_inset_iff bounds.y _ down scaled,
    fit_eq v wide high]
  constructor
  · intro inset
    -- the top left corner stands for the other axis
    have inside : ∀ {a b}, bounds.x ≤ a → a ≤ bounds.right → bounds.y ≤ b → b ≤ bounds.bottom →
        bounds.contains ⟨a, b⟩ = true := fun left right above below =>
      Box.contains_iff.mpr ⟨⟨left, right⟩, above, below⟩
    exact ⟨fun a left right =>
        (inset ⟨a, bounds.y⟩ (inside left right le_rfl (le_add_of_nonneg_right down))).1,
      fun b above below =>
        (inset ⟨bounds.x, b⟩ (inside le_rfl (le_add_of_nonneg_right across) above below)).2⟩
  · rintro ⟨horizontal, vertical⟩ p member
    obtain ⟨⟨left, right⟩, above, below⟩ := Box.contains_iff.mp member
    exact ⟨horizontal p.x left right, vertical p.y above below⟩

theorem le_roomScale_iff (wide : 1 ≤ bounds.width) (high : 1 ≤ bounds.height) {scale : Rat} :
    scale ≤ v.roomScale bounds ↔
      (bounds.width * scale ≤ v.width - 100 ∧ bounds.height * scale ≤ v.height - 100) ∧
        scale ≤ 1.5 := by
  have across : 0 < bounds.width := lt_of_lt_of_le one_pos wide
  have down : 0 < bounds.height := lt_of_lt_of_le one_pos high
  rw [roomScale, le_min_iff, le_min_iff, le_div_iff₀ across, le_div_iff₀ down, mul_comm scale,
    mul_comm scale]

/-- Only where the least scale is forced does fitting give up the margin. -/
theorem inset_fit (wide : 1 ≤ bounds.width) (high : 1 ≤ bounds.height) :
    (v.fit bounds).Inset bounds ↔ 0.3 ≤ v.roomScale bounds := by
  rw [inset_fit_iff wide high]
  have least : 0.3 ≤ (v.fit bounds).scale := by
    rw [scale_fit wide high]
    exact le_max_right _ _
  constructor
  · rintro ⟨across, down⟩
    have shrunk : ∀ {length : Rat}, 1 ≤ length → length * 0.3 ≤ length * (v.fit bounds).scale :=
      fun long => mul_le_mul_of_nonneg_left least (zero_le_one.trans long)
    exact (le_roomScale_iff wide high).mpr
      ⟨⟨(shrunk wide).trans across, (shrunk high).trans down⟩, by norm_num⟩
  · intro room
    rw [scale_fit wide high, max_eq_left room]
    exact ((le_roomScale_iff wide high).mp le_rfl).1

theorem toScreen_fit_center (v : Viewport Rat) (wide : 1 ≤ bounds.width)
    (high : 1 ≤ bounds.height) :
    (v.fit bounds).toScreen bounds.center = ⟨v.width / 2, v.height / 2⟩ := by
  have centered : ∀ start length scale size : Rat,
      (start + length / 2) * scale + ((size - length * scale) / 2 - start * scale) = size / 2 := by
    intro start length scale size
    ring
  rw [fit_eq v wide high]
  exact congrArg₂ Point.mk (centered _ _ _ _) (centered _ _ _ _)

end Fitting

/-- A view that shows the same logical point under the anchor as the first one, and whose screen and
logical points are images of each other. -/
structure Steady (anchor : Point Rat) (first now : Viewport Rat) : Prop where
  anchored : now.toLogical anchor = first.toLogical anchor
  toScreen_toLogical : ∀ p, now.toScreen (now.toLogical p) = p
  toLogical_toScreen : ∀ p, now.toLogical (now.toScreen p) = p

/-- What a call to zoom makes of the scale, and what it says about it. -/
structure Rescales (anchor : Point Rat) (was : Viewport Rat) (factor : Rat) : Prop where
  scale : (zoomed anchor was factor).scale = max 0.1 (min (was.scale * factor) 5)
  told : (was.zoomAt? factor anchor).isSome = true ↔ (zoomed anchor was factor).scale ≠ was.scale

/-- What fitting a box to a surface does. -/
structure Fits (v : Viewport Rat) (bounds : Box Rat) : Prop where
  center : (v.fit bounds).toScreen bounds.center = ⟨v.width / 2, v.height / 2⟩
  scale : (v.fit bounds).scale = max (v.roomScale bounds) 0.3
  inset : (v.fit bounds).Inset bounds ↔ 0.3 ≤ v.roomScale bounds

/-- Zooming keeps its anchor through every call, whatever the factors are, and fitting centers the
box and keeps the margin unless the least scale is forced. -/
theorem zoom_anchored_fit_centered {v : Viewport Rat} (scaled : 0 < v.scale) :
    (∀ anchor factors, Steady anchor v (zoomedBy anchor v factors) ∧
      ∀ factor, Rescales anchor (zoomedBy anchor v factors) factor) ∧
      ∀ (surface : Viewport Rat) (bounds : Box Rat), 1 ≤ bounds.width → 1 ≤ bounds.height →
        Fits surface bounds := by
  constructor
  · intro anchor factors
    obtain ⟨positive, anchored⟩ := zoomedBy_steady anchor scaled factors
    refine ⟨⟨anchored, ?_, ?_⟩, ?_⟩
    · exact toScreen_toLogical positive.ne'
    · exact toLogical_toScreen positive.ne'
    · exact fun factor => ⟨scale_zoomed anchor _ factor, isSome_zoomAt? anchor _ factor⟩
  · intro surface bounds wide high
    exact ⟨toScreen_fit_center surface wide high, scale_fit wide high, inset_fit wide high⟩

/-- The bounds cut the first and the second call, and the box is wider than the surface allows. -/
theorem zoom_anchored_fit_centered_cut :
    let v : Viewport Rat := ⟨4, 10, -5, 800, 600⟩
    let anchor : Point Rat := ⟨300, 200⟩
    let wide : Box Rat := ⟨-90, 60, 100000, 100⟩
    0 < v.scale ∧ (zoomedBy anchor v [2, 0.01, 3]).scale = 0.3 ∧
      (Steady anchor v (zoomedBy anchor v [2, 0.01, 3]) ∧
        Rescales anchor (zoomedBy anchor v [2, 0.01, 3]) 1) ∧
      1 ≤ wide.width ∧ 1 ≤ wide.height ∧ Fits v wide := by
  intro v anchor wide
  have scaled : 0 < v.scale := by decide +kernel
  have across : 1 ≤ wide.width := by decide +kernel
  have down : 1 ≤ wide.height := by decide +kernel
  obtain ⟨zooming, fitting⟩ := zoom_anchored_fit_centered scaled
  obtain ⟨steady, rescales⟩ := zooming anchor [2, 0.01, 3]
  exact ⟨scaled, by decide +kernel, ⟨steady, rescales 1⟩, across, down, fitting v wide across down⟩

end Viewport
end Flowchart
