import Flowchart.Proofs.Editor.Mirror
import Flowchart.Proofs.Float.Order
/-! The scale of the view stays within its bounds, so that it can be divided by. Zooming clamps a
product with a usual factor, which is a number as long as the scale is one; fitting cuts off
whatever the view and the blocks give, also where that is no number. -/
namespace Flowchart.Editor

/-- A number within the bounds of zooming. -/
structure Visible (scale : Float) : Prop where
  low : 0.1 ≤ scale
  high : scale ≤ 5

namespace Visible

variable {scale after : Float}

theorem number (visible : Visible scale) : scale.isNaN = false := (numbers_of_le visible.high).1

theorem positive (visible : Visible scale) : 0 < scale :=
  float_lt_of_lt_of_le (by decide +kernel) (by decide +kernel) visible.low

theorem beq_zero (visible : Visible scale) : (scale == 0) = false :=
  beq_eq_false_of_float_lt (by decide +kernel) visible.number visible.positive

/-- Fitting keeps to closer bounds. -/
theorem fit (view : Viewport Float) (bounds : Box Float) : Visible (view.fit bounds).scale := by
  have closer : (Viewport.fitMinScale : Float) ≤ Viewport.fitMaxScale := by decide +kernel
  obtain ⟨low, high⟩ := greatest_least_within closer
    (least ((view.width - Viewport.fitMargin) / greatest bounds.width 1)
      ((view.height - Viewport.fitMargin) / greatest bounds.height 1))
  exact ⟨float_le_trans (by decide +kernel) low, float_le_trans high (by decide +kernel)⟩

theorem step (visible : Visible scale) {factor : Float}
    (usual : factor ∈ [wheelIn, wheelOut, stepIn, stepOut]) :
    Visible (clamp Viewport.minScale Viewport.maxScale (scale * factor)) := by
  obtain ⟨finite, positive⟩ := usual_factors factor usual
  have wide : (Viewport.minScale : Float) ≤ Viewport.maxScale := by decide +kernel
  obtain ⟨low, high⟩ := clamp_within wide (number_mul visible.number finite positive)
  exact ⟨low, high⟩

theorem zoom (visible : Visible scale) (zoom : Zoom scale after) : Visible after := by
  cases zoom with
  | fit view bounds => exact fit view bounds
  | step usual => exact visible.step usual

theorem zooms (visible : Visible scale) (zooms : Relation.ReflTransGen Zoom scale after) :
    Visible after := by
  induction zooms with
  | refl => exact visible
  | tail _ last ih => exact ih.zoom last

end Visible

/-- The scale changes in the usual ways only. -/
theorem Run.zoom {α : Type} [Metric α]
    {permits : Editor α → Operation α → Outcome α Unit → Prop} {first now : Editor α}
    (run : Run permits first now) :
    Relation.ReflTransGen Zoom first.viewport.scale now.viewport.scale := by
  induction run with
  | start => exact .refl
  | step _ _ performed ih => exact ih.trans (telling_of_perform performed).zoom

/-- Whatever is done to an editor that starts within the bounds of zooming, the scale is a number
within these bounds, and never zero. -/
theorem run_scale_within {first now : Editor Float} (low : 0.1 ≤ first.viewport.scale)
    (high : first.viewport.scale ≤ 5) (run : Run (fun _ _ _ => True) first now) :
    now.viewport.scale.isNaN = false ∧ 0.1 ≤ now.viewport.scale ∧ now.viewport.scale ≤ 5 ∧
      0 < now.viewport.scale ∧ (now.viewport.scale == 0) = false := by
  have visible : Visible now.viewport.scale := Visible.zooms ⟨low, high⟩ run.zoom
  exact ⟨visible.number, visible.low, visible.high, visible.positive, visible.beq_zero⟩

/-- A chart is loaded, the surface loses its size, the view is fitted to a block that is nowhere,
and the wheel is turned by no number at a place infinitely far away. -/
theorem run_scale_within_nowhere :
    let first : Editor Float := ofViewport .standard
    let nowhere : Float := 0 / 0
    (0.1 : Float) ≤ first.viewport.scale ∧ first.viewport.scale ≤ 5 ∧ nowhere.isNaN = true ∧
      ∃ o, first.loadSource "ts()" = .ok o ∧
        let resized := o.editor.resizeView nowhere (1 / 0)
        let moved := (resized.moveNode 0 nowhere (1 / 0)).editor
        let now := (moved.fit.editor.wheel nowhere ⟨1 / 0, nowhere⟩).editor
        Run (fun _ _ _ => True) first now ∧
          now.viewport.scale.isNaN = false ∧ 0.1 ≤ now.viewport.scale ∧
          now.viewport.scale ≤ 5 ∧ 0 < now.viewport.scale ∧ (now.viewport.scale == 0) = false := by
  intro first nowhere
  have low : (0.1 : Float) ≤ first.viewport.scale := by decide +kernel
  have high : first.viewport.scale ≤ 5 := by decide +kernel
  obtain ⟨o, loaded, -⟩ := loadSource_fresh first "ts()"
  refine ⟨low, high, by decide +kernel, o, loaded, ?_⟩
  intro resized moved now
  have run : Run (fun _ _ _ => True) first now := by
    refine @Run.step Float _ _ _ _ (.wheel nowhere ⟨1 / 0, nowhere⟩) _ ?_ trivial rfl
    refine @Run.step Float _ _ _ _ .fit _ ?_ trivial rfl
    refine @Run.step Float _ _ _ _ (.moveNode 0 nowhere (1 / 0)) (resized.moveNode 0 _ _).unit ?_
      trivial rfl
    refine @Run.step Float _ _ _ _ (.resizeView nowhere (1 / 0)) (.silent resized) ?_ trivial rfl
    exact run_loadSource loaded trivial
  exact ⟨run, run_scale_within low high run⟩

end Flowchart.Editor
