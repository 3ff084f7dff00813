import Flowchart.Drawing.Style
import Flowchart.Layout.Config
import Flowchart.Theme
/-! All that a chart is laid out and drawn with. -/
namespace Flowchart

structure Settings (α : Type) where
  layout : Layout.Config α
  style : Drawing.Style α
  theme : Theme

def Settings.standard {α : Type} [Scalar α] : Settings α := ⟨.standard, .standard, .standard⟩

end Flowchart
