import Flowchart.Scalar
/-! How a drawing is written: fonts, line widths, spacing and the form of the text. -/
namespace Flowchart.Drawing

structure Style (α : Type) where
  padding : α
  standalone : Bool
  /-- One element a line, indented. -/
  pretty : Bool
  classPrefix : Option String
  fontFamily : String
  fanSpread : α
  arrowHeadSize : α
  strokeWidth : α
  glowWidth : α
  gridSize : α
  labelFontSize : α
  deriving BEq, DecidableEq

namespace Style

variable {α : Type}

def standard [Scalar α] : Style α where
  padding := 60
  standalone := true
  pretty := true
  classPrefix := some "bc-"
  fontFamily := "Inter, 'Segoe UI', system-ui, sans-serif"
  fanSpread := 24
  arrowHeadSize := 10
  strokeWidth := 2
  glowWidth := 10
  gridSize := 30
  labelFontSize := 11

def className (style : Style α) (name : String) : String := style.classPrefix.getD "" ++ name

end Style
end Flowchart.Drawing
