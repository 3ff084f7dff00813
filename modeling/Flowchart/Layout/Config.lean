import Flowchart.Scalar
import Flowchart.Text.Width
/-! Sizes, gaps and fonts that a chart is measured and placed with. -/
namespace Flowchart.Layout

structure Config (α : Type) where
  minNodeWidth : α
  maxNodeWidth : α
  nodeHeight : α
  /-- Space around a label, for both sides together where a line is broken and for each side where a
  width is chosen. -/
  nodePadding : α
  terminatorHeight : α
  decisionSize : α
  ioSkew : α
  connectorRadius : α
  compositeWidth : α
  compositeHeight : α
  horizontalGap : α
  verticalGap : α
  topMargin : α
  fontSize : α
  /-- Font size of decisions and of the labels on composite blocks. -/
  smallFontSize : α
  glyphWidthRatio : α
  lineHeight : α
  decisionLineHeight : α
  /-- How many columns a text takes, in any way of counting. -/
  columns : List Char → Nat

namespace Config

variable {α : Type} [Scalar α]

def standard : Config α where
  minNodeWidth := 180
  maxNodeWidth := 280
  nodeHeight := 52
  nodePadding := 20
  terminatorHeight := 46
  decisionSize := 90
  ioSkew := 16
  connectorRadius := 16
  compositeWidth := 240
  compositeHeight := 100
  horizontalGap := 80
  verticalGap := 60
  topMargin := 60
  fontSize := 13
  smallFontSize := 11
  glyphWidthRatio := 7.2 / 13
  lineHeight := 16
  decisionLineHeight := 13
  columns := Text.columns

def withGaps (config : Config α) (horizontal vertical : α) : Config α :=
  { config with horizontalGap := horizontal, verticalGap := vertical }

/-- The largest width is raised to the smallest one where it lies below. -/
def withNodeWidth (config : Config α) (smallest largest : α) : Config α :=
  { config with minNodeWidth := smallest, maxNodeWidth := greatest largest smallest }

def glyphWidth (config : Config α) (fontSize : α) : α := fontSize * config.glyphWidthRatio

end Config
end Flowchart.Layout
