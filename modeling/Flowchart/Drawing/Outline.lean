import Flowchart.Drawing.Number
import Flowchart.Layout.Config
import Flowchart.Diagram
/-! Outlines of what is drawn, apart from how they are painted and written. -/
namespace Flowchart.Drawing
open Layout (Config)

inductive Outline (α : Type) where
  | box (b : Box α) (cornerRadius : α)
  | polygon (corners : List (Point α))
  | circle (center : Point α) (radius : α)
  deriving BEq, DecidableEq

variable {α : Type} [Scalar α]

def cornerRadius : α := 10

def Outline.ofNode (config : Config α) (n : Node α) : Outline α :=
  let b := n.box
  let middle := b.center
  match n.shape with
  | .terminatorStart | .terminatorEnd | .terminator => .box b (b.height / 2)
  | .process | .subBlock => .box b cornerRadius
  | .decision => .polygon [⟨middle.x, b.y⟩, ⟨b.x + b.width, middle.y⟩,
      ⟨middle.x, b.y + b.height⟩, ⟨b.x, middle.y⟩]
  | .io =>
    let skew := config.ioSkew
    .polygon [⟨b.x + skew, b.y⟩, ⟨b.x + b.width, b.y⟩,
      ⟨b.x + b.width - skew, b.y + b.height⟩, ⟨b.x, b.y + b.height⟩]
  | .connector => .circle middle (least b.width b.height / 2)

def Outline.ofLabel (middle : Point α) (textWidth : α) : Outline α :=
  let width := textWidth + 16
  .box ⟨middle.x - width / 2, middle.y - 10, width, 20⟩ 6

end Flowchart.Drawing
