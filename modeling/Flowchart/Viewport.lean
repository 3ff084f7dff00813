import Flowchart.Geometry
/-! The view of a drawing: a uniform scale, a shift and the size of the visible surface. A logical
point is seen at `scale * point + offset`. -/
namespace Flowchart

structure Viewport (α : Type) where
  scale : α
  offsetX : α
  offsetY : α
  width : α
  height : α
  deriving BEq, DecidableEq

namespace Viewport

variable {α : Type} [Scalar α]

def minScale : α := 0.1
def maxScale : α := 5

def fitMargin : α := 100

def fitMaxScale : α := 1.5
def fitMinScale : α := 0.3

def ofSize (width height : α) : Viewport α := ⟨1, 0, 0, width, height⟩

def standard : Viewport α := ofSize 1200 800

def toLogical (v : Viewport α) (p : Point α) : Point α :=
  ⟨(p.x - v.offsetX) / v.scale, (p.y - v.offsetY) / v.scale⟩

def toScreen (v : Viewport α) (p : Point α) : Point α :=
  ⟨p.x * v.scale + v.offsetX, p.y * v.scale + v.offsetY⟩

def fit (v : Viewport α) (bounds : Box α) : Viewport α :=
  let width := greatest bounds.width 1
  let height := greatest bounds.height 1
  let scale := greatest (least (least ((v.width - fitMargin) / width)
    ((v.height - fitMargin) / height)) fitMaxScale) fitMinScale
  { v with
    scale
    offsetX := (v.width - width * scale) / 2 - bounds.x * scale
    offsetY := (v.height - height * scale) / 2 - bounds.y * scale }

/-- Multiply the scale, within its bounds, and keep the logical point under `anchor` where it is.
`none` when the scale stays the same. -/
def zoomAt? (v : Viewport α) (factor : α) (anchor : Point α) : Option (Viewport α) :=
  let scale := clamp minScale maxScale (v.scale * factor)
  if scale == v.scale then none
  else
    let logical := v.toLogical anchor
    some { v with
      scale
      offsetX := anchor.x - logical.x * scale
      offsetY := anchor.y - logical.y * scale }

def zoomCentered? (v : Viewport α) (factor : α) : Option (Viewport α) :=
  v.zoomAt? factor ⟨v.width / 2, v.height / 2⟩

def pan (v : Viewport α) (dx dy : α) : Viewport α :=
  { v with offsetX := v.offsetX + dx, offsetY := v.offsetY + dy }

def resize (v : Viewport α) (width height : α) : Viewport α := { v with width, height }

end Viewport
end Flowchart
