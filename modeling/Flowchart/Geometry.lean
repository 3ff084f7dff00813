import Flowchart.Scalar
/-! Points and boxes of the plane; `y` grows downwards. -/
namespace Flowchart

structure Point (α : Type) where
  x : α
  y : α
  deriving BEq, DecidableEq

/-- An upright rectangle, by its top left corner and its size. -/
structure Box (α : Type) where
  x : α
  y : α
  width : α
  height : α
  deriving BEq, DecidableEq

namespace Point

variable {α : Type}

section Arithmetic
variable [Scalar α]

def squaredDistance (p q : Point α) : α :=
  (q.x - p.x) * (q.x - p.x) + (q.y - p.y) * (q.y - p.y)

def projection (p a b : Point α) : Point α :=
  let dx := b.x - a.x
  let dy := b.y - a.y
  let squaredLength := dx * dx + dy * dy
  if squaredLength == 0 then a
  else
    let t := clamp 0 1 (((p.x - a.x) * dx + (p.y - a.y) * dy) / squaredLength)
    ⟨a.x + t * dx, a.y + t * dy⟩

end Arithmetic

section Distance
variable [Metric α]

def distance (p q : Point α) : α := Metric.sqrt (p.squaredDistance q)

def distanceToSegment (p a b : Point α) : α := p.distance (p.projection a b)

end Distance

end Point

namespace Box

variable {α : Type} [Scalar α]

def zero : Box α := ⟨0, 0, 0, 0⟩

def right (b : Box α) : α := b.x + b.width

def bottom (b : Box α) : α := b.y + b.height

def center (b : Box α) : Point α := ⟨b.x + b.width / 2, b.y + b.height / 2⟩

/-- The border belongs to the box. -/
def contains (b : Box α) (p : Point α) : Bool :=
  b.x ≤ p.x && p.x ≤ b.right && b.y ≤ p.y && p.y ≤ b.bottom

def union (a b : Box α) : Box α :=
  let x := least a.x b.x
  let y := least a.y b.y
  ⟨x, y, greatest a.right b.right - x, greatest a.bottom b.bottom - y⟩

def inflate (b : Box α) (amount : α) : Box α :=
  ⟨b.x - amount, b.y - amount, b.width + 2 * amount, b.height + 2 * amount⟩

end Box
end Flowchart
