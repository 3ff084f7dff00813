import Flowchart.Diagram
/-! Anchors of connections that share a block. They are fanned out around the middle of its side, in
the order of the blocks at their other ends, back-references last, so that lines do not cross right
at the block. -/
namespace Flowchart

/-- Center of the last block with a number. -/
def Diagram.lastCenter? {α : Type} [Scalar α] (d : Diagram α) (id : Nat) : Option (Point α) :=
  (d.nodes.reverse.find? (·.id == id)).map (·.center)

namespace Fan

inductive Side where
  | source
  | target
  deriving DecidableEq, Repr

def Side.near : Side → Edge → Nat
  | .source, e => e.source
  | .target, e => e.target

def Side.far : Side → Edge → Nat
  | .source, e => e.target
  | .target, e => e.source

variable {α : Type} [Scalar α]

def present (d : Diagram α) : List (Nat × Edge) :=
  (d.edges.zipIdx.map fun (e, i) => (i, e)).filter fun (_, e) =>
    (d.node? e.source).isSome && (d.node? e.target).isSome

/-- Forward connections come first, then the one whose other end lies further left. -/
def before (center : Nat → α) (side : Side) (e f : Edge) : Bool :=
  if e.back == f.back then Scalar.precedes (center (side.far e)) (center (side.far f)) else f.back

def arranged (center : Nat → α) (side : Side) (group : List (Nat × Edge)) : List (Nat × Edge) :=
  group.mergeSort fun (_, e) (_, f) => before center side e f

def steps (spread : α) (count : Nat) : List α :=
  let first := -(Scalar.ofNat (count - 1) * spread) / 2
  (List.range count).map fun i => first + Scalar.ofNat i * spread

/-- Offsets of a group; a connection alone stays in the middle. -/
def groupOffsets (spread : α) (center : Nat → α) (side : Side) (group : List (Nat × Edge)) :
    List (Nat × α) :=
  if 1 < group.length then
    ((arranged center side group).map (·.1)).zip (steps spread group.length)
  else []

def sideOffsets (d : Diagram α) (spread : α) (side : Side) : List (Nat × α) :=
  let all := present d
  let center (id : Nat) : α := ((d.lastCenter? id).map (·.x)).getD 0
  let ids := (all.map fun (_, e) => side.near e).eraseDups
  ids.flatMap fun id => groupOffsets spread center side (all.filter fun (_, e) => side.near e == id)

end Fan

/-- Horizontal offsets of the anchors at both ends. A connection without an entry is in the
middle. -/
structure Fan (α : Type) where
  atSource : List (Nat × α)
  atTarget : List (Nat × α)

namespace Fan

variable {α : Type} [Scalar α]

def ofDiagram (d : Diagram α) (spread : α) : Fan α :=
  ⟨sideOffsets d spread .source, sideOffsets d spread .target⟩

def sourceOffset (fan : Fan α) (edge : Nat) : α := (fan.atSource.lookup edge).getD 0

def targetOffset (fan : Fan α) (edge : Nat) : α := (fan.atTarget.lookup edge).getD 0

def mentions (fan : Fan α) (edge : Nat) : Bool :=
  (fan.atSource.lookup edge).isSome || (fan.atTarget.lookup edge).isSome

end Fan
end Flowchart
