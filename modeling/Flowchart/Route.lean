import Flowchart.Route.Fan
/-! Routes of connections, from the bottom of one block to the top of another. Forward connections
are straight or curved; a back-reference goes around the left side of the blocks it passes. -/
namespace Flowchart

inductive RouteShape (α : Type) where
  | straight
  | curve (first second : Point α)
  | orthogonal (corners : List (Point α))
  deriving BEq, DecidableEq

inductive Heading where
  | down
  | up
  deriving DecidableEq, Repr

structure Route (α : Type) where
  edge : Nat
  start : Point α
  finish : Point α
  shape : RouteShape α
  heading : Heading
  back : Bool
  deriving BEq, DecidableEq

namespace Route

variable {α : Type} [Scalar α]

/-- Sidewards distance below which a forward connection is straight. -/
def straightBelow : α := 5

/-- Least distance of a control point from its end. -/
def curveReach : α := 40

/-- How far a detour stays from the blocks it passes, and what later detours add to that, over and
over in six steps. -/
def detourMargin : α := 40
def detourStagger (edge : Nat) : α := Scalar.ofNat (edge % 6) * 15

/-- How far a detour drops below its source and how far above its target it turns in. -/
def detourDrop : α := 20
def detourEntry : α := 12

/-- Left line of a detour: clear of its two ends and of every block between their heights. -/
def detourLeft (nodes : List (Node α)) (edge : Nat) (start finish : Point α) : α :=
  let top := least start.y finish.y
  let bottom := greatest start.y finish.y
  let passed := nodes.filter fun n => top ≤ n.box.bottom && n.box.y ≤ bottom
  (passed.map (·.box.x)).foldl least (least start.x finish.x) - detourMargin - detourStagger edge

def detour (nodes : List (Node α)) (edge : Nat) (start finish : Point α) : Route α :=
  let left := detourLeft nodes edge start finish
  { edge, start, finish
    shape := .orthogonal [⟨start.x, start.y + detourDrop⟩, ⟨left, start.y + detourDrop⟩,
      ⟨left, finish.y - detourEntry⟩, ⟨finish.x, finish.y - detourEntry⟩]
    heading := .down
    back := true }

def forward (edge : Nat) (start finish : Point α) : Route α :=
  let dx := finish.x - start.x
  let dy := finish.y - start.y
  let reach := if dy < 0 then curveReach else greatest curveReach (dy / 2)
  { edge, start, finish
    shape :=
      if magnitude dx < straightBelow then .straight
      else .curve ⟨start.x, start.y + reach⟩ ⟨finish.x, finish.y - reach⟩
    heading := if dy < 0 then .up else .down
    back := false }

/-- The routes of the connections that have both ends. -/
def all (d : Diagram α) (spread : α) : List (Route α) :=
  let fan := Fan.ofDiagram d spread
  let node? (id : Nat) : Option (Node α) := d.nodes.reverse.find? (·.id == id)
  d.edges.zipIdx.filterMap fun (e, i) =>
    match node? e.source, node? e.target with
    | some source, some target =>
      let start : Point α := ⟨source.center.x + fan.sourceOffset i, source.box.bottom⟩
      let finish : Point α := ⟨target.center.x + fan.targetOffset i, target.box.y⟩
      some (if e.back then detour d.nodes i start finish else forward i start finish)
    | _, _ => none

def labelPosition (r : Route α) : Point α :=
  ⟨(r.start.x + r.finish.x) / 2, (r.start.y + r.finish.y) / 2⟩

def cubicPoint (start first second finish : Point α) (t : α) : Point α :=
  let u := 1 - t
  let a := u * u * u
  let b := 3 * u * u * t
  let c := 3 * u * t * t
  let d := t * t * t
  ⟨a * start.x + b * first.x + c * second.x + d * finish.x,
    a * start.y + b * first.y + c * second.y + d * finish.y⟩

def curveSegments : Nat := 16

def polyline (r : Route α) : List (Point α) :=
  match r.shape with
  | .straight => [r.start, r.finish]
  | .curve first second =>
    (List.range (curveSegments + 1)).map fun i =>
      cubicPoint r.start first second r.finish (Scalar.ofNat i / Scalar.ofNat curveSegments)
  | .orthogonal corners => r.start :: (corners ++ [r.finish])

def segments (r : Route α) : List (Point α × Point α) := r.polyline.zip r.polyline.tail

def distanceTo {α : Type} [Metric α] (r : Route α) (p : Point α) : α :=
  (r.segments.map fun (a, b) => p.distanceToSegment a b).foldl least Metric.infinity

def arrowHead (r : Route α) (size : α) : List (Point α) :=
  let tip := r.finish
  let back := match r.heading with
    | .down => tip.y - size
    | .up => tip.y + size
  [tip, ⟨tip.x - size / 2, back⟩, ⟨tip.x + size / 2, back⟩]

end Route
end Flowchart
