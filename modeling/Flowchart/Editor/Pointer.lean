import Flowchart.Editor.Labels
import Flowchart.Route
/-! The pointer on the canvas: clicking, dragging blocks and moving the view. Positions are those on
the screen. -/
namespace Flowchart

inductive DoubleClick where
  | textEdit (node : Nat)
  | edgeLabel (edge : Nat)
  | nothing
  deriving DecidableEq, Repr

namespace Editor

variable {α : Type}

/-- A pointer that moves less far clicks. -/
def clickThreshold [Scalar α] : α := 3

/-- How far from its line a connection is hit, on the screen. -/
def hitTolerance [Scalar α] : α := 6

def nearest? [Scalar α] : List (α × Nat) → Option (α × Nat)
  | [] => none
  | p :: ps => some (ps.foldl (fun best q => if Scalar.precedes best.1 q.1 then best else q) p)

/-- The block at a position, or else the nearest connection. -/
def hitTest [Metric α] (e : Editor α) (position : Point α) : Option Selection :=
  let logical := e.viewport.toLogical position
  match e.scene.nodeAt? logical with
  | some id => some (.node id)
  | none =>
    let tolerance := hitTolerance / e.viewport.scale
    let measured := (Route.all e.data e.settings.style.fanSpread).map fun route =>
      (route.distanceTo logical, route.edge)
    let near := measured.filter fun (distance, _) => decide (distance ≤ tolerance)
    (nearest? near).map fun (_, edge) => .edge edge

def pointerDown [Scalar α] (e : Editor α) (position : Point α) : Editor α :=
  let logical := e.viewport.toLogical position
  match e.scene.nodeAt? logical with
  | some id =>
    { e with
      scene := (e.scene.startDrag? id logical).getD e.scene
      gesture := some (.block position) }
  | none => { e with gesture := some (.pan position position) }

def follow [Scalar α] (s : Scene α) (drag : Drag α) (logical : Point α) : Scene α :=
  { s with drag := some { drag with active := true } }.updateNode drag.node fun n =>
    n.moveTo (drag.origin.x + (logical.x - drag.grab.x)) (drag.origin.y + (logical.y - drag.grab.y))

def pointerMove [Metric α] (e : Editor α) (position : Point α) : Editor α :=
  match e.gesture with
  | some (.block start) =>
    match e.scene.drag with
    | none => e
    | some drag =>
      if !drag.active && position.distance start < clickThreshold then e
      else { e with scene := follow e.scene drag (e.viewport.toLogical position) }
  | some (.pan start last) =>
    { e with
      viewport := e.viewport.pan (position.x - last.x) (position.y - last.y)
      gesture := some (.pan start position) }
  | none => e

/-- Let a block go. If it is not where it was grabbed, the data with the block back there become a
step to undo. -/
def drop [Scalar α] (e : Editor α) (drag : Drag α) : Outcome α Unit :=
  match e.data.node? drag.node with
  | none => ⟨(), e, []⟩
  | some n =>
    if n.box.x == drag.origin.x && n.box.y == drag.origin.y then ⟨(), e, []⟩
    else
      let before := e.data.updateNode drag.node fun n => n.moveTo drag.origin.x drag.origin.y
      let after := { e with history := e.history.record before }
      ⟨(), after, [after.historyChanged, after.dataChanged]⟩

def pointerUp [Metric α] (e : Editor α) (position : Point α) : Outcome α Unit :=
  let released := { e with gesture := none }
  match e.gesture with
  | some (.block _) =>
    match e.scene.drag with
    | none => ⟨(), released, []⟩
    | some drag =>
      let released := { released with scene := e.scene.endDrag }
      if drag.active then released.drop drag else released.select (some (.node drag.node))
  | some (.pan start _) =>
    if position.distance start < clickThreshold then released.select (released.hitTest position)
    else ⟨(), released, []⟩
  | none => ⟨(), released, []⟩

def doubleClick [Metric α] (e : Editor α) (position : Point α) : Outcome α DoubleClick :=
  match e.hitTest position with
  | some (.node id) =>
    (e.beginText id).map fun opened => if opened then .textEdit id else .nothing
  | some (.edge index) =>
    ⟨.edgeLabel index, e, [.edgeLabelRequested index ((e.scene.edge? index).bind (·.label))]⟩
  | none => ⟨.nothing, e, []⟩

end Editor
end Flowchart
