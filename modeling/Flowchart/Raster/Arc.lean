import Flowchart.Raster.Curve
/-! Arcs of upright ellipses as cubic curves. An arc is given by its ends and its radii. It runs
clockwise on the screen, for half a turn at most. -/
namespace Flowchart.Raster

/-- An arc by its center, the angle that it starts at and the angle that it sweeps. -/
structure Arc where
  center : Point Float
  radiusX : Float
  radiusY : Float
  start : Float
  sweep : Float

def pi : Float := 3.141592653589793

namespace Arc

def straightBelow : Float := 1e-5

/-- The arc between two points, if they differ. Radii that are too small to reach from one to the
other grow. -/
def between? (p q : Point Float) (radiusX radiusY : Float) : Option Arc :=
  if radiusX ≤ straightBelow || radiusY ≤ straightBelow || (p.x == q.x && p.y == q.y) then none
  else
    let dx := (p.x - q.x) * 0.5
    let dy := (p.y - q.y) * 0.5
    let square := dx * dx / (radiusX * radiusX) + dy * dy / (radiusY * radiusY)
    let scale := if 1 < square then square.sqrt else 1
    let rx := radiusX * scale
    let ry := radiusY * scale
    let across := rx * dy
    let along := ry * dx
    let sum := across * across + along * along
    let factor := ((rx * ry * (rx * ry) - sum) / sum).abs.sqrt
    let cx := factor * across / ry
    let cy := -factor * along / rx
    let start := Float.atan2 ((dy - cy) / ry) ((dx - cx) / rx)
    let turn := Float.atan2 ((-dy - cy) / ry) ((-dx - cx) / rx) - start
    some
      { center := ⟨cx + (p.x + q.x) * 0.5, cy + (p.y + q.y) * 0.5⟩
        radiusX := rx
        radiusY := ry
        start
        sweep := if turn < 0 then turn + 2 * pi else turn }

def way (a : Arc) (angle : Float) : Point Float :=
  ⟨a.radiusX * angle.cos, a.radiusY * angle.sin⟩

def tolerance : Float := 0.1

def count (a : Arc) : Float :=
  let size := if a.radiusX < a.radiusY then a.radiusY else a.radiusX
  let perTurn := (1.1163 * (size / tolerance)).pow (1 / 6)
  let perTurn := if perTurn < 3.999999 then 3.999999 else perTurn
  (perTurn * a.sweep.abs * (1 / (2 * pi))).ceil

def spot (a : Arc) (p : Point Float) : Raster.Spot :=
  ⟨(a.center.x + p.x).toFloat32, (a.center.y + p.y).toFloat32⟩

def curves (a : Arc) (step arm : Float) : (count : Nat) → (angle : Float) →
    (place : Point Float) → List Stretch
  | 0, _, _ => []
  | count + 1, angle, p =>
    let next := angle + step
    let before := a.way (angle + pi / 2)
    let behind := a.way (next + pi / 2)
    let q := a.way next
    .cubic (a.spot ⟨p.x + arm * before.x, p.y + arm * before.y⟩)
      (a.spot ⟨q.x - arm * behind.x, q.y - arm * behind.y⟩) (a.spot q)
      :: curves a step arm count next q

end Arc

/-- An arc from one spot to another as curves, or as a line where nothing bends. -/
def arcStretches (p q : Spot) (radiusX radiusY : Float32) : List Stretch :=
  let exact (s : Spot) : Point Float := ⟨s.x.toFloat, s.y.toFloat⟩
  match Arc.between? (exact p) (exact q) radiusX.toFloat radiusY.toFloat with
  | none => [.line q]
  | some a =>
    let step := a.sweep / a.count
    let arm := 4 / 3 * (0.25 * step).abs.tan
    a.curves step arm a.count.toUInt64.toNat a.start (a.way a.start)

inductive Move where
  | line (last : Spot)
  | arc (radiusX radiusY : Float32) (last : Spot)

/-- The stretches of moves from a spot on. Each starts where the one in front of it has ended. -/
def stretches (start : Spot) : List Move → List Stretch
  | [] => []
  | .line last :: rest => .line last :: stretches last rest
  | .arc rx ry last :: rest =>
    let ss := arcStretches start last rx ry
    ss ++ stretches ((ss.getLast?.map Stretch.finish).getD start) rest

end Flowchart.Raster
