import Flowchart.Geometry
/-! Outlines in single precision, and how far they reach. A cubic curve reaches as far as its end
and the places where it turns from right to left or from down to up. -/
namespace Flowchart.Raster

abbrev Spot := Point Float32

inductive Stretch where
  | line (last : Spot)
  | cubic (first second last : Spot)

namespace Stretch

def finish : Stretch → Spot
  | line last | cubic _ _ last => last

def spots : Stretch → List Spot
  | line last => [last]
  | cubic first second last => [first, second, last]

end Stretch

structure Extent where
  left : Float32
  top : Float32
  right : Float32
  bottom : Float32

namespace Extent

def smaller (a b : Float32) : Float32 := if b < a then b else a

def larger (a b : Float32) : Float32 := if a < b then b else a

def union (a b : Extent) : Extent :=
  ⟨smaller a.left b.left, smaller a.top b.top, larger a.right b.right, larger a.bottom b.bottom⟩

def ofSpot (p : Spot) : Extent := ⟨p.x, p.y, p.x, p.y⟩

def ofSpots (first : Spot) (others : List Spot) : Extent :=
  others.foldl (fun e p => e.union (ofSpot p)) (ofSpot first)

def maxSide : Float := 3.4028234663852886e38

def isFinite (e : Extent) : Bool :=
  e.left.isFinite && e.top.isFinite && e.right.isFinite && e.bottom.isFinite
    && e.right.toFloat - e.left.toFloat < maxSide && e.bottom.toFloat - e.top.toFloat < maxSide

end Extent

def properQuotient? (num den : Float32) : Option Float32 :=
  let (num, den) := if num < 0 then (-num, -den) else (num, den)
  if den == 0 || num == 0 || den ≤ num then none
  else
    let q := num / den
    if 0 < q && q < 1 then some q else none

/-- Where `a * t * t + b * t + c` is zero for `t` between zero and one. -/
def properRoots (a b c : Float32) : List Float32 :=
  if a == 0 then (properQuotient? (-c) b).toList
  else
    let square := b.toFloat * b.toFloat - 4 * a.toFloat * c.toFloat
    if square < 0 then []
    else
      let r := square.sqrt.toFloat32
      if !r.isFinite then []
      else
        let q := if b < 0 then -(b - r) / 2 else -(b + r) / 2
        match properQuotient? q a, properQuotient? c q with
        | some s, some t => if s == t then [s] else [s, t]
        | some s, none => [s]
        | none, some t => [t]
        | none, none => []

def turns (a b c d : Float32) : List Float32 :=
  properRoots (d - a + 3 * (b - c)) (2 * (a - b - b + c)) (b - a)

def cubicAt (a b c d t : Float32) : Float32 :=
  (((d + 3 * (b - c) - a) * t + 3 * (c - (b + b) + a)) * t + 3 * (b - a)) * t + a

/-- The spots that a stretch reaches farthest with. -/
def Stretch.reach (start : Spot) : Stretch → List Spot
  | .line last => [last]
  | .cubic first second last =>
    let ts := turns start.x first.x second.x last.x ++ turns start.y first.y second.y last.y
    ts.map (fun t => ⟨cubicAt start.x first.x second.x last.x t,
      cubicAt start.y first.y second.y last.y t⟩) ++ [last]

def reaches (start : Spot) : List Stretch → List Spot
  | [] => []
  | s :: rest => s.reach start ++ reaches s.finish rest

structure Path where
  start : Spot
  stretches : List Stretch

/-- How far a path reaches. One without stretches is not drawn, nor is one that is too large. -/
def Path.extent? (p : Path) : Option Extent :=
  let spots := p.start :: p.stretches.flatMap Stretch.spots
  let extent := Extent.ofSpots p.start (reaches p.start p.stretches)
  if !p.stretches.isEmpty && spots.all (fun q => q.x.isFinite && q.y.isFinite)
      && (Extent.ofSpots p.start spots).isFinite && extent.isFinite then some extent
  else none

end Flowchart.Raster
