import Flowchart.Drawing
import Flowchart.Raster.Arc
import Flowchart.Scalar.Float
/-! How far the figures of a drawing reach once they are read back. A number that is not finite
cannot be read; a line stops in front of it, and a place or a length without a number is zero. -/
namespace Flowchart.Raster
open Drawing (Outline Figure)

def readable? (a : Float) : Option Float32 :=
  match Decimal.view (Drawing.hundredths a) with
  | .finite _ => some (Drawing.hundredths a).toFloat32
  | _ => none

def readable (a : Float) : Float32 := (readable? a).getD 0

def isLength (a : Float32) : Bool := 0 < a && a.isFinite

def spot? (p : Point Float) : Option Spot := do return ⟨← readable? p.x, ← readable? p.y⟩

def spots : List (Point Float) → List Spot
  | [] => []
  | p :: ps =>
    match spot? p with
    | some q => q :: spots ps
    | none => []

def boxPath? (b : Box Float) (cornerRadius : Float) : Option Path :=
  let x := readable b.x
  let y := readable b.y
  let width := readable b.width
  let height := readable b.height
  if !isLength width || !isLength height then none
  else
    let radius := Extent.larger (readable cornerRadius) 0
    let rx := Extent.smaller radius (width / 2)
    let ry := Extent.smaller radius (height / 2)
    let right := x + width
    let bottom := y + height
    if rx == 0 && ry == 0 then
      some ⟨⟨x, y⟩, [.line ⟨right, y⟩, .line ⟨right, bottom⟩, .line ⟨x, bottom⟩]⟩
    else
      let start : Spot := ⟨x + rx, y⟩
      some ⟨start, stretches start
        [.line ⟨right - rx, y⟩, .arc rx ry ⟨right, y + ry⟩, .line ⟨right, bottom - ry⟩,
          .arc rx ry ⟨right - rx, bottom⟩, .line ⟨x + rx, bottom⟩, .arc rx ry ⟨x, bottom - ry⟩,
          .line ⟨x, y + ry⟩, .arc rx ry ⟨x + rx, y⟩]⟩

def circlePath? (middle : Point Float) (radius : Float) : Option Path :=
  let x := readable middle.x
  let y := readable middle.y
  let r := readable radius
  if !isLength r then none
  else
    let start : Spot := ⟨x + r, y⟩
    some ⟨start, stretches start
      [.arc r r ⟨x, y + r⟩, .arc r r ⟨x - r, y⟩, .arc r r ⟨x, y - r⟩, .arc r r ⟨x + r, y⟩]⟩

def linesPath? : List Spot → Option Path
  | [] => none
  | start :: rest => some ⟨start, rest.map .line⟩

def outlinePath? : Outline Float → Option Path
  | .box b radius => boxPath? b radius
  | .polygon corners => linesPath? (spots corners)
  | .circle middle radius => circlePath? middle radius

def routePath? (r : Route Float) : Option Path :=
  match r.shape with
  | .straight => linesPath? (spots [r.start, r.finish])
  | .orthogonal corners => linesPath? (spots (r.start :: (corners ++ [r.finish])))
  | .curve first second => do
    return ⟨← spot? r.start, [.cubic (← spot? first) (← spot? second) (← spot? r.finish)]⟩

def figurePath? : Figure Float → Option Path
  | .outline o => outlinePath? o
  | .line route => routePath? route

/-- How far all figures reach together; those that are not drawn do not count. -/
def extent? (figures : List (Figure Float)) : Option Extent :=
  match figures.filterMap fun f => (figurePath? f).bind Path.extent? with
  | [] => none
  | e :: es =>
    let all := es.foldl Extent.union e
    if all.isFinite then some all else none

end Flowchart.Raster
