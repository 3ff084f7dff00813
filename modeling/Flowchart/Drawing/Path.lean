import Flowchart.Drawing.Number
import Flowchart.Route
/-! Path data of routes. -/
namespace Flowchart

namespace Drawing

variable {α : Type} [Printable α]

def coordinates (p : Point α) : String := number p.x ++ " " ++ number p.y

def lineTo (p : Point α) : String := " L" ++ coordinates p

end Drawing

open Drawing

/-- Path data: a move to the start, then lines or a curve. -/
def Route.pathData {α : Type} [Printable α] (r : Route α) : String :=
  let rest := match r.shape with
    | .straight => lineTo r.finish
    | .curve first second =>
      " C" ++ coordinates first ++ ", " ++ coordinates second ++ ", " ++ coordinates r.finish
    | .orthogonal corners => String.join ((corners ++ [r.finish]).map lineTo)
  "M" ++ coordinates r.start ++ rest

end Flowchart
