import Flowchart.Drawing.Canvas
import Flowchart.Scene
/-! Drawing a scene. -/
namespace Flowchart

inductive Surface (α : Type) where
  /-- The canvas of an editor: with a grid, moved and scaled by the view, the selection marked. -/
  | live (view : Viewport α)
  /-- A document of its own around the blocks, at their size. -/
  | document
  deriving BEq, DecidableEq

def Surface.isLive {α : Type} : Surface α → Bool
  | .live _ => true
  | .document => false

namespace Drawing

variable {α : Type}

section Area
variable [Scalar α]

def emptySize : Box α := ⟨0, 0, 400, 300⟩

def area (style : Style α) (s : Scene α) : Surface α → Box α
  | .live view => ⟨0, 0, view.width, view.height⟩
  | .document =>
    match s.diagram.bounds? with
    | some bounds => bounds.inflate style.padding
    | none => emptySize

end Area

variable [Printable α]

/-- The color of a connection; a back-reference takes the border color of its target. -/
def edgeColor (theme : Theme) (d : Diagram α) (e : Edge) : String :=
  if e.back then
    match d.node? e.target with
    | some n => (n.palette theme).border
    | none => theme.arrow.color
  else theme.arrow.color

def backdrop (theme : Theme) (style : Style α) (s : Scene α) (surface : Surface α) : Canvas α :=
  let blank : Canvas α := (Canvas.ofStyle style).addFont
  let c := blank.addBackground (area style s surface) theme.canvas.background
  match surface with
  | .live view => (c.addGrid view theme.canvas.grid).setView view
  | .document => c

def canvas (theme : Theme) (config : Layout.Config α) (style : Style α) (s : Scene α)
    (surface : Surface α) : Canvas α :=
  let marked (selection : Selection) : Bool :=
    surface.isLive && s.selection == some selection
  let c := (Route.all s.diagram style.fanSpread).foldl (fun c route =>
    match s.edge? route.edge with
    | some e =>
      c.addEdge theme config route e.label (edgeColor theme s.diagram e) (marked (.edge route.edge))
    | none => c) (backdrop theme style s surface)
  s.diagram.nodes.foldl (fun c n =>
    let c := c.addNode config n (n.palette theme)
    if marked (.node n.id) then c.addSelection n.box theme.canvas.selection else c) c

inductive Figure (α : Type) where
  | outline (o : Outline α)
  | line (route : Route α)
  deriving BEq, DecidableEq

def edgeFigures (config : Layout.Config α) (style : Style α) (label : Option String)
    (route : Route α) : List (Figure α) :=
  let pill := match label with
    | some text =>
      if text.isEmpty then []
      else
        let width := Layout.textWidth config style.labelFontSize text
        [.outline (.ofLabel route.labelPosition width)]
    | none => []
  [.line route, .outline (.polygon (route.arrowHead style.arrowHeadSize))] ++ pill

def figures (config : Layout.Config α) (style : Style α) (s : Scene α) : List (Figure α) :=
  ((Route.all s.diagram style.fanSpread).flatMap fun route =>
    match s.edge? route.edge with
    | some e => edgeFigures config style e.label route
    | none => []) ++ s.diagram.nodes.map fun n => .outline (.ofNode config n)

def draw (theme : Theme) (config : Layout.Config α) (style : Style α) (s : Scene α)
    (surface : Surface α) : String :=
  (canvas theme config style s surface).build (area style s surface)

end Drawing
end Flowchart
