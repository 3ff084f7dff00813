import Flowchart.Drawing
import Flowchart.Layout
import Flowchart.Script.Chart
import Flowchart.Settings
/-! From a script to its picture. -/
namespace Flowchart

inductive PictureError where
  | empty
  | layout (fault : Layout.Fault)
  deriving DecidableEq, Repr

def PictureError.message : PictureError → String
  | .empty => "nothing to draw: no blocks were declared"
  | .layout _ => "the blocks cannot be laid out"

namespace Picture

def scene {α : Type} [Scalar α] (config : Layout.Config α) (source : String) :
    Except PictureError (Scene α × List Script.Diagnostic) :=
  let chart := Script.parse source
  if chart.blocks.isEmpty then .error .empty
  else
    let s : Scene α := Scene.ofDiagram chart.diagram
    match Layout.layout config s.diagram with
    | .ok arrangement => .ok ({ s with diagram := arrangement.diagram }, chart.diagnostics)
    | .error fault => .error (.layout fault)

variable {α : Type} [Printable α]

def document (settings : Settings α) (s : Scene α) : String :=
  Drawing.draw settings.theme settings.layout settings.style s .document

def render (settings : Settings α) (source : String) : Except PictureError String :=
  (scene settings.layout source).map fun (s, _) => document settings s

end Picture
end Flowchart
