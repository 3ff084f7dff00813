import Flowchart.Editor.View
import Flowchart.Layout
import Flowchart.Script.Chart
/-! Loading charts into an editor. -/
namespace Flowchart.Editor

variable {α : Type} [Scalar α]

/-- Show a diagram, laid out and in view. History starts over. -/
def load (e : Editor α) (d : Diagram α) : Except Layout.Fault (Outcome α Unit) :=
  let s := Scene.ofDiagram d
  match Layout.layout e.settings.layout s.diagram with
  | .error fault => .error fault
  | .ok arrangement =>
    let loaded := { e with
      scene := { s with diagram := arrangement.diagram }
      history := e.history.clear
      gesture := none
      textEdit := none }
    .ok (loaded.fit.andThen fun e => ⟨(), e, [e.historyChanged, e.dataChanged]⟩)

/-- Show the chart of a script. The answer is what the reader of the script complains about. -/
def loadSource (e : Editor α) (source : String) :
    Except Layout.Fault (Outcome α (List Script.Diagnostic)) :=
  let chart := Script.parse source
  (e.load chart.diagram).map fun o => o.map fun _ => chart.diagnostics

end Flowchart.Editor
