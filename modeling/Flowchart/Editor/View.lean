import Flowchart.Editor.Basic
/-! Zooming, fitting and resizing the view of an editor. -/
namespace Flowchart.Editor

variable {α : Type} [Scalar α]

/-- Factors of one step of the wheel and of the zoom commands. -/
def wheelIn : α := 1.08
def wheelOut : α := 0.92
def stepIn : α := 1.2
def stepOut : α := 0.83

def zoomed (e : Editor α) (view : Option (Viewport α)) : Outcome α Unit :=
  match view with
  | none => ⟨(), e, []⟩
  | some viewport => ⟨(), { e with viewport }, [.zoomChanged viewport.scale]⟩

def wheel (e : Editor α) (delta : α) (pointer : Point α) : Outcome α Unit :=
  e.zoomed (e.viewport.zoomAt? (if delta < 0 then wheelIn else wheelOut) pointer)

def zoomIn (e : Editor α) : Outcome α Unit := e.zoomed (e.viewport.zoomCentered? stepIn)

def zoomOut (e : Editor α) : Outcome α Unit := e.zoomed (e.viewport.zoomCentered? stepOut)

def fit (e : Editor α) : Outcome α Unit := e.zoomed (e.data.bounds?.map e.viewport.fit)

def resizeView (e : Editor α) (width height : α) : Editor α :=
  { e with viewport := e.viewport.resize width height }

end Flowchart.Editor
