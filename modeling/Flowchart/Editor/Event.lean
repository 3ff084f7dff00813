import Flowchart.Scene
import Flowchart.Script.LabelEdit
/-! What an editor tells its host. -/
namespace Flowchart

inductive Event (α : Type) where
  | zoomChanged (scale : α)
  | selectionChanged (selection : Option Selection)
  | historyChanged (canUndo canRedo : Bool)
  /-- A label was changed; the host can change its source likewise. -/
  | nodeEdited (edit : Script.LabelEdit)
  | edgeLabelRequested (edge : Nat) (current : Option String)
  | dataChanged (data : Diagram α)
  deriving BEq, DecidableEq

inductive EventKind where
  | zoomChanged
  | selectionChanged
  | historyChanged
  | nodeEdited
  | edgeLabelRequested
  | dataChanged
  deriving DecidableEq, Repr

def Event.kind {α : Type} : Event α → EventKind
  | .zoomChanged _ => .zoomChanged
  | .selectionChanged _ => .selectionChanged
  | .historyChanged _ _ => .historyChanged
  | .nodeEdited _ => .nodeEdited
  | .edgeLabelRequested _ _ => .edgeLabelRequested
  | .dataChanged _ => .dataChanged

namespace EventKind

def all : List EventKind :=
  [.zoomChanged, .selectionChanged, .historyChanged, .nodeEdited, .edgeLabelRequested, .dataChanged]

def name : EventKind → String
  | .zoomChanged => "zoom_changed"
  | .selectionChanged => "selection_changed"
  | .historyChanged => "history_changed"
  | .nodeEdited => "node_edited"
  | .edgeLabelRequested => "edge_label_requested"
  | .dataChanged => "data_changed"

def ofName? (name : String) : Option EventKind := all.find? fun kind => kind.name == name

theorem mem_all (kind : EventKind) : kind ∈ all := by cases kind <;> decide

end EventKind
end Flowchart
