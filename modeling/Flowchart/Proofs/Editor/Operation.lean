import Flowchart.Editor.Changes
import Flowchart.Editor.Load
import Flowchart.Editor.Pointer
import Flowchart.Proofs.Layout.Arrange
/-! The operations of an editor as one type, and what they do to the numbers of blocks. -/
namespace Flowchart

inductive Operation (α : Type) where
  | load (d : Diagram α)
  | loadSource (source : String)
  | pointerDown (position : Point α)
  | pointerMove (position : Point α)
  | pointerUp (position : Point α)
  | doubleClick (position : Point α)
  | select (selection : Option Selection)
  | wheel (delta : α) (pointer : Point α)
  | zoomIn
  | zoomOut
  | fit
  | resizeView (width height : α)
  | beginText (id : Nat)
  | typeText (buffer : String)
  | key (k : EditKey)
  | commitText
  | cancelText
  | setEdgeLabel (index : Nat) (label : Option String)
  | moveNode (id : Nat) (x y : α)
  | resizeNode (id : Nat) (width height : α)
  | setShape (id : Nat) (shape : Option BlockKind)
  | setStyle (id : Nat) (style : Option Palette)
  | deleteNode (id : Nat)
  | deleteEdge (index : Nat)
  | deleteSelection
  | autoLayout
  | undo
  | redo
  | listen (kind : EventKind)
  | unlisten (listener : Nat)

namespace Outcome

variable {α β : Type}

def silent (e : Editor α) : Outcome α Unit := ⟨(), e, []⟩

def unit (o : Outcome α β) : Outcome α Unit := o.map fun _ => ()

/-- The listeners were told of a changed history. -/
def recorded (o : Outcome α β) : Bool := o.events.any fun event => event.kind == .historyChanged

theorem recorded_cleared (o : Outcome α β) (had : Bool) :
    recorded { o with events := o.events ++ Editor.cleared had } = o.recorded := by
  cases had <;> simp [recorded, Editor.cleared, Event.kind]

end Outcome

namespace Operation

variable {α : Type} [Metric α]

def perform (e : Editor α) : Operation α → Except Layout.Fault (Outcome α Unit)
  | .load d => e.load d
  | .loadSource source => (e.loadSource source).map Outcome.unit
  | .pointerDown position => .ok (.silent (e.pointerDown position))
  | .pointerMove position => .ok (.silent (e.pointerMove position))
  | .pointerUp position => .ok (e.pointerUp position)
  | .doubleClick position => .ok (e.doubleClick position).unit
  | .select selection => .ok (e.select selection)
  | .wheel delta pointer => .ok (e.wheel delta pointer)
  | .zoomIn => .ok e.zoomIn
  | .zoomOut => .ok e.zoomOut
  | .fit => .ok e.fit
  | .resizeView width height => .ok (.silent (e.resizeView width height))
  | .beginText id => .ok (e.beginText id).unit
  | .typeText buffer => .ok (.silent (e.typeText buffer))
  | .key k => .ok (e.key k).unit
  | .commitText => .ok e.commitText.unit
  | .cancelText => .ok (.silent e.cancelText)
  | .setEdgeLabel index label => .ok (e.setEdgeLabel index label).unit
  | .moveNode id x y => .ok (e.moveNode id x y).unit
  | .resizeNode id width height => .ok (e.resizeNode id width height).unit
  | .setShape id shape => .ok (e.setShape id shape).unit
  | .setStyle id style => .ok (e.setStyle id style).unit
  | .deleteNode id => .ok (e.deleteNode id).unit
  | .deleteEdge index => .ok (e.deleteEdge index).unit
  | .deleteSelection => .ok e.deleteSelection.unit
  | .autoLayout => e.autoLayout
  | .undo => .ok e.undo.unit
  | .redo => .ok e.redo.unit
  | .listen kind => .ok (.silent { e with listeners := e.listeners.on kind })
  | .unlisten listener =>
    .ok (.silent { e with listeners := (e.listeners.off? listener).getD e.listeners })

/-- Neither moves the pointer nor steps through the history nor loads. -/
def Plain : Operation α → Prop
  | .load _ | .loadSource _ => False
  | .pointerDown _ | .pointerMove _ | .pointerUp _ => False
  | .undo | .redo => False
  | _ => True

end Operation

namespace Diagram

variable {α : Type}

def Distinct (d : Diagram α) : Prop := (d.nodes.map (·.id)).Nodup

theorem ids_updateNode (d : Diagram α) {id : Nat} {change : Node α → Node α}
    (keeps : ∀ n : Node α, n.id = id → (change n).id = id) :
    (d.updateNode id change).nodes.map (·.id) = d.nodes.map (·.id) := by
  unfold updateNode
  split
  · next i found =>
    obtain ⟨inside, same, -⟩ := List.findIdx?_eq_some_iff_getElem.mp found
    refine List.ext_getElem? ?_
    intro j
    rw [List.getElem?_map, List.getElem?_map, List.getElem?_modify]
    by_cases here : i = j
    · subst here
      have named : d.nodes[i].id = id := by simpa using same
      simp [inside, keeps _ named, named]
    · simp [here]
  · rfl

/-- Distinct blocks can be arranged, and keep their numbers. -/
theorem Distinct.arrange [Scalar α] {d : Diagram α} (distinct : d.Distinct)
    (config : Layout.Config α) :
    ∃ a, Layout.arrange config d = .ok a ∧
      a.diagram.nodes.map (·.id) = d.nodes.map (·.id) := by
  obtain ⟨levels, -, arranged, -⟩ := Layout.arrange_ends config distinct
  exact ⟨_, arranged, Layout.place_ids ..⟩

end Diagram

namespace Editor

variable {α : Type}

/-- A change is a step to undo exactly if it is not refused. -/
theorem mutate_recorded (e : Editor α) (change : Scene α → Option (Scene α)) :
    (e.mutate change).recorded = (change e.scene).isSome := by
  unfold mutate
  cases change e.scene <;> rfl

theorem deleteNode_recorded (e : Editor α) (id : Nat) :
    (e.deleteNode id).recorded = (e.data.node? id).isSome := by
  refine (Outcome.recorded_cleared _ _).trans ((mutate_recorded e _).trans ?_)
  rw [Option.isSome_map, Scene.deleteNode?, Option.isSome_map]
  rfl

end Editor
end Flowchart
