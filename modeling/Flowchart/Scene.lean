import Flowchart.Diagram
/-! The scene of an editor: a diagram, what is selected in it, and a block on the move. -/
namespace Flowchart

inductive Selection where
  | node (id : Nat)
  | edge (index : Nat)
  deriving DecidableEq, Repr

structure Drag (α : Type) where
  node : Nat
  /-- Place of the block when it was grabbed. -/
  origin : Point α
  /-- Place of the pointer then. -/
  grab : Point α
  /-- Has the pointer moved far enough for the block to follow? -/
  active : Bool
  deriving BEq, DecidableEq

structure Scene (α : Type) where
  diagram : Diagram α := {}
  selection : Option Selection := none
  drag : Option (Drag α) := none
  deriving BEq, DecidableEq

namespace Scene

variable {α : Type}

/-- A scene with all blocks of a diagram. Connections that lack an end are left out, and of equal
ones all but the first. -/
def ofDiagram (d : Diagram α) : Scene α :=
  { diagram := d.edges.foldl (fun kept e => (kept.addEdge? e).getD kept) ⟨d.nodes, []⟩ }

def restore (_ : Scene α) (d : Diagram α) : Scene α := { diagram := d }

def isEmpty (s : Scene α) : Bool := s.diagram.nodes.isEmpty

def edge? (s : Scene α) (index : Nat) : Option Edge := s.diagram.edges[index]?

def idLimit : Nat := Nat.pow 2 64

/-- A number above all that are taken. The successor of the last number is the first one. -/
def freshId (s : Scene α) : Nat :=
  s.diagram.nodes.foldl (fun id n => max id ((n.id + 1) % idLimit)) 0

def addNode (s : Scene α) (n : Node α) : Scene α :=
  { s with diagram := { s.diagram with nodes := s.diagram.nodes ++ [{ n with id := s.freshId }] } }

def addEdge? (s : Scene α) (e : Edge) : Option (Scene α) :=
  (s.diagram.addEdge? e).map fun d => { s with diagram := d }

def updateNode (s : Scene α) (id : Nat) (change : Node α → Node α) : Scene α :=
  { s with diagram := s.diagram.updateNode id change }

def updateEdge (s : Scene α) (index : Nat) (change : Edge → Edge) : Scene α :=
  { s with diagram := { s.diagram with edges := s.diagram.edges.modify index change } }

/-- Take out the first block with a number, and every connection that touches the number. -/
def deleteNode? (s : Scene α) (id : Nat) : Option (Node α × Scene α) :=
  (s.diagram.node? id).map fun n =>
    let nodes := s.diagram.nodes.eraseP (·.id == id)
    (n, { diagram := ⟨nodes, s.diagram.edges.filter (!·.touches id)⟩ })

def deleteEdge? (s : Scene α) (index : Nat) : Option (Edge × Scene α) :=
  (s.edge? index).map fun e =>
    (e, { s with
      diagram := { s.diagram with edges := s.diagram.edges.eraseIdx index }
      selection := none })

def nodeAt? [Scalar α] (s : Scene α) (p : Point α) : Option Nat :=
  (s.diagram.nodes.reverse.find? (·.box.contains p)).map (·.id)

def isValid (s : Scene α) : Selection → Bool
  | .node id => (s.diagram.node? id).isSome
  | .edge index => index < s.diagram.edges.length

def select (s : Scene α) (selection : Option Selection) : Scene α :=
  { s with selection := selection.filter s.isValid }

def startDrag? (s : Scene α) (id : Nat) (grab : Point α) : Option (Scene α) :=
  (s.diagram.node? id).map fun n =>
    { s with drag := some ⟨id, ⟨n.box.x, n.box.y⟩, grab, false⟩ }

def endDrag (s : Scene α) : Scene α := { s with drag := none }

end Scene
end Flowchart
