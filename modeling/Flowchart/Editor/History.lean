/-! Undo and redo: the states before and after the current one, the nearest first. -/
namespace Flowchart

structure History (σ : Type) where
  undo : List σ := []
  redo : List σ := []
  limit : Nat := 50
  deriving DecidableEq, Repr

namespace History

variable {σ : Type}

def ofLimit (limit : Nat) : History σ := { limit := max limit 1 }

/-- Remember the state before a change. What was undone is gone, and at the limit the oldest state
is dropped. -/
def record (h : History σ) (before : σ) : History σ :=
  let kept := if h.undo.length == h.limit then h.undo.dropLast else h.undo
  { h with undo := before :: kept, redo := [] }

def undo? (h : History σ) (current : σ) : Option (σ × History σ) :=
  match h.undo with
  | [] => none
  | previous :: rest => some (previous, { h with undo := rest, redo := current :: h.redo })

def redo? (h : History σ) (current : σ) : Option (σ × History σ) :=
  match h.redo with
  | [] => none
  | next :: rest => some (next, { h with undo := current :: h.undo, redo := rest })

def canUndo (h : History σ) : Bool := !h.undo.isEmpty

def canRedo (h : History σ) : Bool := !h.redo.isEmpty

def clear (h : History σ) : History σ := { h with undo := [], redo := [] }

end History
end Flowchart
