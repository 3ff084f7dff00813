import Flowchart.Proofs.Editor.Mirror
import Flowchart.Proofs.Editor.Recovery
/-! Dragging a block, from the press to the release. While a block follows the pointer only the last
place of the pointer counts, and the data before are rebuilt from the place where the block was
grabbed. So a drag is one step to undo, whichever way the pointer went. -/
namespace Flowchart

/-- A changed block is found where it was, and so are the others. -/
theorem Diagram.node?_updateNode {α : Type} {change : Node α → Node α}
    (keeps : ∀ n, (change n).id = n.id) (d : Diagram α) (id other : Nat) :
    (d.updateNode id change).node? other =
      if other = id then (d.node? other).map change else d.node? other := by
  rw [updateNode_eq, node?, node?]
  induction d.nodes with
  | nil => simp [changeFirst]
  | cons n nodes ih =>
      by_cases named : n.id = id
      · by_cases same : other = id
        · simp [changeFirst, keeps, named, same]
        · simp [changeFirst, keeps, named, same, Ne.symm same]
      · by_cases here : n.id = other
        · simp [changeFirst, here, here ▸ named]
        · simp [changeFirst, named, here, ih]

namespace Editor

variable {α : Type} [Metric α]

section Drag
variable (e : Editor α) (n : Node α) (start place : Point α)

def grip (active : Bool) : Drag α :=
  ⟨n.id, ⟨n.box.x, n.box.y⟩, e.viewport.toLogical start, active⟩

/-- The block is pressed on and stays where it is. -/
def grabbed : Editor α :=
  { e with
    scene := { e.scene with drag := some (e.grip n start false) }
    gesture := some (.block start) }

/-- Where the block comes to with the pointer. -/
def carriedTo : Point α :=
  let origin := e.viewport.toLogical start
  let target := e.viewport.toLogical place
  ⟨n.box.x + (target.x - origin.x), n.box.y + (target.y - origin.y)⟩

/-- The data with the block there. -/
def carriedData : Diagram α :=
  e.data.updateNode n.id fun m =>
    m.moveTo (e.carriedTo n start place).x (e.carriedTo n start place).y

/-- The block has followed the pointer. -/
def dragged : Editor α :=
  { e with
    scene := { e.scene with
      diagram := e.carriedData n start place
      drag := some (e.grip n start true) }
    gesture := some (.block start) }

variable {e n start}

theorem pointerDown_eq_grabbed (hit : e.scene.nodeAt? (e.viewport.toLogical start) = some n.id)
    (found : e.data.node? n.id = some n) : e.pointerDown start = e.grabbed n start := by
  have lookup : e.scene.diagram.node? n.id = some n := found
  unfold pointerDown
  simp only [hit, Scene.startDrag?, lookup, Option.map_some, Option.getD_some]
  rfl

theorem pointerMove_grabbed :
    (e.grabbed n start).pointerMove place =
      if place.distance start < clickThreshold then e.grabbed n start
      else e.dragged n start place := by
  unfold pointerMove
  simp only [grabbed, grip, Bool.not_false, Bool.true_and, decide_eq_true_eq]
  rfl

/-- The block leaves the place where it is for the place that the pointer comes to. -/
theorem pointerMove_dragged (last : Point α) :
    (e.dragged n start last).pointerMove place = e.dragged n start place := by
  have again : (e.carriedData n start last).updateNode n.id (fun m =>
      m.moveTo (e.carriedTo n start place).x (e.carriedTo n start place).y) =
        e.carriedData n start place := Diagram.updateNode_moveTo_moveTo ..
  unfold pointerMove
  simp only [dragged, grip, Bool.not_true, Bool.false_and, Bool.false_eq_true, if_false, ← again]
  rfl

/-- Moves near the press do nothing. -/
theorem moves_grabbed {moves : List (Point α)}
    (near : ∀ p ∈ moves, p.distance start < clickThreshold) :
    moves.foldl pointerMove (e.grabbed n start) = e.grabbed n start := by
  induction moves with
  | nil => rfl
  | cons p moves ih =>
      obtain ⟨first, rest⟩ := List.forall_mem_cons.mp near
      rw [List.foldl_cons, pointerMove_grabbed, if_pos first, ih rest]

theorem moves_dragged (moves : List (Point α)) :
    moves.foldl pointerMove (e.dragged n start place) =
      e.dragged n start (moves.getLast?.getD place) := by
  induction moves generalizing place with
  | nil => rfl
  | cons p moves ih =>
      rw [List.foldl_cons, pointerMove_dragged, ih, List.getLast?_cons, Option.getD_some]

/-- Once a move goes farther, the block is where the last move leads. -/
theorem moves_eq_dragged {moves : List (Point α)}
    (far : ¬ ∀ p ∈ moves, p.distance start < clickThreshold) :
    ∃ last, moves.getLast? = some last ∧
      moves.foldl pointerMove (e.grabbed n start) = e.dragged n start last := by
  induction moves with
  | nil => exact absurd (List.forall_mem_nil _) far
  | cons p moves ih =>
      rw [List.foldl_cons, pointerMove_grabbed]
      by_cases near : p.distance start < clickThreshold
      · obtain ⟨last, final, same⟩ := ih fun rest => far (List.forall_mem_cons.mpr ⟨near, rest⟩)
        rw [if_pos near, List.getLast?_cons, final]
        exact ⟨last, rfl, same⟩
      · rw [if_neg near, moves_dragged]
        exact ⟨_, List.getLast?_cons, rfl⟩

theorem node?_carriedData (id : Nat) :
    (e.carriedData n start place).node? id =
      if id = n.id then
        (e.data.node? id).map fun m =>
          m.moveTo (e.carriedTo n start place).x (e.carriedTo n start place).y
      else e.data.node? id := by
  refine Diagram.node?_updateNode ?_ e.data n.id id
  exact fun _ => rfl

/-- Putting the block back gives the data before. -/
theorem carriedData_back (found : e.data.node? n.id = some n) :
    (e.carriedData n start place).updateNode n.id (fun m => m.moveTo n.box.x n.box.y) = e.data :=
  (Diagram.updateNode_moveTo_moveTo ..).trans (Diagram.updateNode_moveTo_self found)

end Drag

/-- A press that came to nothing but a click on a block. -/
structure Clicked (e : Editor α) (id : Nat) (o : Outcome α Unit) : Prop where
  data : o.editor.data = e.data
  history : o.editor.history = e.history
  selection : o.editor.selection = some (.node id)

/-- A block was carried to a place, which is one step to undo unless it was there already. -/
structure Dropped (e : Editor α) (n : Node α) (place : Point α) (o : Outcome α Unit) : Prop where
  placed : o.editor.data.node? n.id = some (n.moveTo place.x place.y)
  others : ∀ id ≠ n.id, o.editor.data.node? id = e.data.node? id
  data : o.editor.data = e.data.updateNode n.id fun m => m.moveTo place.x place.y
  edges : o.editor.data.edges = e.data.edges
  selection : o.editor.selection = e.selection
  recorded : o.recorded = !(place.x == n.box.x && place.y == n.box.y)
  history : o.editor.history = if o.recorded then e.history.record e.data else e.history
  undo : o.recorded = true → o.editor.undo.result = true ∧ o.editor.undo.editor.data = e.data

section Release
variable {e : Editor α} {n : Node α} {start : Point α}

theorem pointerUp_grabbed (found : e.data.node? n.id = some n) (stop : Point α) :
    Clicked e n.id ((e.grabbed n start).pointerUp stop) := by
  let released : Editor α := { e with scene := e.scene.endDrag, gesture := none }
  have made : (e.grabbed n start).pointerUp stop = released.select (some (.node n.id)) := rfl
  have quiet := quiet_select released (some (.node n.id))
  have valid : released.scene.isValid (.node n.id) = true :=
    Option.isSome_iff_exists.mpr ⟨n, found⟩
  rw [made]
  refine ⟨quiet.data, quiet.history, ?_⟩
  rw [selection_select]
  exact Option.filter_some_pos valid

theorem pointerUp_dragged (found : e.data.node? n.id = some n) (place stop : Point α) :
    Dropped e n (e.carriedTo n start place) ((e.dragged n start place).pointerUp stop) := by
  let released : Editor α :=
    { e with
      scene := { e.scene with diagram := e.carriedData n start place, drag := none }
      gesture := none }
  let target := e.carriedTo n start place
  have placed : released.data.node? n.id = some (n.moveTo target.x target.y) := by
    rw [← Option.map_some (f := fun m : Node α => m.moveTo target.x target.y), ← found]
    exact (node?_carriedData place n.id).trans (if_pos rfl)
  have back : released.data.updateNode n.id (fun m => m.moveTo n.box.x n.box.y) = e.data :=
    carriedData_back place found
  have made : (e.dragged n start place).pointerUp stop =
      if target.x == n.box.x && target.y == n.box.y then ⟨(), released, []⟩
      else
        let after := { released with history := released.history.record e.data }
        ⟨(), after, [after.historyChanged, after.dataChanged]⟩ := by
    rw [← back]
    change released.drop (e.grip n start true) = _
    simp only [drop, grip, placed]
    rfl
  have same : ((e.dragged n start place).pointerUp stop).editor.data = released.data := by
    rw [made]
    split <;> rfl
  constructor
  case placed => rw [same]; exact placed
  case others =>
    intro id different
    rw [same]
    exact (node?_carriedData place id).trans (if_neg different)
  case data => exact same
  case edges => rw [same]; exact Diagram.edges_updateNode ..
  case selection => rw [made]; split <;> rfl
  case recorded =>
    rw [made]
    cases target.x == n.box.x && target.y == n.box.y <;> rfl
  case history =>
    rw [made]
    cases target.x == n.box.x && target.y == n.box.y <;> rfl
  case undo =>
    rw [made]
    cases target.x == n.box.x && target.y == n.box.y with
    | true => exact fun told => absurd told Bool.false_ne_true
    | false => exact fun _ => ⟨rfl, rfl⟩

end Release

/-- A press on a block, any moves and the release select the block if the pointer stays near, and
leave all else alone. Otherwise they carry the block to where the last move leads, and one undo
brings back the data before. -/
theorem pointerUp_pressed {e : Editor α} {start : Point α} {id : Nat}
    (hit : e.scene.nodeAt? (e.viewport.toLogical start) = some id) (moves : List (Point α))
    (stop : Point α) :
    let o := (moves.foldl pointerMove (e.pointerDown start)).pointerUp stop
    ∃ n, e.data.node? id = some n ∧
      ((∀ p ∈ moves, p.distance start < clickThreshold) → Clicked e id o) ∧
      ((¬ ∀ p ∈ moves, p.distance start < clickThreshold) →
        ∃ last, moves.getLast? = some last ∧ Dropped e n (e.carriedTo n start last) o) := by
  intro o
  obtain ⟨n, found⟩ := node?_of_nodeAt? hit
  obtain rfl : n.id = id := by simpa using List.find?_some found
  have pressed := pointerDown_eq_grabbed hit found
  refine ⟨n, found, ?_, ?_⟩
  · intro near
    have made : o = (e.grabbed n start).pointerUp stop := by
      rw [← moves_grabbed near, ← pressed]
    exact made ▸ pointerUp_grabbed found stop
  · intro far
    obtain ⟨last, final, moved⟩ := @moves_eq_dragged α _ e n start moves far
    have made : o = (e.dragged n start last).pointerUp stop := by
      rw [← moved, ← pressed]
    exact ⟨last, final, made ▸ pointerUp_dragged found last stop⟩

/-- A block is carried away and almost all the way back. -/
theorem pointerUp_pressed_returning :
    let start : Point Float := ⟨500, 400⟩
    let moves : List (Point Float) := [⟨501, 400⟩, ⟨600, 400⟩, ⟨501, 400⟩]
    ∃ o, (ofViewport .standard : Editor Float).loadSource "ts()" = .ok o ∧
      o.editor.scene.nodeAt? (o.editor.viewport.toLogical start) = some 0 ∧
      (¬ ∀ p ∈ moves, p.distance start < clickThreshold) ∧
      let after := (moves.foldl pointerMove (o.editor.pointerDown start)).pointerUp start
      after.recorded = true ∧
        ∃ n, o.editor.data.node? 0 = some n ∧
          Dropped o.editor n (o.editor.carriedTo n start ⟨501, 400⟩) after := by
  intro start moves
  obtain ⟨o, loaded, hit, far, told⟩ := @exists_of_decide _ _
    ((ofViewport .standard : Editor Float).loadSource "ts()")
    (fun o =>
      o.editor.scene.nodeAt? (o.editor.viewport.toLogical start) = some 0 ∧
        (¬ ∀ p ∈ moves, p.distance start < clickThreshold) ∧
        ((moves.foldl pointerMove (o.editor.pointerDown start)).pointerUp start).recorded = true)
    _ (by decide +kernel)
  obtain ⟨n, found, -, dropped⟩ := pointerUp_pressed hit moves start
  obtain ⟨last, final, dropped⟩ := dropped far
  cases final
  exact ⟨o, loaded, hit, far, told, n, found, dropped⟩

end Editor
end Flowchart
