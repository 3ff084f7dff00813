import Flowchart.Editor.Pointer
/-! What the pointer does to scene, gesture and history: pressing grabs a block or the view, moving
carries a grabbed block along, and letting go clicks, finds the block back where it was grabbed, or
records where it was. -/
namespace Flowchart.Editor

variable {α : Type}

section Press
variable [Scalar α]

/-- The editor after a press of the pointer. -/
inductive Press (e after : Editor α) : Prop where
  | grab {drag : Drag α} {n : Node α} {place : Point α} (found : e.data.node? drag.node = some n)
      (origin : drag.origin = ⟨n.box.x, n.box.y⟩) (resting : drag.active = false)
      (history : after.history = e.history) (gesture : after.gesture = some (.block place))
      (scene : after.scene = { e.scene with drag := some drag })
  | pan {place : Point α} (history : after.history = e.history)
      (gesture : after.gesture = some (.pan place place)) (scene : after.scene = e.scene)

theorem node?_of_nodeAt? {s : Scene α} {p : Point α} {id : Nat} (hit : s.nodeAt? p = some id) :
    ∃ n, s.diagram.node? id = some n := by
  obtain ⟨n, found, rfl⟩ := Option.map_eq_some_iff.mp hit
  have member : n ∈ s.diagram.nodes := List.mem_reverse.mp (List.mem_of_find?_eq_some found)
  refine Option.isSome_iff_exists.mp (List.find?_isSome.mpr ⟨n, member, ?_⟩)
  exact beq_self_eq_true n.id

theorem press_pointerDown (e : Editor α) (position : Point α) :
    Press e (e.pointerDown position) := by
  unfold pointerDown
  simp only
  split
  · next id hit =>
    obtain ⟨n, found⟩ := node?_of_nodeAt? hit
    let drag : Drag α := ⟨id, ⟨n.box.x, n.box.y⟩, e.viewport.toLogical position, false⟩
    refine @Press.grab α e _ drag n position found rfl rfl rfl rfl ?_
    simp only [Scene.startDrag?, found, Option.map_some, Option.getD_some, drag]
  · exact .pan rfl rfl rfl

theorem history_pointerDown (e : Editor α) (position : Point α) :
    (e.pointerDown position).history = e.history := by
  cases press_pointerDown e position <;> assumption

end Press

/-- The editor after a motion of the pointer. A block follows only where it was pressed on. -/
inductive Motion [Scalar α] (e after : Editor α) : Prop where
  | rest (history : after.history = e.history) (scene : after.scene = e.scene)
      (gesture : ∀ start, after.gesture = some (.block start) ↔ e.gesture = some (.block start))
  | follow {start place : Point α} {drag : Drag α} (pressed : e.gesture = some (.block start))
      (held : e.scene.drag = some drag) (history : after.history = e.history)
      (gesture : after.gesture = e.gesture) (scene : after.scene = follow e.scene drag place)

/-- The outcome of letting the pointer go. -/
inductive Release [Scalar α] (e : Editor α) (o : Outcome α Unit) : Prop where
  /-- No block was carried; something may be selected. -/
  | rest {s : Scene α} (history : o.editor.history = e.history) (gesture : o.editor.gesture = none)
      (kept : s = e.scene ∧ (∀ start, e.gesture ≠ some (.block start)) ∨
        s = e.scene.endDrag ∧ ∀ drag, e.scene.drag = some drag → drag.active = false)
      (scene : o.editor.scene = s ∨ ∃ selection, o.editor.scene = s.select selection)
  | back {drag : Drag α} (held : e.scene.drag = some drag)
      (history : o.editor.history = e.history) (gesture : o.editor.gesture = none)
      (same : ∀ n, e.data.node? drag.node = some n →
        (n.box.x == drag.origin.x) = true ∧ (n.box.y == drag.origin.y) = true)
      (scene : o.editor.scene = e.scene.endDrag)
  | moved {drag : Drag α} (held : e.scene.drag = some drag) (gesture : o.editor.gesture = none)
      (history : o.editor.history = e.history.record
        (e.data.updateNode drag.node fun n => n.moveTo drag.origin.x drag.origin.y))
      (scene : o.editor.scene = e.scene.endDrag)

variable [Metric α] (e : Editor α) (position : Point α)

theorem motion_pointerMove : Motion e (e.pointerMove position) := by
  unfold pointerMove
  split
  · next start pressed =>
    split
    · exact .rest rfl rfl fun _ => .rfl
    · next drag held =>
      split
      · exact .rest rfl rfl fun _ => .rfl
      · exact .follow pressed held rfl rfl rfl
  · next start last panned => exact .rest rfl rfl fun place => by simp [panned]
  · exact .rest rfl rfl fun _ => .rfl

theorem history_pointerMove : (e.pointerMove position).history = e.history := by
  cases motion_pointerMove e position <;> assumption

theorem release_select {s : Scene α} (selection : Option Selection)
    (kept : s = e.scene ∧ (∀ start, e.gesture ≠ some (.block start)) ∨
      s = e.scene.endDrag ∧ ∀ drag, e.scene.drag = some drag → drag.active = false) :
    Release e (select { e with gesture := none, scene := s } selection) := by
  unfold select
  simp only
  split
  · exact .rest rfl rfl kept (.inl rfl)
  · exact .rest rfl rfl kept (.inr ⟨selection, rfl⟩)

theorem release_drop {drag : Drag α} (held : e.scene.drag = some drag) :
    Release e (drop { e with gesture := none, scene := e.scene.endDrag } drag) := by
  unfold drop
  split
  · next absent =>
    refine .back held rfl rfl ?_ rfl
    intro n found
    exact absurd (absent.symm.trans found) nofun
  · next n found =>
    split
    · next same =>
      refine .back held rfl rfl ?_ rfl
      intro m other
      obtain rfl := Option.some.inj (found.symm.trans other)
      simpa using same
    · exact .moved held rfl rfl rfl

theorem release_pointerUp : Release e (e.pointerUp position) := by
  unfold pointerUp
  simp only
  split
  · split
    · next free =>
      refine .rest (s := e.scene.endDrag) rfl rfl (.inr ⟨rfl, ?_⟩) (.inl ?_)
      · intro drag held
        exact absurd (free.symm.trans held) nofun
      · rw [Scene.endDrag, ← free]
    · next drag held =>
      split
      · exact release_drop e held
      · next active =>
        refine release_select e _ (.inr ⟨rfl, ?_⟩)
        intro other same
        obtain rfl := Option.some.inj (held.symm.trans same)
        exact Bool.not_eq_true _ ▸ active
  · next start last panned =>
    have kept : ∀ place, e.gesture ≠ some (.block place) := by
      intro place pressed
      exact absurd (panned.symm.trans pressed) nofun
    split
    · exact release_select e _ (.inl ⟨rfl, kept⟩)
    · exact .rest rfl rfl (.inl ⟨rfl, kept⟩) (.inl rfl)
  · next free =>
    refine .rest rfl rfl (.inl ⟨rfl, ?_⟩) (.inl rfl)
    intro place pressed
    exact absurd (free.symm.trans pressed) nofun

theorem Release.free {e : Editor α} {o : Outcome α Unit} (release : Release e o) :
    o.editor.gesture = none := by
  cases release <;> assumption

end Flowchart.Editor
