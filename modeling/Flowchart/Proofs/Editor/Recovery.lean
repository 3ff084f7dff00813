import Flowchart.Proofs.Editor.Consistency
import Flowchart.Proofs.Places
/-! Undoing everything. The oldest data in the history match the data that were loaded. While the
history is empty it is the data shown that match them, but for a block that follows the pointer:
that one has to be put back where it was grabbed. So nothing but letting the block go may be
recorded then, or else its move is never undone. -/
namespace Flowchart

namespace History

theorem undo_record_of_lt {σ : Type} {h : History σ} (room : h.undo.length < h.limit) (before : σ) :
    (h.record before).undo = before :: h.undo := by
  rw [record, if_neg (by simpa using room.ne)]

end History

namespace Editor

variable {α : Type}

section Undone
variable (e : Editor α)

theorem undo_result_iff : e.undo.result = true ↔ e.history.undo ≠ [] := by
  unfold undo History.undo?
  cases e.history.undo <;> simp [restore]

theorem undo_undo : e.undo.editor.history.undo = e.history.undo.tail := by
  unfold undo History.undo?
  cases past : e.history.undo <;> simp [restore, past]

theorem undone_undo (n : Nat) : (e.undone n).history.undo = e.history.undo.drop n := by
  induction n with
  | zero => rfl
  | succ n ih => rw [undone, undo_undo, ih, List.tail_drop]

theorem data_undo {previous : Diagram α} {rest : List (Diagram α)}
    (past : e.history.undo = previous :: rest) : e.undo.editor.data = previous := by
  rw [undo, History.undo?, past]
  rfl

/-- The last undo that succeeds shows the oldest data. -/
theorem data_undone_length :
    (e.undone e.history.undo.length).data = e.history.undo.getLast?.getD e.data := by
  cases past : e.history.undo.length with
  | zero =>
      rw [List.length_eq_zero_iff.mp past]
      rfl
  | succ n =>
      have inside : n < e.history.undo.length := past ▸ Nat.lt_succ_self n
      have left : (e.undone n).history.undo =
          e.history.undo[n] :: e.history.undo.drop (n + 1) := by
        rw [undone_undo, List.drop_eq_getElem_cons inside]
      rw [undone, data_undo _ left, List.getLast?_eq_getElem?, past, Nat.add_sub_cancel,
        List.getElem?_eq_getElem inside, Option.getD_some]

theorem restore_recorded (history : History (Diagram α)) (d : Diagram α) :
    (e.restore history d).recorded = true := by
  simp [restore, Outcome.recorded, Event.kind, historyChanged]

end Undone

/-- A block follows the pointer. -/
def Held (e : Editor α) : Prop :=
  ∃ start drag, e.gesture = some (.block start) ∧ e.scene.drag = some drag ∧ drag.active = true

theorem not_held_of_free {e : Editor α} (free : e.gesture = none) : ¬ e.Held := by
  rintro ⟨start, drag, pressed, -⟩
  exact absurd (free.symm.trans pressed) nofun

/-- The data with the grabbed block back where it was grabbed. -/
def settled (e : Editor α) : Diagram α :=
  match e.scene.drag with
  | none => e.data
  | some drag => e.data.updateNode drag.node fun n => n.moveTo drag.origin.x drag.origin.y

theorem settled_of_free {e : Editor α} (free : e.scene.drag = none) : e.settled = e.data := by
  rw [settled, free]

theorem settled_of_drag {e : Editor α} {drag : Drag α} (held : e.scene.drag = some drag) :
    e.settled = e.data.updateNode drag.node fun n => n.moveTo drag.origin.x drag.origin.y := by
  rw [settled, held]

theorem settled_congr {e after : Editor α} (diagram : after.data = e.data)
    (drag : after.scene.drag = e.scene.drag) : after.settled = e.settled := by
  rw [settled, settled, diagram, drag]

/-- A grabbed block is not where it was grabbed, and there is nothing to undo. -/
def Pending (e : Editor α) : Prop := e.history.undo = [] ∧ e.settled ≠ e.data

section Scalar
variable [Scalar α]

/-- Undoing everything leads to the first data. -/
structure Recoverable (first : Diagram α) (e : Editor α) : Prop where
  oldest : ∀ d, e.history.undo.getLast? = some d → d.Matches first
  settled : e.history.undo = [] → e.settled.Matches first
  loose : e.history.undo = [] → ¬ e.Held → e.data.Matches first

/-- Nothing is loaded, and the history has room for another step. -/
structure Continues (e : Editor α) (operation : Operation α) : Prop where
  keeps : ∀ d, ¬ operation.Loads d
  room : e.history.undo.length < e.history.limit

theorem Continues.proper {e : Editor α} {operation : Operation α}
    (continues : Continues e operation) : operation.Proper := by
  cases operation with
  | load d => exact absurd rfl (continues.keeps d)
  | _ => trivial

/-- While a move is pending the pointer is not pressed again, and nothing is recorded but that the
block is let go. -/
structure Orderly (e : Editor α) (operation : Operation α) (o : Outcome α Unit) : Prop
    extends Continues e operation where
  pressed : e.Pending → ∀ position, operation ≠ .pointerDown position
  recorded : e.Pending → o.recorded = true → ∃ position, operation = .pointerUp position

/-- Undo succeeds until the first data are back, and then fails. -/
def Recovers (first : Diagram α) (e : Editor α) : Prop :=
  ∃ n, (∀ m < n, (e.undone m).undo.result = true) ∧ (e.undone n).undo.result = false ∧
    (e.undone n).data.Matches first ∧ (LawfulBEq α → (e.undone n).data = first)

section Recoverable
variable {first : Diagram α} {e after : Editor α} (recoverable : e.Recoverable first)
include recoverable

theorem Recoverable.recovers (loose : ¬ e.Held) : Recovers first e := by
  have restored : (e.undone e.history.undo.length).data.Matches first := by
    rw [data_undone_length]
    cases past : e.history.undo.getLast? with
    | none => exact recoverable.loose (List.getLast?_eq_none_iff.mp past) loose
    | some d => exact recoverable.oldest d past
  refine ⟨e.history.undo.length, ?_, ?_, restored, fun _ => restored.eq⟩
  · intro m inside
    rw [undo_result_iff, undone_undo]
    exact fun none => absurd (List.drop_eq_nil_iff.mp none) (Nat.not_le_of_lt inside)
  · rw [← Bool.not_eq_true, undo_result_iff, undone_undo, List.drop_length, not_not]

theorem Recoverable.data_matches (calm : ¬ e.Pending) (past : e.history.undo = []) :
    e.data.Matches first := by
  have same : e.settled = e.data := not_not.mp fun moved => calm ⟨past, moved⟩
  exact same ▸ recoverable.settled past

theorem Recoverable.congr (history : after.history = e.history)
    (settled : e.history.undo = [] → after.settled.Matches first)
    (loose : e.history.undo = [] → ¬ after.Held → after.data.Matches first) :
    after.Recoverable first where
  oldest d last := recoverable.oldest d (by rwa [history] at last)
  settled past := settled (by rwa [history] at past)
  loose past := loose (by rwa [history] at past)

/-- With other data on top, the oldest ones are these or the same as before. -/
theorem Recoverable.push {before : Diagram α} (past : after.history.undo = before :: e.history.undo)
    (found : e.history.undo = [] → before.Matches first) : after.Recoverable first where
  oldest d last := by
    rw [past, List.getLast?_cons] at last
    obtain rfl := Option.some.inj last
    cases oldest : e.history.undo.getLast? with
    | none => exact found (List.getLast?_eq_none_iff.mp oldest)
    | some d => exact recoverable.oldest d oldest
  settled empty := absurd (past.symm.trans empty) (List.cons_ne_nil _ _)
  loose empty := absurd (past.symm.trans empty) (List.cons_ne_nil _ _)

theorem Recoverable.undo : e.undo.editor.Recoverable first := by
  unfold Editor.undo
  split
  · next previous later found =>
    obtain ⟨rest, past, rfl⟩ := History.undo?_eq_some_iff.mp found
    have oldest := recoverable.oldest
    rw [past] at oldest
    have last : rest = [] → previous.Matches first := by
      rintro rfl
      exact oldest previous rfl
    refine ⟨?_, last, fun past _ => last past⟩
    intro d known
    refine oldest d ?_
    rw [List.getLast?_cons, show rest.getLast? = some d from known, Option.getD_some]
  · exact recoverable

theorem Recoverable.redo (calm : e.redo.recorded = true → ¬ e.Pending) :
    e.redo.editor.Recoverable first := by
  unfold Editor.redo at calm ⊢
  split
  · next next later found =>
    simp only [found] at calm
    obtain ⟨rest, -, rfl⟩ := History.redo?_eq_some_iff.mp found
    exact recoverable.push rfl (recoverable.data_matches (calm (restore_recorded e _ _)))
  · exact recoverable

theorem Recoverable.press (calm : ¬ e.Pending) (press : Press e after) :
    after.Recoverable first := by
  have shown := recoverable.data_matches calm
  cases press with
  | @grab drag n place found origin resting history gesture scene =>
      have same : after.data = e.data := by rw [data, scene, data]
      refine recoverable.congr history ?_ fun past _ => same ▸ shown past
      have held : after.scene.drag = some drag := congrArg Scene.drag scene
      rw [settled_of_drag held, same, origin, Diagram.updateNode_moveTo_self found]
      exact shown
  | pan history gesture scene =>
      have same : after.data = e.data := congrArg Scene.diagram scene
      refine recoverable.congr history ?_ fun past _ => same ▸ shown past
      rw [settled_congr same (congrArg Scene.drag scene)]
      exact recoverable.settled

theorem Recoverable.move (motion : Motion e after) : after.Recoverable first := by
  cases motion with
  | rest history scene gesture =>
      have same : after.data = e.data := congrArg Scene.diagram scene
      refine recoverable.congr history ?_ ?_
      · rw [settled_congr same (congrArg Scene.drag scene)]
        exact recoverable.settled
      · intro past loose
        rw [same]
        refine recoverable.loose past ?_
        rintro ⟨start, drag, pressed, held, active⟩
        exact loose ⟨start, drag, (gesture start).mpr pressed, scene ▸ held, active⟩
  | @follow start place drag pressed held history gesture scene =>
      have dragged : after.scene.drag = some { drag with active := true } :=
        congrArg Scene.drag scene
      refine recoverable.congr history ?_ ?_
      · -- back where it was grabbed, no matter how far it was carried
        intro past
        have shown : after.data = _ := congrArg Scene.diagram scene
        rw [settled_of_drag dragged, shown]
        have settled := recoverable.settled past
        rw [settled_of_drag held] at settled
        exact (Diagram.updateNode_moveTo_moveTo ..).symm ▸ settled
      · intro _ loose
        exact absurd ⟨start, _, gesture.trans pressed, dragged, rfl⟩ loose

theorem Recoverable.alter {operation : Operation α} {o : Outcome α Unit}
    (alters : Alters e operation o) (room : e.history.undo.length < e.history.limit)
    (calm : o.recorded = true → ¬ e.Pending) : o.editor.Recoverable first := by
  cases alters with
  | rest _ history gesture scene =>
      obtain ⟨shown, drag⟩ := kept_of_selected scene
      have shown : o.editor.data = e.data := shown
      refine recoverable.congr history ?_ ?_
      · rw [settled_congr shown drag]
        exact recoverable.settled
      · rw [shown, Held, gesture, drag]
        exact recoverable.loose
  | edit recorded history _ _ =>
      have past : o.editor.history.undo = e.data :: e.history.undo := by
        rw [history, History.undo_record_of_lt room]
      exact recoverable.push past (recoverable.data_matches (calm recorded))
  | @settle a _ history gesture arranged same scene =>
      have shown : o.editor.data = a.diagram := congrArg Scene.diagram scene
      have drag : o.editor.scene.drag = e.scene.drag := by rw [scene]
      have settles := Layout.matches_of_beq arranged same
      refine recoverable.congr history ?_ ?_
      · intro past
        have settled := recoverable.settled past
        cases grabbed : e.scene.drag with
        | none =>
            rw [settled_of_free grabbed] at settled
            rw [settled_of_free (drag.trans grabbed), shown]
            exact settles.trans settled
        | some held =>
            rw [settled_of_drag grabbed] at settled
            rw [settled_of_drag (drag.trans grabbed), shown]
            exact (settles.updateNode ..).trans settled
      · intro past
        rw [shown, Held, gesture, drag]
        exact fun loose => settles.trans (recoverable.loose past loose)

theorem Recoverable.release {o : Outcome α Unit} (release : Release e o)
    (room : e.history.undo.length < e.history.limit) : o.editor.Recoverable first := by
  cases release with
  | @rest s history gesture kept scene =>
      have loose : ¬ e.Held := by
        rintro ⟨start, drag, pressed, held, active⟩
        rcases kept with ⟨-, unpressed⟩ | ⟨-, inactive⟩
        · exact unpressed start pressed
        · exact absurd active (Bool.not_eq_true _ ▸ inactive drag held)
      obtain ⟨diagram, drag⟩ := kept_of_selected scene
      have shown : o.editor.data = e.data := by
        rcases kept with ⟨rfl, -⟩ | ⟨rfl, -⟩
        · exact diagram
        · exact diagram
      have dragged : o.editor.scene.drag = e.scene.drag ∨ o.editor.scene.drag = none := by
        rcases kept with ⟨rfl, -⟩ | ⟨rfl, -⟩
        · exact .inl drag
        · exact .inr drag
      refine recoverable.congr history ?_ fun past _ => shown ▸ recoverable.loose past loose
      intro past
      rcases dragged with same | free
      · exact settled_congr shown same ▸ recoverable.settled past
      · rw [settled_of_free free, shown]
        exact recoverable.loose past loose
  | @back drag held history gesture same scene =>
      have shown : o.editor.data = e.data := by rw [data, scene]; rfl
      have settles : e.history.undo = [] → e.data.Matches first := by
        intro past
        have settled := recoverable.settled past
        rw [settled_of_drag held] at settled
        exact (Diagram.matches_updateNode same).trans settled
      refine recoverable.congr history ?_ ?_
      · rw [settled_of_free (congrArg Scene.drag scene), shown]
        exact settles
      · rw [shown]
        exact fun past _ => settles past
  | @moved drag held gesture history scene =>
      have past : o.editor.history.undo = e.settled :: e.history.undo := by
        rw [history, History.undo_record_of_lt room, settled_of_drag held]
      exact recoverable.push past recoverable.settled

end Recoverable

theorem recoverable_load {e : Editor α} {d : Diagram α} {o : Outcome α Unit}
    (loaded : e.load d = .ok o) : o.editor.Recoverable o.editor.data := by
  obtain ⟨a, -, scene, history, -⟩ := exists_of_load loaded
  have past : o.editor.history.undo = [] := congrArg History.undo history
  constructor
  case oldest =>
    intro d last
    rw [past] at last
    cases last
  case settled =>
    intro _
    rw [settled_of_free (by rw [scene])]
    exact .refl _
  case loose => exact fun _ _ => .refl _

end Scalar

section Run
variable [Metric α] {first : Diagram α} {e now start : Editor α} {operation : Operation α}
  {o : Outcome α Unit}

theorem Step.recoverable (step : Step e operation o) (orderly : Orderly e operation o)
    (recoverable : e.Recoverable first) : o.editor.Recoverable first := by
  cases step with
  | alter holding alters =>
      refine recoverable.alter alters orderly.room ?_
      intro recorded pending
      obtain ⟨position, asked⟩ := orderly.recorded pending recorded
      exact holding position asked
  | press asked press =>
      exact recoverable.press (fun pending => orderly.pressed pending _ asked) press
  | move motion => exact recoverable.move motion
  | release _ release => exact recoverable.release release orderly.room
  | undo made => exact made ▸ recoverable.undo
  | redo asked made =>
      subst made asked
      refine recoverable.redo ?_
      intro recorded pending
      obtain ⟨position, asked⟩ := orderly.recorded pending recorded
      cases asked
  | load asked _ => exact absurd asked (orderly.keeps _)

theorem Run.recoverable (run : Run Orderly start now) (recoverable : start.Recoverable first) :
    now.Recoverable first := by
  induction run with
  | start => exact recoverable
  | step _ permitted performed ih => exact (step_of_perform performed).recoverable permitted ih

/-- After a script is loaded every operation can be done, and undo brings the loaded data back once
the pointer is let go, as long as the history never ran out of room and no pending move was
interrupted. -/
theorem loadSource_recovers (e : Editor α) (source : String) :
    ∃ o, e.loadSource source = .ok o ∧ ∀ now, Run Orderly o.editor now →
      (∀ operation : Operation α, operation.Proper →
        ∃ later, operation.perform now = .ok later) ∧
      ∀ position, now.history.undo.length < now.history.limit →
        Recovers o.editor.data (now.pointerUp position).editor := by
  obtain ⟨o, loaded, -⟩ := loadSource_fresh e source
  refine ⟨o, loaded, ?_⟩
  intro now run
  have loaded := load_of_loadSource loaded
  constructor
  · intro operation proper
    have distinct := @Operation.Proper.distinct α _ (.loadSource source) _ trivial rfl
    have consistent := run.consistent (fun _ _ _ orderly => orderly.toContinues.proper)
      (load_consistent distinct loaded)
    exact exists_of_proper proper consistent.sound.shown.distinct
  · intro position room
    have recoverable := run.recoverable (recoverable_load loaded)
    have release := release_pointerUp now position
    exact (recoverable.release release room).recovers (not_held_of_free release.free)

end Run

section Carried

/-- The only block of a chart, carried along by the pointer. -/
def carried (e : Editor Float) : Editor Float := (e.pointerDown ⟨500, 400⟩).pointerMove ⟨600, 400⟩

theorem history_carried (e : Editor Float) : (carried e).history = e.history :=
  (history_pointerMove _ _).trans (history_pointerDown e _)

theorem run_carried {permits : Editor Float → Operation Float → Outcome Float Unit → Prop}
    {e : Editor Float}
    (pressed : permits e (.pointerDown ⟨500, 400⟩) (.silent (e.pointerDown ⟨500, 400⟩)))
    (moved : permits (e.pointerDown ⟨500, 400⟩) (.pointerMove ⟨600, 400⟩) (.silent (carried e))) :
    Run permits e (carried e) :=
  .step (.step .start pressed rfl) moved rfl

theorem room_carried {o : Outcome Float (List Script.Diagnostic)}
    (loaded : (ofViewport .standard : Editor Float).loadSource "ts()" = .ok o) :
    o.editor.history.undo.length < o.editor.history.limit := by
  obtain ⟨a, -, -, history, -⟩ := exists_of_load (load_of_loadSource loaded)
  have same : o.editor.history = _ := history
  rw [same]
  decide

/-- A block is carried elsewhere and let go. -/
theorem loadSource_recovers_carried :
    ∃ o, (ofViewport .standard : Editor Float).loadSource "ts()" = .ok o ∧
      Run Orderly o.editor (carried o.editor) ∧
      (∀ operation : Operation Float, operation.Proper →
        ∃ later, operation.perform (carried o.editor) = .ok later) ∧
      (carried o.editor).history.undo.length < (carried o.editor).history.limit ∧
      Recovers o.editor.data ((carried o.editor).pointerUp ⟨600, 400⟩).editor := by
  obtain ⟨o, loaded, recovers⟩ :=
    loadSource_recovers (ofViewport .standard : Editor Float) "ts()"
  have room := room_carried loaded
  obtain ⟨a, -, scene, -, -⟩ := exists_of_load (load_of_loadSource loaded)
  have free : o.editor.scene.drag = none := congrArg Scene.drag scene
  have calm : ¬ o.editor.Pending := fun pending => pending.2 (settled_of_free free)
  have run : Run Orderly o.editor (carried o.editor) := by
    refine run_carried ⟨⟨fun _ => id, room⟩, ?_, ?_⟩ ⟨⟨fun _ => id, ?_⟩, nofun, ?_⟩
    · exact fun pending => absurd pending calm
    · exact fun pending => absurd pending calm
    · rwa [history_pointerDown]
    · exact fun _ told => absurd told Bool.false_ne_true
  have still : (carried o.editor).history.undo.length < (carried o.editor).history.limit := by
    rwa [history_carried]
  obtain ⟨performs, restores⟩ := recovers _ run
  exact ⟨o, loaded, run, performs, still, restores _ still⟩

theorem exists_of_decide {ε β : Type} {x : Except ε β} {P : β → Prop} [DecidablePred P]
    (holds : x.toOption.any (fun b => decide (P b)) = true) : ∃ b, x = .ok b ∧ P b := by
  cases x with
  | error fault => cases holds
  | ok b => exact ⟨b, rfl, of_decide_eq_true holds⟩

/-- A block that is deleted while it follows the pointer comes back where it was carried to. -/
theorem loadSource_loses_carried :
    ∃ o, (ofViewport .standard : Editor Float).loadSource "ts()" = .ok o ∧
      ∃ now, Run (fun e operation _ => Continues e operation) o.editor now ∧
        now.history.undo.length < now.history.limit ∧
        ((now.pointerUp ⟨600, 400⟩).editor.undone 0).undo.result = true ∧
        ((now.pointerUp ⟨600, 400⟩).editor.undone 1).undo.result = false ∧
        ((now.pointerUp ⟨600, 400⟩).editor.undone 1).data ≠ o.editor.data ∧
        (((now.pointerUp ⟨600, 400⟩).editor.undone 1).data == o.editor.data) = false := by
  obtain ⟨o, loaded, lost⟩ := @exists_of_decide _ _
    ((ofViewport .standard : Editor Float).loadSource "ts()")
    (fun o =>
      let now := ((carried o.editor).deleteNode 0).editor
      let left := (now.pointerUp ⟨600, 400⟩).editor
      now.history.undo.length < now.history.limit ∧
        (left.undone 0).undo.result = true ∧ (left.undone 1).undo.result = false ∧
        (left.undone 1).data ≠ o.editor.data ∧
        ((left.undone 1).data == o.editor.data) = false)
    _ (by decide +kernel)
  have room := room_carried loaded
  have run : Run (fun e operation _ => Continues e operation) o.editor (carried o.editor) := by
    refine run_carried ⟨fun _ => id, room⟩ ⟨fun _ => id, ?_⟩
    rwa [history_pointerDown]
  have deleted : Continues (carried o.editor) (.deleteNode 0) := by
    refine ⟨fun _ => id, ?_⟩
    rwa [history_carried]
  exact ⟨o, loaded, _, .step run deleted rfl, lost⟩

end Carried

end Editor
end Flowchart
