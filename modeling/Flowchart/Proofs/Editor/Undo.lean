import Flowchart.Proofs.Editor.Record
import Flowchart.Proofs.Script.Chart
import Flowchart.Scalar.Float
/-! Undo and redo after a run of operations. The history keeps the data that the last recorded
operations found, as many as its limit allows, so undoing walks back along them and redoing
returns. -/
namespace Flowchart

namespace History

variable {σ : Type}

theorem record_undo {h : History σ} {found : List σ} (bounded : 0 < h.limit)
    (kept : h.undo = found.take h.limit) (before : σ) :
    (h.record before).undo = (before :: found).take h.limit := by
  obtain ⟨room, size⟩ := Nat.exists_eq_add_of_lt bounded
  rw [Nat.zero_add] at size
  rw [size, List.take_succ_cons, record]
  rw [size] at kept
  simp only [kept, size, List.length_take]
  congr 1
  split
  · next full =>
    rw [beq_iff_eq, min_eq_left_iff] at full
    rw [List.dropLast_eq_take, List.length_take, Nat.min_eq_left full, Nat.add_sub_cancel,
      List.take_take, Nat.min_eq_left (Nat.le_succ room)]
  · next free =>
    rw [beq_iff_eq, min_eq_left_iff, Nat.not_le] at free
    rw [List.take_of_length_le free.le, List.take_of_length_le (Nat.le_of_lt_succ free)]

end History

namespace Editor

variable {α : Type}

def undone (e : Editor α) : Nat → Editor α
  | 0 => e
  | n + 1 => (undone e n).undo.editor

def redone (e : Editor α) : Nat → Editor α
  | 0 => e
  | n + 1 => (redone e n).redo.editor

section Line
variable {states : List (Diagram α)} {n : Nat} {e : Editor α}

/-- The editor is at one place of a line of data, the latest first: it can go on to older ones by
undo, and back to later ones by redo. -/
structure At (states : List (Diagram α)) (n : Nat) (e : Editor α) : Prop where
  data : states[n]? = some e.data
  past : e.history.undo = states.drop (n + 1)
  future : e.history.redo = (states.take n).reverse

theorem At.older (here : At states n e) (inside : n + 1 < states.length) :
    e.undo.result = true ∧ At states (n + 1) e.undo.editor := by
  have current := List.getElem?_eq_some_iff.mp here.data
  obtain ⟨_, current⟩ := current
  have past : e.history.undo = states[n + 1] :: states.drop (n + 2) := by
    rw [here.past, List.drop_eq_getElem_cons inside]
  have step : e.undo = e.restore
      { e.history with undo := states.drop (n + 2), redo := e.data :: e.history.redo }
      states[n + 1] := by
    rw [Editor.undo, History.undo?, past]
  rw [step]
  constructor
  · rfl
  · constructor
    case data => exact List.getElem?_eq_getElem inside
    case past => rfl
    case future =>
      change e.data :: e.history.redo = _
      rw [here.future, List.take_add_one, here.data, Option.toList_some, List.reverse_append]
      rfl

theorem At.oldest (here : At states n e) (last : states.length ≤ n + 1) :
    e.undo = ⟨false, e, []⟩ := by
  rw [Editor.undo, History.undo?, here.past, List.drop_of_length_le last]

theorem At.later (here : At states (n + 1) e) :
    e.redo.result = true ∧ At states n e.redo.editor := by
  obtain ⟨inside, current⟩ := List.getElem?_eq_some_iff.mp here.data
  have before : n < states.length := Nat.lt_of_succ_lt inside
  have future : e.history.redo = states[n] :: (states.take n).reverse := by
    rw [here.future, List.take_add_one, List.getElem?_eq_getElem before, Option.toList_some,
      List.reverse_append]
    rfl
  have step : e.redo = e.restore
      { e.history with undo := e.data :: e.history.undo, redo := (states.take n).reverse }
      states[n] := by
    rw [Editor.redo, History.redo?, future]
  rw [step]
  constructor
  · rfl
  · constructor
    case data => exact List.getElem?_eq_getElem before
    case future => rfl
    case past =>
      change e.data :: e.history.undo = _
      rw [here.past, List.drop_eq_getElem_cons inside, current]

theorem At.undone_min (start : At states 0 e) (n : Nat) :
    At states (min n (states.length - 1)) (e.undone n) := by
  induction n with
  | zero => rwa [Nat.zero_min]
  | succ n ih =>
    rcases Nat.lt_or_ge (n + 1) states.length with inside | outside
    · rw [Nat.min_eq_left (by omega)] at ih ⊢
      exact (ih.older inside).2
    · rw [Nat.min_eq_right (by omega)] at ih ⊢
      rw [Editor.undone, ih.oldest (by omega)]
      exact ih

theorem At.undone (start : At states 0 e) (inside : n < states.length) :
    At states n (e.undone n) := by
  have here := start.undone_min n
  rwa [Nat.min_eq_left (by omega)] at here

theorem At.redone (here : At states n e) {m : Nat} (back : m ≤ n) :
    At states (n - m) (e.redone m) := by
  induction m with
  | zero => exact here
  | succ m ih =>
    have now := ih (Nat.le_of_succ_le back)
    rw [show n - m = n - (m + 1) + 1 by omega] at now
    exact now.later.2

end Line

section Law

/-- What holds after a run of operations. -/
structure Reached (first now : Editor α) (found : List (Diagram α)) : Prop where
  past : now.history.undo = found.take first.history.limit
  future : now.history.redo = []
  limit : now.history.limit = first.history.limit
  settings : now.settings = first.settings
  released : now.Released
  distinct : now.data.Distinct
  origin : found.getLast?.getD now.data = first.data

/-- How many of the recorded operations can be undone. -/
def undoable (limit : Nat) (found : List (Diagram α)) : Nat := min found.length limit

theorem length_undoable (limit : Nat) (found : List (Diagram α)) (d : Diagram α) :
    (d :: found.take limit).length = undoable limit found + 1 := by
  rw [List.length_cons, List.length_take, Nat.min_comm, undoable]

/-- Undo and redo after a run that recorded what its operations found, the latest first. -/
structure UndoLaw (limit : Nat) (first : Diagram α) (found : List (Diagram α)) (now : Editor α) :
    Prop where
  undo_succeeds : ∀ n, (now.undone n).undo.result = true ↔ n < undoable limit found
  undo_restores : ∀ n < undoable limit found, found[n]? = some (now.undone (n + 1)).data
  undo_first : found.length ≤ limit → (now.undone found.length).data = first
  redo_succeeds : ∀ n < undoable limit found,
    ((now.undone (undoable limit found)).redone n).redo.result = true
  redo_restores : ∀ n ≤ undoable limit found,
    ((now.undone (undoable limit found)).redone n).data =
      (now.undone (undoable limit found - n)).data

section Reached
variable {first now : Editor α} {found : List (Diagram α)} (reached : Reached first now found)
include reached

theorem Reached.start : At (now.data :: found.take first.history.limit) 0 now :=
  ⟨rfl, reached.past, reached.future⟩

/-- After as many undos as there are to do, or fewer, the editor is at the data found there. -/
theorem Reached.undone {n : Nat} (inside : n ≤ undoable first.history.limit found) :
    At (now.data :: found.take first.history.limit) n (now.undone n) :=
  reached.start.undone (by rw [length_undoable]; exact Nat.lt_succ_of_le inside)

theorem Reached.undo_result (n : Nat) :
    (now.undone n).undo.result = true ↔ n < undoable first.history.limit found := by
  have size := length_undoable first.history.limit found now.data
  constructor
  · intro succeeded
    refine Nat.lt_of_not_le fun beyond => ?_
    have here := reached.start.undone_min n
    rw [Nat.min_eq_right (by omega)] at here
    rw [here.oldest (by omega)] at succeeded
    exact Bool.false_ne_true succeeded
  · intro inside
    exact ((reached.undone (Nat.le_of_lt inside)).older (by omega)).1

theorem Reached.undone_data {n : Nat} (inside : n < undoable first.history.limit found) :
    found[n]? = some (now.undone (n + 1)).data := by
  have here := (reached.undone inside).data
  have short : n < first.history.limit := Nat.lt_of_lt_of_le inside (Nat.min_le_right _ _)
  rwa [List.getElem?_cons_succ, List.getElem?_take_of_lt short] at here

/-- Where everything can be undone, the oldest data are the first. -/
theorem Reached.undone_all (short : found.length ≤ first.history.limit) :
    (now.undone found.length).data = first.data := by
  have here := (reached.undone (Nat.min_eq_left short).ge).data
  have last : (now.data :: found)[found.length]? = some first.data := by
    have last := @List.getLast?_cons _ found now.data
    rwa [reached.origin, List.getLast?_eq_getElem?] at last
  rw [List.take_of_length_le short, last] at here
  exact (Option.some.inj here).symm

theorem Reached.undoLaw : UndoLaw first.history.limit first.data found now := by
  have oldest := reached.undone (Nat.le_refl _)
  constructor
  case undo_succeeds => exact reached.undo_result
  case undo_restores => exact fun n inside => reached.undone_data inside
  case undo_first => exact reached.undone_all
  case redo_succeeds =>
    intro n inside
    have there := oldest.redone (Nat.le_of_lt inside)
    rw [← Nat.sub_add_cancel (Nat.sub_pos_of_lt inside)] at there
    exact there.later.1
  case redo_restores =>
    intro n inside
    have there := (oldest.redone inside).data
    have back := (reached.undone (Nat.sub_le _ n)).data
    exact Option.some.inj (there.symm.trans back)

end Reached

end Law

/-- The other blocks stay. -/
theorem mem_ids_deleteNode {e : Editor α} {id other : Nat} (different : other ≠ id)
    (present : other ∈ e.data.nodes.map (·.id)) :
    other ∈ (e.deleteNode id).editor.data.nodes.map (·.id) := by
  unfold Editor.deleteNode mutate
  simp only [Scene.deleteNode?]
  cases e.scene.diagram.node? id with
  | none => exact present
  | some n => exact Scene.mem_ids_deleteNode different present

section Run
variable [Metric α]

/-- A run of permitted operations from one editor to another, with the data that the recorded ones
found, the latest first. -/
inductive Follows (first : Editor α) : Editor α → List (Diagram α) → Prop where
  | start : Follows first first []
  | step {e : Editor α} {found : List (Diagram α)} {operation : Operation α} {o : Outcome α Unit}
      (earlier : Follows first e found) (permitted : e.Permits operation)
      (performed : operation.perform e = .ok o) :
      Follows first o.editor (if o.recorded then e.data :: found else found)

/-- As a load leaves an editor: with nothing to undo, and arranged so that arranging again changes
nothing. -/
structure Fresh (e : Editor α) : Prop where
  past : e.history.undo = []
  future : e.history.redo = []
  released : e.Released
  distinct : e.data.Distinct
  arranged : ∃ a, Layout.arrange e.settings.layout e.data = .ok a ∧ a.diagram = e.data

theorem Fresh.reached {first : Editor α} (fresh : Fresh first) : Reached first first [] where
  past := by rw [fresh.past, List.take_nil]
  future := fresh.future
  limit := rfl
  settings := rfl
  released := fresh.released
  distinct := fresh.distinct
  origin := rfl

section Step
variable {first e : Editor α} {found : List (Diagram α)} {o : Outcome α Unit}
  (reached : Reached first e found) (tracks : Tracks e o)
include reached tracks

theorem Reached.step_recorded (bounded : 0 < first.history.limit) (recorded : o.recorded = true) :
    Reached first o.editor (e.data :: found) := by
  have history := tracks.history
  rw [recorded, if_pos rfl] at history
  constructor
  case past =>
    rw [← reached.limit] at bounded
    rw [history, History.record_undo bounded (reached.limit ▸ reached.past), reached.limit]
  case future => rw [history]; rfl
  case limit => rw [history]; exact reached.limit
  case settings => exact tracks.settings.trans reached.settings
  case released => exact tracks.released reached.released
  case distinct => exact tracks.distinct reached.distinct
  case origin =>
    rw [List.getLast?_cons, Option.getD_some]
    exact reached.origin

theorem Reached.origin_unrecorded (fresh : Fresh first) (recorded : o.recorded = false) :
    found.getLast?.getD o.editor.data = first.data := by
  cases found with
  | cons d found => exact reached.origin
  | nil =>
    have unchanged : e.data = first.data := reached.origin
    obtain same | ⟨a, again, placed⟩ := tracks.data recorded
    · exact same.trans unchanged
    · -- laid out like the first data, which arranging does not change
      obtain ⟨b, arranged, settled⟩ := fresh.arranged
      rw [unchanged, reached.settings, arranged] at again
      cases again
      exact placed.trans settled

theorem Reached.step_unrecorded (fresh : Fresh first) (recorded : o.recorded = false) :
    Reached first o.editor found := by
  have history := tracks.history
  rw [recorded, if_neg Bool.false_ne_true] at history
  constructor
  case past => rw [history]; exact reached.past
  case future => rw [history]; exact reached.future
  case limit => rw [history]; exact reached.limit
  case settings => exact tracks.settings.trans reached.settings
  case released => exact tracks.released reached.released
  case distinct => exact tracks.distinct reached.distinct
  case origin => exact reached.origin_unrecorded tracks fresh recorded

theorem Reached.step (fresh : Fresh first) (bounded : 0 < first.history.limit) :
    Reached first o.editor (if o.recorded then e.data :: found else found) := by
  cases recorded : o.recorded with
  | true => exact reached.step_recorded tracks bounded recorded
  | false => exact reached.step_unrecorded tracks fresh recorded

end Step

theorem Follows.reached {first now : Editor α} {found : List (Diagram α)}
    (run : Follows first now found) (fresh : Fresh first) (bounded : 0 < first.history.limit) :
    Reached first now found := by
  induction run with
  | start => exact fresh.reached
  | step earlier permitted performed reached =>
    obtain ⟨o, same, tracks⟩ := perform_permitted permitted reached.released reached.distinct
    rw [same] at performed
    cases performed
    exact reached.step tracks fresh bounded

theorem Quiet.fresh {e : Editor α} {β : Type} {o : Outcome α β} (quiet : Quiet e o)
    (fresh : Fresh e) : Fresh o.editor where
  past := by rw [quiet.history]; exact fresh.past
  future := by rw [quiet.history]; exact fresh.future
  released := quiet.released fresh.released
  distinct := by rw [quiet.data]; exact fresh.distinct
  arranged := by rw [quiet.data, quiet.settings]; exact fresh.arranged

theorem load_fresh (e : Editor α) {d : Diagram α}
    (distinct : (Scene.ofDiagram d).diagram.Distinct) :
    ∃ o, e.load d = .ok o ∧ Fresh o.editor ∧ o.editor.history.limit = e.history.limit ∧
      o.editor.data.nodes.map (·.id) = (Scene.ofDiagram d).diagram.nodes.map (·.id) := by
  have same : (Layout.measureAll e.settings.layout (Scene.ofDiagram d).diagram).nodes.map (·.id) =
      (Scene.ofDiagram d).diagram.nodes.map (·.id) := List.map_map
  have sized : (Layout.measureAll e.settings.layout (Scene.ofDiagram d).diagram).Distinct :=
    (congrArg List.Nodup same).mpr distinct
  obtain ⟨a, arranged, kept⟩ := sized.arrange e.settings.layout
  have fitted := quiet_zoomed { e with
    scene := { Scene.ofDiagram d with diagram := a.diagram }
    history := e.history.clear
    gesture := none
    textEdit := none } (a.diagram.bounds?.map e.viewport.fit)
  have limit := congrArg History.limit fitted.history
  have ids := congrArg (fun d => d.nodes.map (·.id)) fitted.data
  unfold load Layout.layout
  simp only [arranged]
  refine ⟨_, rfl, fitted.fresh ?_, limit, ids.trans (kept.trans same)⟩
  exact
    { past := rfl
      future := rfl
      released := nofun
      distinct := (congrArg List.Nodup kept).mpr sized
      arranged := ⟨_, Layout.arrange_again arranged, rfl⟩ }

theorem loadSource_fresh (e : Editor α) (source : String) :
    ∃ o, e.loadSource source = .ok o ∧ Fresh o.editor ∧
      o.editor.history.limit = e.history.limit ∧
      o.editor.data.nodes.map (·.id) = List.range (Script.parse source).blocks.length := by
  have formed : ((Script.parse source).diagram : Diagram α).WellFormed :=
    Script.diagram_wellFormed source
  have ids :
      (Scene.ofDiagram ((Script.parse source).diagram : Diagram α)).diagram.nodes.map (·.id) =
        List.range (Script.parse source).blocks.length := by
    rw [formed.ofDiagram_eq]
    exact Script.Chart.ids_nodes _
  obtain ⟨o, loaded, fresh, limit, same⟩ :=
    load_fresh e ((congrArg List.Nodup ids).mpr List.nodup_range)
  refine ⟨o.map fun _ => (Script.parse source).diagnostics, ?_, fresh, limit, same.trans ids⟩
  unfold loadSource
  simp only [loaded]
  rfl

/-- A source can always be loaded. After any run of operations from there every other operation can
be done, undo takes back as many of the recorded ones as the history holds, one by one, and redo
returns to where the first undo began. -/
theorem loadSource_undoLaw {e : Editor α} (bounded : 0 < e.history.limit) (source : String) :
    ∃ o, e.loadSource source = .ok o ∧ ∀ now found, Follows o.editor now found →
      (∀ operation, now.Permits operation → ∃ later, operation.perform now = .ok later) ∧
        UndoLaw e.history.limit o.editor.data found now := by
  obtain ⟨o, loaded, fresh, limit, -⟩ := loadSource_fresh e source
  refine ⟨o, loaded, ?_⟩
  intro now found run
  have reached := run.reached fresh (limit ▸ bounded)
  constructor
  · intro operation permitted
    obtain ⟨later, performed, -⟩ := perform_permitted permitted reached.released reached.distinct
    exact ⟨later, performed⟩
  · rw [← limit]
    exact reached.undoLaw

section Deletions
variable {first e : Editor α} {found : List (Diagram α)}

/-- Deleting a block that is there is a step to undo. -/
theorem Follows.deleteNode (run : Follows first e found) {id : Nat}
    (present : id ∈ e.data.nodes.map (·.id)) :
    Follows first (e.deleteNode id).editor (e.data :: found) := by
  have known : (e.data.node? id).isSome = true := by
    obtain ⟨n, member, named⟩ := List.mem_map.mp present
    exact List.find?_isSome.mpr ⟨n, member, beq_iff_eq.mpr named⟩
  have recorded : (e.deleteNode id).unit.recorded = true :=
    (deleteNode_recorded e id).trans known
  have deleted : Follows first (e.deleteNode id).unit.editor _ :=
    @Follows.step α _ _ _ _ (.deleteNode id) _ run trivial rfl
  rwa [recorded, if_pos rfl] at deleted

end Deletions

/-- Three blocks are deleted one by one while somebody listens, and the history holds two steps. -/
theorem loadSource_undoLaw_deletion :
    let e : Editor Float := { (ofViewport .standard : Editor Float) with history := .ofLimit 2 }
    ∃ o, e.loadSource "p[pick]\np[pack]\np[ship]" = .ok o ∧ ∃ second third now,
      Follows o.editor now [third, second, o.editor.data] ∧
        UndoLaw 2 o.editor.data [third, second, o.editor.data] now := by
  intro e
  obtain ⟨o, loaded, law⟩ := loadSource_undoLaw (e := e) (by decide) "p[pick]\np[pack]\np[ship]"
  obtain ⟨_, same, -, -, ids⟩ := loadSource_fresh e "p[pick]\np[pack]\np[ship]"
  cases loaded.symm.trans same
  have three : (Script.parse "p[pick]\np[pack]\np[ship]").blocks.length = 3 := by decide +kernel
  have present : ∀ id < 3, id ∈ o.editor.data.nodes.map (·.id) := by
    intro id inside
    rw [ids, three]
    exact List.mem_range.mpr inside
  let heard : Editor Float := { o.editor with listeners := o.editor.listeners.on .dataChanged }
  have listened : Follows o.editor heard [] :=
    @Follows.step Float _ _ _ _ (.listen .dataChanged) _ .start trivial rfl
  have one := listened.deleteNode (present 0 (by decide))
  have two := one.deleteNode (mem_ids_deleteNode (by decide) (present 1 (by decide)))
  have all := two.deleteNode
    (mem_ids_deleteNode (by decide) (mem_ids_deleteNode (by decide) (present 2 (by decide))))
  exact ⟨o, loaded, _, _, _, all, (law _ _ all).2⟩

end Run

end Editor
end Flowchart
