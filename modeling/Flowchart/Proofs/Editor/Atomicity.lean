import Flowchart.Proofs.Editor.Recovery
import Flowchart.Proofs.Editor.Timeline
import Flowchart.Proofs.Float
/-! All or nothing. A change is refused and leaves everything as it is, or it is made as a whole: it
is told once, the history before the data, and is one step to undo, which leads back to other data
than those shown. -/
namespace Flowchart

section Equal
variable {α : Type} [Scalar α]

theorem Node.fields_of_beq {m n : Node α} (same : (m == n) = true) :
    (m.box == n.box) = true ∧ m.style = n.style ∧ m.shapeOverride = n.shapeOverride := by
  have fields : instBEqNode.beq m n = true := same
  simp only [instBEqNode.beq, Bool.and_eq_true, beq_iff_eq] at fields
  exact ⟨fields.2.2.1, fields.2.2.2⟩

theorem Box.sides_of_beq {a b : Box α} (same : (a == b) = true) :
    ((a.x == b.x) = true ∧ (a.y == b.y) = true) ∧
      (a.width == b.width) = true ∧ (a.height == b.height) = true := by
  have sides : instBEqBox.beq a b = true := same
  simp only [instBEqBox.beq, Bool.and_eq_true] at sides
  exact ⟨⟨sides.1, sides.2.1⟩, sides.2.2⟩

theorem Diagram.parts_of_beq {d after : Diagram α} (same : (d == after) = true) :
    (d.nodes == after.nodes) = true ∧ d.edges = after.edges := by
  have parts : instBEqDiagram.beq d after = true := same
  simp only [instBEqDiagram.beq, Bool.and_eq_true, beq_iff_eq] at parts
  exact parts

/-- If the blocks count as equal, so does the one that was changed. -/
theorem beq_of_changeFirst {id : Nat} {change : Node α → Node α} {nodes : List (Node α)}
    {n : Node α} (found : nodes.find? (·.id == id) = some n)
    (same : (nodes == changeFirst id change nodes) = true) : (n == change n) = true := by
  induction nodes with
  | nil => cases found
  | cons m nodes ih =>
      by_cases named : m.id = id
      · rw [List.find?_cons_of_pos (by simpa using named)] at found
        obtain rfl := Option.some.inj found
        rw [changeFirst, if_pos named, List.cons_beq_cons, Bool.and_eq_true] at same
        exact same.1
      · rw [List.find?_cons_of_neg (by simpa using named)] at found
        rw [changeFirst, if_neg named, List.cons_beq_cons, Bool.and_eq_true] at same
        exact ih found same.2

end Equal

section Numeric

/-- Every side is a number. -/
def Box.Numeric (b : Box Float) : Prop :=
  b.x.isNaN = false ∧ b.y.isNaN = false ∧ b.width.isNaN = false ∧ b.height.isNaN = false

def Diagram.Numeric (d : Diagram Float) : Prop := ∀ n ∈ d.nodes, n.box.Numeric

instance (b : Box Float) : Decidable b.Numeric := inferInstanceAs (Decidable (_ ∧ _))

instance (d : Diagram Float) : Decidable d.Numeric :=
  List.decidableBAll (fun n : Node Float => n.box.Numeric) d.nodes

theorem Node.beq_self {n : Node Float} (numeric : n.box.Numeric) : (n == n) = true := by
  obtain ⟨x, y, width, height⟩ := numeric
  have box : instBEqBox.beq n.box n.box = true := by
    simp only [instBEqBox.beq, Bool.and_eq_true]
    exact ⟨beq_self_iff_number.mpr x, beq_self_iff_number.mpr y, beq_self_iff_number.mpr width,
      beq_self_iff_number.mpr height⟩
  change instBEqNode.beq n n = true
  simp only [instBEqNode.beq, Bool.and_eq_true, beq_self_eq_true, and_true, true_and]
  exact box

theorem Diagram.Numeric.beq_self {d : Diagram Float} (numeric : d.Numeric) : (d == d) = true := by
  have nodes : (d.nodes == d.nodes) = true := by
    have all : ∀ n ∈ d.nodes, (n == n) = true := fun n member => Node.beq_self (numeric n member)
    generalize d.nodes = nodes at all
    induction nodes with
    | nil => rfl
    | cons n nodes ih =>
        obtain ⟨here, others⟩ := List.forall_mem_cons.mp all
        rw [List.cons_beq_cons, here, ih others]
        rfl
  change instBEqDiagram.beq d d = true
  simp only [instBEqDiagram.beq, nodes, beq_self_eq_true, Bool.and_self]

end Numeric

namespace Operation

variable {α : Type} [Metric α]

/-- The operations that change the data or refuse to, with their answers. -/
def edit? (e : Editor α) : Operation α → Option (Outcome α Bool)
  | .setEdgeLabel index label => some (e.setEdgeLabel index label)
  | .moveNode id x y => some (e.moveNode id x y)
  | .resizeNode id width height => some (e.resizeNode id width height)
  | .setShape id shape => some (e.setShape id shape)
  | .setStyle id style => some (e.setStyle id style)
  | .deleteNode id => some (e.deleteNode id)
  | .deleteEdge index => some (e.deleteEdge index)
  | .deleteSelection => some e.deleteSelection
  | _ => none

theorem perform_of_edit? {e : Editor α} {operation : Operation α} {o : Outcome α Bool}
    (edits : operation.edit? e = some o) : operation.perform e = .ok o.unit := by
  cases operation <;> cases edits <;> rfl

end Operation

namespace Editor

variable {α : Type}

/-- Either nothing happens, or the changed history and then the changed data are told, and of other
things at most the selection. -/
structure Whole (e : Editor α) (o : Outcome α Bool) : Prop where
  refused : o.result = false → o.editor = e ∧ o.events = []
  told : o.result = true → o.events.filter (·.kind != .selectionChanged) =
    [o.editor.historyChanged, o.editor.dataChanged]

/-- The data that were found are put on those that can be undone, the oldest of which are dropped at
the limit. Nothing is left to redo, and the data shown are others. -/
structure OneStep [BEq α] (e : Editor α) (o : Outcome α Bool) : Prop where
  past : o.editor.history.undo = (e.data :: e.history.undo).take e.history.limit
  future : o.editor.history.redo = []
  differs : (e.data == o.editor.data) = false

theorem filter_cleared (had : Bool) :
    (cleared had : List (Event α)).filter (·.kind != .selectionChanged) = [] := by
  cases had <;> rfl

section Whole
variable {e : Editor α} {o : Outcome α Bool}

theorem whole_refusal (e : Editor α) : Whole e ⟨false, e, []⟩ :=
  ⟨fun _ => ⟨rfl, rfl⟩, nofun⟩

theorem whole_mutate {change : Scene α → Option (Scene α)} : Whole e (e.mutate change) := by
  unfold mutate
  cases change e.scene with
  | none => exact whole_refusal e
  | some s => exact ⟨nofun, fun _ => rfl⟩

/-- That a selection goes is told behind the rest, and only if something was done. -/
theorem Whole.cleared (whole : Whole e o) (had : Bool) :
    Whole e { o with events := o.events ++ Editor.cleared (o.result && had) } where
  refused refused := by
    have refused : o.result = false := refused
    obtain ⟨same, silent⟩ := whole.refused refused
    refine ⟨same, ?_⟩
    rw [silent, refused]
    rfl
  told done := by
    rw [List.filter_append, whole.told done, filter_cleared]
    rfl

theorem whole_restore (e : Editor α) (history : History (Diagram α)) (d : Diagram α) :
    Whole e (e.restore history d) where
  refused := nofun
  told _ := by
    unfold restore
    rw [List.filter_append, filter_cleared]
    rfl

theorem whole_undo (e : Editor α) : Whole e e.undo := by
  unfold undo
  split
  · exact whole_restore e _ _
  · exact whole_refusal e

theorem whole_redo (e : Editor α) : Whole e e.redo := by
  unfold redo
  split
  · exact whole_restore e _ _
  · exact whole_refusal e

theorem whole_deleteNode (e : Editor α) (id : Nat) : Whole e (e.deleteNode id) :=
  whole_mutate.cleared _

theorem whole_deleteEdge (e : Editor α) (index : Nat) : Whole e (e.deleteEdge index) :=
  whole_mutate.cleared _

theorem whole_edit [Metric α] {operation : Operation α} (edits : operation.edit? e = some o) :
    Whole e o := by
  cases operation <;> cases edits
  case setEdgeLabel => unfold setEdgeLabel; exact whole_mutate
  case moveNode => unfold moveNode mutateNode; exact whole_mutate
  case resizeNode => unfold resizeNode mutateNode; exact whole_mutate
  case setShape => unfold setShape mutateNode; exact whole_mutate
  case setStyle => unfold setStyle mutateNode; exact whole_mutate
  case deleteNode => exact whole_deleteNode e _
  case deleteEdge => exact whole_deleteEdge e _
  case deleteSelection =>
    unfold deleteSelection
    split
    · exact whole_deleteNode e _
    · exact whole_deleteEdge e _
    · exact whole_refusal e

end Whole

section OneStep
variable [Scalar α] {e : Editor α} (bounded : e.history.Bounded)
include bounded

theorem oneStep_mutate {change : Scene α → Option (Scene α)}
    (differs : ∀ s, change e.scene = some s → (e.data == s.diagram) = false)
    (done : (e.mutate change).result = true) : OneStep e (e.mutate change) := by
  unfold mutate at done ⊢
  cases changed : change e.scene with
  | none => rw [changed] at done; cases done
  | some s => exact ⟨bounded.undo_record _, rfl, differs s changed⟩

theorem oneStep_mutateNode {id : Nat} {change : Node α → Option (Node α)}
    (differs : ∀ n changed, change n = some changed → (n == changed) = false)
    (done : (e.mutateNode id change).result = true) : OneStep e (e.mutateNode id change) := by
  refine oneStep_mutate bounded ?_ done
  intro s made
  obtain ⟨n, found, made⟩ := Option.bind_eq_some_iff.mp made
  obtain ⟨changed, same, made⟩ := Option.bind_eq_some_iff.mp made
  obtain rfl := Option.some.inj made
  refine Bool.eq_false_iff.mpr fun equal => ?_
  rw [Scene.updateNode, Diagram.updateNode_eq] at equal
  have unchanged := beq_of_changeFirst found (Diagram.parts_of_beq equal).1
  exact Bool.false_ne_true ((differs n changed same).symm.trans unchanged)

theorem oneStep_setEdgeLabel (index : Nat) (label : Option String)
    (done : (e.setEdgeLabel index label).result = true) :
    OneStep e (e.setEdgeLabel index label) := by
  refine oneStep_mutate bounded ?_ done
  intro s labelled
  split at labelled
  · cases labelled
  · next edge found =>
    split at labelled
    · cases labelled
    · next other =>
      cases labelled
      refine Bool.eq_false_iff.mpr fun equal => ?_
      have edges := (Diagram.parts_of_beq equal).2
      have found : e.data.edges[index]? = some edge := found
      have same := congrArg (·[index]?) edges
      simp only [Scene.updateEdge, List.getElem?_modify_eq] at same
      change e.data.edges[index]? = e.data.edges[index]?.map _ at same
      rw [found] at same
      exact other (congrArg Edge.label (Option.some.inj same))

theorem oneStep_moveNode (id : Nat) (x y : α) (done : (e.moveNode id x y).result = true) :
    OneStep e (e.moveNode id x y) := by
  refine oneStep_mutateNode bounded ?_ done
  intro n changed moved
  split at moved
  · cases moved
  · next other =>
    cases moved
    refine Bool.eq_false_iff.mpr fun equal => other ?_
    exact Bool.and_eq_true_iff.mpr (Box.sides_of_beq (Node.fields_of_beq equal).1).1

theorem oneStep_resizeNode (id : Nat) (width height : α)
    (done : (e.resizeNode id width height).result = true) :
    OneStep e (e.resizeNode id width height) := by
  refine oneStep_mutateNode bounded ?_ done
  intro n changed resized
  split at resized
  · cases resized
  · next other =>
    cases resized
    refine Bool.eq_false_iff.mpr fun equal => other ?_
    exact Bool.and_eq_true_iff.mpr (Box.sides_of_beq (Node.fields_of_beq equal).1).2

theorem oneStep_setShape (id : Nat) (shape : Option BlockKind)
    (done : (e.setShape id shape).result = true) : OneStep e (e.setShape id shape) := by
  refine oneStep_mutateNode bounded ?_ done
  intro n changed shaped
  split at shaped
  · cases shaped
  · next other =>
    cases shaped
    exact Bool.eq_false_iff.mpr fun equal => other (Node.fields_of_beq equal).2.2

theorem oneStep_setStyle (id : Nat) (style : Option Palette)
    (done : (e.setStyle id style).result = true) : OneStep e (e.setStyle id style) := by
  refine oneStep_mutateNode bounded ?_ done
  intro n changed styled
  split at styled
  · cases styled
  · next other =>
    cases styled
    exact Bool.eq_false_iff.mpr fun equal => other (Node.fields_of_beq equal).2.1

theorem oneStep_deleteNode (id : Nat) (done : (e.deleteNode id).result = true) :
    OneStep e (e.deleteNode id) := by
  suffices step : OneStep e (e.mutate fun s => (s.deleteNode? id).map (·.2)) from
    ⟨step.past, step.future, step.differs⟩
  refine oneStep_mutate bounded ?_ done
  intro s deleted
  obtain ⟨⟨n, rest⟩, found, rfl⟩ := Option.map_eq_some_iff.mp deleted
  obtain ⟨m, present, made⟩ := Option.map_eq_some_iff.mp found
  obtain rfl := (Prod.mk.inj made).2
  refine Bool.eq_false_iff.mpr fun equal => ?_
  -- one block less
  have size := List.length_eq_of_beq (Diagram.parts_of_beq equal).1
  have member := List.mem_of_find?_eq_some present
  have positive := List.length_pos_of_mem member
  change e.scene.diagram.nodes.length = _ at size
  rw [List.length_eraseP_of_mem member (List.find?_some present)] at size
  omega

theorem oneStep_deleteEdge (index : Nat) (done : (e.deleteEdge index).result = true) :
    OneStep e (e.deleteEdge index) := by
  suffices step : OneStep e (e.mutate fun s => (s.deleteEdge? index).map (·.2)) from
    ⟨step.past, step.future, step.differs⟩
  refine oneStep_mutate bounded ?_ done
  intro s deleted
  obtain ⟨⟨edge, rest⟩, found, rfl⟩ := Option.map_eq_some_iff.mp deleted
  obtain ⟨m, present, made⟩ := Option.map_eq_some_iff.mp found
  obtain rfl := (Prod.mk.inj made).2
  obtain ⟨inside, -⟩ := List.getElem?_eq_some_iff.mp present
  refine Bool.eq_false_iff.mpr fun equal => ?_
  -- one connection less
  have size := congrArg List.length (Diagram.parts_of_beq equal).2
  change e.scene.diagram.edges.length = _ at size
  rw [List.length_eraseIdx, if_pos inside] at size
  omega

end OneStep

theorem oneStep_edit [Metric α] {e : Editor α} {operation : Operation α} {o : Outcome α Bool}
    (bounded : e.history.Bounded) (edits : operation.edit? e = some o) (done : o.result = true) :
    OneStep e o := by
  cases operation <;> cases edits
  case setEdgeLabel => exact oneStep_setEdgeLabel bounded _ _ done
  case moveNode => exact oneStep_moveNode bounded _ _ _ done
  case resizeNode => exact oneStep_resizeNode bounded _ _ _ done
  case setShape => exact oneStep_setShape bounded _ _ done
  case setStyle => exact oneStep_setStyle bounded _ _ done
  case deleteNode => exact oneStep_deleteNode bounded _ done
  case deleteEdge => exact oneStep_deleteEdge bounded _ done
  case deleteSelection =>
    unfold deleteSelection at done ⊢
    split at done
    · exact oneStep_deleteNode bounded _ done
    · exact oneStep_deleteEdge bounded _ done
    · cases done

theorem New.bounded {first : Editor α} (new : New first) (room : 0 < first.history.limit) :
    first.history.Bounded := by
  refine ⟨room, ?_⟩
  rw [new.past, new.future]
  exact Nat.zero_le _

section Run
variable [Metric α] {e first now : Editor α} {operation : Operation α} {o : Outcome α Unit}

theorem Step.bounded (step : Step e operation o) (bounded : e.history.Bounded) :
    o.editor.history.Bounded := by
  cases step with
  | alter _ alters =>
      cases alters with
      | rest _ history => exact history ▸ bounded
      | edit _ history => exact history ▸ bounded.record _
      | settle _ history => exact history ▸ bounded
  | press _ press =>
      cases press with
      | grab _ _ _ history => exact history ▸ bounded
      | pan history => exact history ▸ bounded
  | move motion =>
      cases motion with
      | rest history => exact history ▸ bounded
      | follow _ _ history => exact history ▸ bounded
  | release _ release =>
      cases release with
      | rest history => exact history ▸ bounded
      | back _ history => exact history ▸ bounded
      | moved _ _ history => exact history ▸ bounded.record _
  | undo made =>
      subst made
      unfold Editor.undo
      split
      · next undone => exact bounded.undo undone
      · exact bounded
  | redo _ made =>
      subst made
      unfold Editor.redo
      split
      · next redone => exact bounded.redo redone
      · exact bounded
  | load _ made =>
      obtain ⟨_, -, -, history, -⟩ := exists_of_load made
      exact history ▸ bounded.clear

theorem Run.bounded {permits : Editor α → Operation α → Outcome α Unit → Prop}
    (run : Run permits first now) (bounded : first.history.Bounded) : now.history.Bounded := by
  induction run with
  | start => exact bounded
  | step _ _ performed ih => exact (step_of_perform performed).bounded ih

end Run

/-- However an editor has been used, a change of its data is made as a whole or refused, and so are
undo and redo. A change that is made is one step to undo. -/
theorem run_edits_whole {first now : Editor Float} (new : New first)
    (room : 0 < first.history.limit) (run : Run (fun _ _ _ => True) first now) :
    (∀ (operation : Operation Float) (o : Outcome Float Bool), operation.edit? now = some o →
      operation.perform now = .ok o.unit ∧ Whole now o ∧ (o.result = true →
        OneStep now o ∧ (now.data.Numeric → now.data ≠ o.editor.data))) ∧
      Whole now now.undo ∧ Whole now now.redo := by
  have bounded := run.bounded (new.bounded room)
  refine ⟨?_, whole_undo now, whole_redo now⟩
  intro operation o edits
  refine ⟨Operation.perform_of_edit? edits, whole_edit edits, ?_⟩
  intro done
  have step := oneStep_edit bounded edits done
  refine ⟨step, ?_⟩
  intro numeric same
  have equal := step.differs
  rw [← same, numeric.beq_self] at equal
  cases equal

/-- A block is deleted, and deleting it again is refused. -/
theorem run_edits_whole_deletion :
    ∃ o, (ofViewport .standard : Editor Float).loadSource "ts()" = .ok o ∧
      o.editor.data.Numeric ∧ (o.editor.deleteNode 0).result = true ∧
      OneStep o.editor (o.editor.deleteNode 0) ∧
      o.editor.data ≠ (o.editor.deleteNode 0).editor.data ∧
      Whole o.editor (o.editor.deleteNode 0) ∧
      ((o.editor.deleteNode 0).editor.deleteNode 0).result = false ∧
      Whole (o.editor.deleteNode 0).editor ((o.editor.deleteNode 0).editor.deleteNode 0) := by
  obtain ⟨o, loaded, numeric, done, refused⟩ := @exists_of_decide _ _
    ((ofViewport .standard : Editor Float).loadSource "ts()")
    (fun o => o.editor.data.Numeric ∧ (o.editor.deleteNode 0).result = true ∧
      ((o.editor.deleteNode 0).editor.deleteNode 0).result = false)
    _ (by decide +kernel)
  have new : New (ofViewport .standard : Editor Float) := new_ofViewport _
  have run : Run (fun _ _ _ => True) (ofViewport .standard : Editor Float) o.editor :=
    run_loadSource loaded trivial
  have later : Run (fun _ _ _ => True) (ofViewport .standard : Editor Float)
      (o.editor.deleteNode 0).editor :=
    @Run.step Float _ _ _ _ (.deleteNode 0) (o.editor.deleteNode 0).unit run trivial rfl
  obtain ⟨-, whole, made⟩ := (run_edits_whole new (by decide) run).1 (.deleteNode 0) _ rfl
  obtain ⟨-, again, -⟩ := (run_edits_whole new (by decide) later).1 (.deleteNode 0) _ rfl
  obtain ⟨step, differs⟩ := made done
  exact ⟨o, loaded, numeric, done, step, differs numeric, whole, refused, again⟩

end Editor
end Flowchart
