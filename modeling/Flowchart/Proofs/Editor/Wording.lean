import Flowchart.Proofs.Editor.Run
import Flowchart.Proofs.Places
/-! What is written in the blocks, and the label that is open for typing. A label is typed, opened,
given up or committed, a block is taken out, or other data are shown. Whatever else is done leaves
both alone. -/
namespace Flowchart

variable {α β : Type}

/-- What is written in a block, under its number. -/
def Node.word (n : Node α) : Nat × Block := (n.id, n.toBlock)

/-- A block is sized by what is written in it, which stays. -/
theorem Node.word_sizeNode [Scalar α] (config : Layout.Config α) (n : Node α) :
    (Layout.sizeNode config n).word = n.word := rfl

namespace Diagram

def words (d : Diagram α) : List (Nat × Block) := d.nodes.map Node.word

theorem words_updateNode {d : Diagram α} {id : Nat} {change : Node α → Node α}
    (kept : ∀ n, d.node? id = some n → (change n).word = n.word) :
    (d.updateNode id change).words = d.words := by
  have same : List.Forall₂ (fun m n : Node α => m.word = n.word) d.nodes
      (changeFirst id change d.nodes) :=
    forall₂_changeFirst (fun _ => rfl) fun n found => (kept n found).symm
  have written := List.forall₂_map_left_iff.mpr (List.forall₂_map_right_iff.mpr same)
  rw [updateNode_eq]
  exact (List.forall₂_eq_eq_eq ▸ written).symm

theorem words_arrange [Scalar α] {config : Layout.Config α} {d : Diagram α}
    {a : Layout.Arrangement α} (arranged : Layout.arrange config d = .ok a) :
    a.diagram.words = d.words := by
  have same := congrArg (List.map Node.word) (Layout.arrange_moves arranged).1
  rwa [List.map_map, List.map_map] at same

/-- A block is found by what is written in it. -/
theorem lookup_words (d : Diagram α) (id : Nat) :
    d.words.lookup id = (d.node? id).map (·.toBlock) := by
  unfold words node?
  induction d.nodes with
  | nil => rfl
  | cons n nodes ih =>
      by_cases named : n.id = id
      · simp [Node.word, named]
      · have other : (id == n.id) = false := by simpa using Ne.symm named
        simp [Node.word, List.lookup_cons, other, named, ih]

/-- Taking a block out leaves the others to be found. -/
theorem lookup_eraseP {words : List (Nat × Block)} {id other : Nat} (different : other ≠ id) :
    (words.eraseP (·.1 == id)).lookup other = words.lookup other := by
  induction words with
  | nil => rfl
  | cons w words ih =>
      by_cases named : w.1 = id
      · have passed : (other == w.1) = false := by simpa using named ▸ different
        rw [List.eraseP_cons_of_pos (by simpa using named), List.lookup_cons, passed]
      · rw [List.eraseP_cons_of_neg (by simpa using named), List.lookup_cons, List.lookup_cons, ih]

end Diagram

/-- The block that an operation would take out. -/
def Operation.taken? (e : Editor α) : Operation α → Option Nat
  | .deleteNode id => some id
  | .deleteSelection =>
    match e.selection with
    | some (.node id) => some id
    | _ => none
  | _ => none

namespace Editor

/-- What is written stays, and so does the label that is open. -/
structure Keeps (e after : Editor α) : Prop where
  words : after.data.words = e.data.words
  typing : after.textEdit = e.textEdit

theorem Keeps.refl (e : Editor α) : Keeps e e := ⟨rfl, rfl⟩

theorem Keeps.trans {e middle after : Editor α} (first : Keeps e middle)
    (second : Keeps middle after) : Keeps e after where
  words := second.words.trans first.words
  typing := second.typing.trans first.typing

theorem Keeps.of_scene {e after : Editor α} {s : Scene α} (scene : after.scene = s)
    (diagram : s.diagram = e.scene.diagram) (typing : after.textEdit = e.textEdit) :
    Keeps e after where
  words := by rw [data, data, scene, diagram]
  typing := typing

section Keeps
variable {e : Editor α}

theorem keeps_select (selection : Option Selection) : Keeps e (e.select selection).editor := by
  unfold select
  simp only
  split
  · exact .refl e
  · exact ⟨rfl, rfl⟩

theorem keeps_zoomed (view : Option (Viewport α)) : Keeps e (e.zoomed view).editor := by
  cases view <;> exact ⟨rfl, rfl⟩

theorem keeps_mutate {change : Scene α → Option (Scene α)}
    (kept : ∀ s, change e.scene = some s → s.diagram.words = e.data.words) :
    Keeps e (e.mutate change).editor := by
  unfold mutate
  cases changed : change e.scene with
  | none => exact .refl e
  | some s => exact ⟨kept s changed, rfl⟩

theorem keeps_mutateNode {id : Nat} {change : Node α → Option (Node α)}
    (kept : ∀ n changed, change n = some changed → changed.word = n.word) :
    Keeps e (e.mutateNode id change).editor := by
  refine keeps_mutate ?_
  intro s made
  obtain ⟨n, found, made⟩ := Option.bind_eq_some_iff.mp made
  obtain ⟨changed, same, made⟩ := Option.bind_eq_some_iff.mp made
  obtain rfl := Option.some.inj made
  refine Diagram.words_updateNode ?_
  intro m present
  obtain rfl := Option.some.inj (found.symm.trans present)
  exact kept n changed same

theorem keeps_setEdgeLabel (index : Nat) (label : Option String) :
    Keeps e (e.setEdgeLabel index label).editor := by
  unfold setEdgeLabel
  refine keeps_mutate ?_
  intro s changed
  split at changed
  · cases changed
  · split at changed
    · cases changed
    · cases changed
      rfl

theorem keeps_setStyle (id : Nat) (style : Option Palette) :
    Keeps e (e.setStyle id style).editor := by
  unfold setStyle
  refine keeps_mutateNode ?_
  intro n changed styled
  split at styled <;> cases styled
  rfl

theorem keeps_deleteEdge (index : Nat) : Keeps e (e.deleteEdge index).editor := by
  suffices kept : Keeps e (e.mutate fun s => (s.deleteEdge? index).map (·.2)).editor from
    ⟨kept.words, kept.typing⟩
  refine keeps_mutate ?_
  intro s deleted
  obtain ⟨⟨edge, rest⟩, found, rfl⟩ := Option.map_eq_some_iff.mp deleted
  obtain rfl := Scene.exists_of_deleteEdge? found
  rfl

/-- The first block with the number goes, with what is written in it. -/
theorem words_deleteNode (e : Editor α) (id : Nat) :
    (e.deleteNode id).editor.data.words = e.data.words.eraseP (·.1 == id) := by
  unfold deleteNode mutate
  simp only [Scene.deleteNode?, Diagram.words, List.eraseP_map]
  cases found : e.scene.diagram.node? id with
  | none =>
      have absent := List.find?_eq_none.mp found
      simp only [Option.map_none]
      exact congrArg (List.map Node.word) (List.eraseP_of_forall_not absent).symm
  | some n => rfl

theorem typing_deleteNode (e : Editor α) (id : Nat) :
    (e.deleteNode id).editor.textEdit = e.textEdit := by
  unfold deleteNode mutate
  split <;> rfl

variable [Scalar α]

theorem keeps_moveNode (id : Nat) (x y : α) : Keeps e (e.moveNode id x y).editor := by
  unfold moveNode
  refine keeps_mutateNode ?_
  intro n changed moved
  split at moved <;> cases moved
  rfl

theorem keeps_resizeNode (id : Nat) (width height : α) :
    Keeps e (e.resizeNode id width height).editor := by
  unfold resizeNode
  refine keeps_mutateNode ?_
  intro n changed resized
  split at resized <;> cases resized
  rfl

theorem keeps_setShape (id : Nat) (shape : Option BlockKind) :
    Keeps e (e.setShape id shape).editor := by
  unfold setShape
  refine keeps_mutateNode ?_
  intro n changed shaped
  split at shaped <;> cases shaped
  exact Node.word_sizeNode _ _

theorem keeps_autoLayout {o : Outcome α Unit} (performed : e.autoLayout = .ok o) :
    Keeps e o.editor := by
  unfold autoLayout at performed
  split at performed
  · cases performed
    exact .refl e
  · split at performed
    · cases performed
    · next a arranged =>
      cases performed
      refine Keeps.trans ?_ (keeps_zoomed _)
      split
      · exact ⟨Diagram.words_arrange arranged, rfl⟩
      · exact ⟨Diagram.words_arrange arranged, rfl⟩

theorem keeps_pointerDown (position : Point α) : Keeps e (e.pointerDown position) := by
  have typing : (e.pointerDown position).textEdit = e.textEdit := by
    unfold pointerDown
    simp only
    split <;> rfl
  cases press_pointerDown e position with
  | grab _ _ _ _ _ scene => exact .of_scene scene rfl typing
  | pan _ _ scene => exact .of_scene scene rfl typing

end Keeps

section Pointer
variable [Metric α] {e : Editor α}

theorem keeps_pointerMove (position : Point α) : Keeps e (e.pointerMove position) := by
  have typing : (e.pointerMove position).textEdit = e.textEdit := by
    unfold pointerMove
    split
    · split
      · rfl
      · split <;> rfl
    · rfl
    · rfl
  cases motion_pointerMove e position with
  | rest _ scene _ => exact .of_scene scene rfl typing
  | follow _ _ _ _ scene =>
      refine ⟨?_, typing⟩
      rw [data, scene]
      exact Diagram.words_updateNode fun _ _ => rfl

theorem typing_drop (e : Editor α) (drag : Drag α) :
    (e.drop drag).editor.textEdit = e.textEdit := by
  unfold drop
  split
  · rfl
  · split <;> rfl

theorem keeps_pointerUp (position : Point α) : Keeps e (e.pointerUp position).editor := by
  have typing : (e.pointerUp position).editor.textEdit = e.textEdit := by
    unfold pointerUp
    simp only
    split
    · split
      · rfl
      · split
        · exact typing_drop _ _
        · exact (keeps_select _).typing
    · split
      · exact (keeps_select _).typing
      · rfl
    · rfl
  cases release_pointerUp e position with
  | rest _ _ kept scene =>
      have unmoved := (kept_of_selected scene).1
      rcases kept with ⟨rfl, -⟩ | ⟨rfl, -⟩
      · exact .of_scene rfl unmoved typing
      · exact .of_scene rfl unmoved typing
  | back _ _ _ _ scene => exact .of_scene scene rfl typing
  | moved _ _ _ scene => exact .of_scene scene rfl typing

end Pointer

section Writes

/-- What an operation does to the words and to the label that is open. -/
inductive Writes [Metric α] (e : Editor α) (operation : Operation α) (o : Outcome α Unit) :
    Prop where
  | keep (keeps : Keeps e o.editor)
  | type {buffer : String} (made : o.editor = e.typeText buffer)
  | cancel (made : o.editor = e.cancelText)
  | commit (made : o = e.commitText.unit)
  | start {id : Nat} (made : o = (e.beginText id).unit)
  | take {id : Nat} (asked : operation.taken? e = some id)
      (words : o.editor.data.words = e.data.words.eraseP (·.1 == id))
      (typing : o.editor.textEdit = e.textEdit)
  | replace (other : ¬ operation.Plain) (closed : o.editor.textEdit = none)

variable [Metric α] {e : Editor α} {operation : Operation α} {o : Outcome α Unit}

theorem closed_load {d : Diagram α} (loaded : e.load d = .ok o) : o.editor.textEdit = none := by
  unfold load at loaded
  simp only at loaded
  split at loaded
  · cases loaded
  · cases loaded
    exact (keeps_zoomed _).typing

theorem writes_key (k : EditKey) : Writes e operation (e.key k).unit := by
  unfold key
  split
  · exact .keep (.refl e)
  · cases k with
    | enter shift =>
        cases shift with
        | true => exact .keep (.refl e)
        | false => exact .commit rfl
    | escape => exact .cancel rfl

theorem writes_doubleClick (position : Point α) :
    Writes e operation (e.doubleClick position).unit := by
  unfold doubleClick
  split
  · exact .start rfl
  · exact .keep (.refl e)
  · exact .keep (.refl e)

theorem writes_deleteSelection : Writes e .deleteSelection e.deleteSelection.unit := by
  unfold deleteSelection
  split
  · next id selected =>
    refine .take ?_ (words_deleteNode e id) (typing_deleteNode e id)
    simp only [Operation.taken?, selected]
  · exact .keep (keeps_deleteEdge _)
  · exact .keep (.refl e)

theorem writes_undo : Writes e .undo e.undo.unit := by
  unfold Editor.undo
  split
  · exact .replace id rfl
  · exact .keep (.refl e)

theorem writes_redo : Writes e .redo e.redo.unit := by
  unfold Editor.redo
  split
  · exact .replace id rfl
  · exact .keep (.refl e)

theorem writes_of_perform (performed : operation.perform e = .ok o) : Writes e operation o := by
  cases operation with
  | load d => exact .replace id (closed_load performed)
  | loadSource source =>
      obtain ⟨loaded, made, rfl⟩ := exists_of_map_eq_ok performed
      exact .replace id (closed_load (load_of_loadSource made))
  | autoLayout => exact .keep (keeps_autoLayout performed)
  | pointerDown position => cases performed; exact .keep (keeps_pointerDown position)
  | pointerMove position => cases performed; exact .keep (keeps_pointerMove position)
  | pointerUp position => cases performed; exact .keep (keeps_pointerUp position)
  | doubleClick position => cases performed; exact writes_doubleClick position
  | select selection => cases performed; exact .keep (keeps_select selection)
  | wheel delta pointer => cases performed; exact .keep (keeps_zoomed _)
  | zoomIn => cases performed; exact .keep (keeps_zoomed _)
  | zoomOut => cases performed; exact .keep (keeps_zoomed _)
  | fit => cases performed; exact .keep (keeps_zoomed _)
  | resizeView width height => cases performed; exact .keep ⟨rfl, rfl⟩
  | beginText id => cases performed; exact .start rfl
  | typeText buffer => cases performed; exact .type rfl
  | key k => cases performed; exact writes_key k
  | commitText => cases performed; exact .commit rfl
  | cancelText => cases performed; exact .cancel rfl
  | setEdgeLabel index label => cases performed; exact .keep (keeps_setEdgeLabel index label)
  | moveNode id x y => cases performed; exact .keep (keeps_moveNode id x y)
  | resizeNode id width height => cases performed; exact .keep (keeps_resizeNode id width height)
  | setShape id shape => cases performed; exact .keep (keeps_setShape id shape)
  | setStyle id style => cases performed; exact .keep (keeps_setStyle id style)
  | deleteNode id =>
      cases performed
      exact .take rfl (words_deleteNode e id) (typing_deleteNode e id)
  | deleteEdge index => cases performed; exact .keep (keeps_deleteEdge index)
  | deleteSelection => cases performed; exact writes_deleteSelection
  | undo => cases performed; exact writes_undo
  | redo => cases performed; exact writes_redo
  | listen kind => cases performed; exact .keep ⟨rfl, rfl⟩
  | unlisten listener => cases performed; exact .keep ⟨rfl, rfl⟩

end Writes

/-- A run can go on by opening a label and typing. -/
theorem Run.typed [Metric α] {permits : Editor α → Operation α → Outcome α Unit → Prop}
    {first e : Editor α} {id : Nat} {buffer : String} (run : Run permits first e)
    (opens : permits e (.beginText id) (e.beginText id).unit)
    (types : permits (e.beginText id).editor (.typeText buffer)
      (.silent ((e.beginText id).editor.typeText buffer))) :
    Run permits first ((e.beginText id).editor.typeText buffer) := by
  have opened : Run permits first (e.beginText id).editor :=
    @Run.step α _ permits first e (.beginText id) (e.beginText id).unit run opens rfl
  exact @Run.step α _ permits first _ (.typeText buffer) (.silent _) opened types rfl

end Editor
end Flowchart
