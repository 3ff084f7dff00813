import Mathlib.Logic.Relation
import Flowchart.Proofs.Editor.Run
import Flowchart.Proofs.Scene
/-! What listeners are told. Whatever changes the selection, the history or the zoom says so, so who
remembers the last event of a kind knows how the editor is. Only loading drops a selection without a
word. -/
namespace Flowchart

namespace Event

variable {α : Type}

def selection? : Event α → Option (Option Selection)
  | .selectionChanged selection => some selection
  | _ => none

/-- Can be undone, can be redone. -/
def history? : Event α → Option (Bool × Bool)
  | .historyChanged canUndo canRedo => some (canUndo, canRedo)
  | _ => none

def scale? : Event α → Option α
  | .zoomChanged scale => some scale
  | _ => none

variable {β : Type} {pick : Event α → Option β}

/-- What the last of the picked events says; without one, what was known before. -/
def lastTold (pick : Event α → Option β) (known : β) (events : List (Event α)) : β :=
  (events.filterMap pick).getLast?.getD known

theorem lastTold_append (known : β) (events later : List (Event α)) :
    lastTold pick known (events ++ later) = lastTold pick (lastTold pick known events) later := by
  rw [lastTold, List.filterMap_append, List.getLast?_append, Option.getD_or]
  rfl

/-- Events of other kinds do not matter. -/
theorem lastTold_filter {kind : EventKind}
    (picks : ∀ event b, pick event = some b → event.kind = kind) (known : β)
    (events : List (Event α)) :
    lastTold pick known (events.filter (·.kind == kind)) = lastTold pick known events := by
  rw [lastTold, List.filterMap_filter]
  refine congrArg (fun told : List β => told.getLast?.getD known) (List.filterMap_congr ?_)
  intro event _
  split
  · rfl
  · next other =>
    cases picked : pick event with
    | none => rfl
    | some b => exact absurd (beq_iff_eq.mpr (picks event b picked)) other

theorem kind_of_selection? (event : Event α) (selection : Option Selection)
    (told : event.selection? = some selection) : event.kind = .selectionChanged := by
  cases event <;> cases told
  rfl

theorem kind_of_history? (event : Event α) (can : Bool × Bool)
    (told : event.history? = some can) : event.kind = .historyChanged := by
  cases event <;> cases told
  rfl

theorem kind_of_scale? (event : Event α) (scale : α) (told : event.scale? = some scale) :
    event.kind = .zoomChanged := by
  cases event <;> cases told
  rfl

end Event

namespace Listeners

variable {α : Type} {ls : Listeners} {listener : Nat} {kind : EventKind}

/-- The listener is there, once, for one kind of events. -/
structure Hears (ls : Listeners) (listener : Nat) (kind : EventKind) : Prop where
  once : ls.active.filter (·.1 == listener) = [(listener, kind)]
  known : listener < ls.next

theorem Hears.on (hears : ls.Hears listener kind) (other : EventKind) :
    (ls.on other).Hears listener kind where
  once := by
    have newer : (ls.next == listener) = false := beq_eq_false_iff_ne.mpr hears.known.ne'
    rw [Listeners.on, List.filter_append, hears.once, List.filter_cons_of_neg (by simp [newer])]
    rfl
  known := Nat.lt_succ_of_lt hears.known

theorem Hears.off (hears : ls.Hears listener kind) {other : Nat} (different : other ≠ listener) :
    ((ls.off? other).getD ls).Hears listener kind := by
  unfold off?
  split
  · refine ⟨?_, hears.known⟩
    rw [Option.getD_some, List.filter_filter, ← hears.once]
    refine List.filter_congr ?_
    intro p _
    by_cases own : p.1 = listener
    · simp [own, different.symm]
    · simp [own]
  · exact hears

/-- What has reached one listener. -/
def heardBy (listener : Nat) (heard : List (Nat × Event α)) : List (Event α) :=
  (heard.filter (·.1 == listener)).map (·.2)

theorem heardBy_append (listener : Nat) (heard later : List (Nat × Event α)) :
    heardBy listener (heard ++ later) = heardBy listener heard ++ heardBy listener later := by
  rw [heardBy, List.filter_append, List.map_append]
  rfl

/-- A listener is told of each event of its kind, and of no other. -/
theorem Hears.deliver (hears : ls.Hears listener kind) (events : List (Event α)) :
    heardBy listener (ls.deliver events) = events.filter (·.kind == kind) := by
  induction events with
  | nil => rfl
  | cons event events ih =>
      have own : (ls.active.filter (·.2 == event.kind)).filter (·.1 == listener) =
          [(listener, kind)].filter (·.2 == event.kind) := by
        rw [← hears.once, List.filter_filter, List.filter_filter]
        exact List.filter_congr fun p _ => Bool.and_comm _ _
      have same : ((fun p : Nat × Event α => p.1 == listener) ∘
          ((fun x => (x, event)) ∘ fun p : Nat × EventKind => p.1)) = (·.1 == listener) := rfl
      have here : heardBy listener ((ls.of event.kind).map (·, event)) =
          [event].filter (·.kind == kind) := by
        rw [heardBy, Listeners.of, List.map_map, List.filter_map, List.map_map, same, own]
        by_cases told : event.kind = kind
        · simp [told]
        · simp [told, Ne.symm told]
      rw [Listeners.deliver, List.flatMap_cons, heardBy_append, here, ← Listeners.deliver, ih,
        ← List.filter_append]
      rfl

end Listeners

namespace Editor
open Event (selection? history? scale? lastTold lastTold_append)

variable {α β γ : Type}

/-- What is said when something selected goes. -/
theorem lastTold_cleared (e : Editor α) :
    lastTold selection? e.selection (cleared e.selection.isSome : List (Event α)) = none := by
  cases e.selection <;> rfl

theorem lastTold_scale_cleared (scale : α) (had : Bool) :
    lastTold scale? scale (cleared had : List (Event α)) = scale := by
  cases had <;> rfl

/-- Can be undone, can be redone. -/
def can (e : Editor α) : Bool × Bool := (e.history.canUndo, e.history.canRedo)

section Scalar
variable [Scalar α]

/-- One change of the scale of a view. -/
inductive Zoom (scale : α) : α → Prop where
  | fit (view : Viewport α) (bounds : Box α) : Zoom scale (view.fit bounds).scale
  | step {factor : α} (usual : factor ∈ [wheelIn, wheelOut, stepIn, stepOut]) :
      Zoom scale (clamp Viewport.minScale Viewport.maxScale (scale * factor))

/-- Who knows how the editor was and hears the events knows how it is. The scale changes in the
usual ways, and listeners do not change at all. -/
structure Tells (e : Editor α) (o : Outcome α β) : Prop where
  selection : lastTold selection? e.selection o.events = o.editor.selection
  history : lastTold history? e.can o.events = o.editor.can
  scale : lastTold scale? e.viewport.scale o.events = o.editor.viewport.scale
  zoom : Relation.ReflTransGen Zoom e.viewport.scale o.editor.viewport.scale
  listeners : o.editor.listeners = e.listeners

theorem Tells.refl (e : Editor α) (result : β) : Tells e ⟨result, e, []⟩ :=
  ⟨rfl, rfl, rfl, .refl, rfl⟩

/-- A change of the history is told with the data, and earlier events may have told the rest. -/
theorem Tells.recorded {e after : Editor α} {events : List (Event α)}
    (selection : lastTold selection? e.selection events = after.selection)
    (scale : lastTold scale? e.viewport.scale events = e.viewport.scale)
    (view : after.viewport = e.viewport) (listeners : after.listeners = e.listeners)
    (result : β) :
    Tells e ⟨result, after, events ++ [after.historyChanged, after.dataChanged]⟩ where
  selection := by rw [lastTold_append, selection]; rfl
  history := by rw [lastTold_append]; rfl
  scale := by rw [lastTold_append, scale, view]; rfl
  zoom := by rw [view]
  listeners := listeners

theorem Tells.map {e : Editor α} {o : Outcome α β} (tells : Tells e o) (f : β → γ) :
    Tells e (o.map f) :=
  ⟨tells.selection, tells.history, tells.scale, tells.zoom, tells.listeners⟩

theorem Tells.andThen {e : Editor α} {o : Outcome α β} {next : Editor α → Outcome α γ}
    (tells : Tells e o) (later : Tells o.editor (next o.editor)) : Tells e (o.andThen next) where
  selection := by
    rw [Outcome.andThen, lastTold_append, tells.selection]
    exact later.selection
  history := by
    rw [Outcome.andThen, lastTold_append, tells.history]
    exact later.history
  scale := by
    rw [Outcome.andThen, lastTold_append, tells.scale]
    exact later.scale
  zoom := tells.zoom.trans later.zoom
  listeners := later.listeners.trans tells.listeners

section Changes
variable {e : Editor α}

theorem tells_select (e : Editor α) (selection : Option Selection) :
    Tells e (e.select selection) := by
  unfold select
  simp only
  split
  · exact .refl e ()
  · exact ⟨rfl, rfl, rfl, .refl, rfl⟩

theorem tells_mutate {change : Scene α → Option (Scene α)}
    (keeps : ∀ s, change e.scene = some s → s.selection = e.scene.selection) :
    Tells e (e.mutate change) := by
  unfold mutate
  cases changed : change e.scene with
  | none => exact .refl e false
  | some s =>
      exact @Tells.recorded α Bool _ e (e.commit s) [] (keeps s changed).symm rfl rfl rfl true

theorem tells_mutateNode (id : Nat) (change : Node α → Option (Node α)) :
    Tells e (e.mutateNode id change) := by
  refine tells_mutate ?_
  intro s made
  obtain ⟨n, -, made⟩ := Option.bind_eq_some_iff.mp made
  obtain ⟨changed, -, made⟩ := Option.bind_eq_some_iff.mp made
  obtain rfl := Option.some.inj made
  rfl

/-- A change after which nothing is selected. -/
theorem tells_mutate_cleared {change : Scene α → Option (Scene α)}
    (clears : ∀ s, change e.scene = some s → s.selection = none) :
    Tells e { e.mutate change with
      events := (e.mutate change).events ++
        cleared ((e.mutate change).result && e.selection.isSome) } := by
  unfold mutate
  cases changed : change e.scene with
  | none => exact .refl e false
  | some s =>
      constructor
      case selection => exact (lastTold_cleared e).trans (clears s changed).symm
      case history =>
        rw [lastTold_append]
        cases e.selection <;> rfl
      case scale => exact lastTold_scale_cleared ..
      case zoom => exact .refl
      case listeners => rfl

theorem tells_deleteNode (id : Nat) : Tells e (e.deleteNode id) := by
  refine tells_mutate_cleared ?_
  intro s deleted
  obtain ⟨⟨n, rest⟩, found, rfl⟩ := Option.map_eq_some_iff.mp deleted
  obtain rfl := Scene.exists_of_deleteNode? found
  rfl

theorem tells_deleteEdge (index : Nat) : Tells e (e.deleteEdge index) := by
  refine tells_mutate_cleared ?_
  intro s deleted
  obtain ⟨⟨edge, rest⟩, found, rfl⟩ := Option.map_eq_some_iff.mp deleted
  obtain rfl := Scene.exists_of_deleteEdge? found
  rfl

theorem tells_deleteSelection (e : Editor α) : Tells e e.deleteSelection := by
  unfold deleteSelection
  split
  · exact tells_deleteNode _
  · exact tells_deleteEdge _
  · exact .refl e false

theorem tells_setEdgeLabel (index : Nat) (label : Option String) :
    Tells e (e.setEdgeLabel index label) := by
  unfold setEdgeLabel
  refine tells_mutate ?_
  intro s changed
  split at changed
  · cases changed
  · split at changed <;> cases changed
    rfl

theorem tells_restore (history : History (Diagram α)) (d : Diagram α) :
    Tells e (e.restore history d) := by
  refine .recorded ?_ ?_ ?_ ?_ true
  · exact lastTold_cleared e
  · exact lastTold_scale_cleared ..
  · rfl
  · rfl

theorem tells_undo (e : Editor α) : Tells e e.undo := by
  unfold undo
  split
  · exact tells_restore _ _
  · exact .refl e false

theorem tells_redo (e : Editor α) : Tells e e.redo := by
  unfold redo
  split
  · exact tells_restore _ _
  · exact .refl e false

theorem tells_zoomed {view : Option (Viewport α)}
    (zoom : ∀ viewport, view = some viewport → Zoom e.viewport.scale viewport.scale) :
    Tells e (e.zoomed view) := by
  cases view with
  | none => exact .refl e ()
  | some viewport => exact ⟨rfl, rfl, rfl, .single (zoom viewport rfl), rfl⟩

theorem tells_zoomAt {factor : α} (usual : factor ∈ [wheelIn, wheelOut, stepIn, stepOut])
    (anchor : Point α) : Tells e (e.zoomed (e.viewport.zoomAt? factor anchor)) := by
  refine tells_zoomed ?_
  intro viewport zoomed
  unfold Viewport.zoomAt? at zoomed
  simp only at zoomed
  split at zoomed
  · cases zoomed
  · cases zoomed
    exact .step usual

theorem tells_wheel (e : Editor α) (delta : α) (pointer : Point α) :
    Tells e (e.wheel delta pointer) := by
  refine tells_zoomAt ?_ pointer
  split <;> simp

theorem tells_fit (e : Editor α) : Tells e e.fit := by
  refine tells_zoomed ?_
  intro viewport fitted
  obtain ⟨bounds, -, rfl⟩ := Option.map_eq_some_iff.mp fitted
  exact .fit e.viewport bounds

theorem tells_openText (e : Editor α) (id : Nat) : Tells e (e.openText id) := by
  unfold openText
  split
  · exact .refl e false
  · split
    · exact ⟨rfl, rfl, rfl, .refl, rfl⟩
    · exact .refl e false

theorem tells_commitText (e : Editor α) : Tells e e.commitText := by
  unfold commitText
  split
  · exact .refl e none
  · simp only
    split
    · exact ⟨rfl, rfl, rfl, .refl, rfl⟩
    · split
      · exact ⟨rfl, rfl, rfl, .refl, rfl⟩
      · exact ⟨rfl, rfl, rfl, .refl, rfl⟩

theorem tells_beginText (e : Editor α) (id : Nat) : Tells e (e.beginText id) :=
  (tells_commitText e).andThen (tells_openText _ id)

theorem tells_key (e : Editor α) (k : EditKey) : Tells e (e.key k) := by
  unfold key
  split
  · exact .refl e false
  · split
    · exact .refl e false
    · exact (tells_commitText e).map _
    · exact ⟨rfl, rfl, rfl, .refl, rfl⟩

theorem tells_autoLayout {o : Outcome α Unit} (performed : e.autoLayout = .ok o) : Tells e o := by
  unfold autoLayout at performed
  split at performed
  · cases performed
    exact .refl e ()
  · split at performed
    · cases performed
    · cases performed
      refine Tells.andThen ?_ (tells_fit _)
      split
      · exact ⟨rfl, rfl, rfl, .refl, rfl⟩
      · exact ⟨rfl, rfl, rfl, .refl, rfl⟩

theorem tells_pointerDown (e : Editor α) (position : Point α) :
    Tells e (.silent (e.pointerDown position)) := by
  unfold pointerDown
  simp only
  split
  · next id _ =>
    refine ⟨?_, rfl, rfl, .refl, rfl⟩
    change e.scene.selection = ((e.scene.startDrag? id _).getD e.scene).selection
    rw [Scene.startDrag?]
    cases e.scene.diagram.node? id <;> rfl
  · exact ⟨rfl, rfl, rfl, .refl, rfl⟩

theorem tells_drop (e : Editor α) (drag : Drag α) : Tells e (e.drop drag) := by
  unfold drop
  split
  · exact .refl e ()
  · split
    · exact .refl e ()
    · exact ⟨rfl, rfl, rfl, .refl, rfl⟩

/-- A load tells everything but that the selection is gone. -/
theorem tells_load {d : Diagram α} {o : Outcome α Unit} (loaded : e.load d = .ok o) :
    Tells { e with scene := e.scene.select none } o ∧
      ∀ known, lastTold selection? known o.events = known := by
  unfold load at loaded
  simp only at loaded
  split at loaded
  · cases loaded
  · next a _ =>
    cases loaded
    let shown := { e with
      scene := { Scene.ofDiagram d with diagram := a.diagram }
      history := e.history.clear
      gesture := none
      textEdit := none }
    have tells : Tells shown
        (shown.fit.andThen fun e => ⟨(), e, [e.historyChanged, e.dataChanged]⟩) :=
      (tells_fit shown).andThen ⟨rfl, rfl, rfl, .refl, rfl⟩
    refine ⟨⟨tells.selection, ?_, tells.scale, tells.zoom, tells.listeners⟩, ?_⟩
    · rw [Outcome.andThen, lastTold_append]
      rfl
    · intro known
      have unsaid : lastTold selection? known shown.fit.events = known := by
        unfold fit zoomed
        split <;> rfl
      rw [Outcome.andThen, lastTold_append, unsaid]
      rfl

end Changes
end Scalar

section Metric
variable [Metric α] {e : Editor α}

theorem tells_pointerMove (e : Editor α) (position : Point α) :
    Tells e (.silent (e.pointerMove position)) := by
  unfold pointerMove
  split
  · split
    · exact .refl e ()
    · split
      · exact .refl e ()
      · exact ⟨rfl, rfl, rfl, .refl, rfl⟩
  · exact ⟨rfl, rfl, rfl, .refl, rfl⟩
  · exact .refl e ()

theorem tells_pointerUp (e : Editor α) (position : Point α) :
    Tells e (e.pointerUp position) := by
  unfold pointerUp
  simp only
  split
  · split
    · exact ⟨rfl, rfl, rfl, .refl, rfl⟩
    · next drag _ =>
      let released := { e with gesture := none, scene := e.scene.endDrag }
      split
      · have tells := tells_drop released drag
        exact ⟨tells.selection, tells.history, tells.scale, tells.zoom, tells.listeners⟩
      · have tells := tells_select released (some (.node drag.node))
        exact ⟨tells.selection, tells.history, tells.scale, tells.zoom, tells.listeners⟩
  · split
    · have tells := tells_select { e with gesture := none }
        (hitTest { e with gesture := none } position)
      exact ⟨tells.selection, tells.history, tells.scale, tells.zoom, tells.listeners⟩
    · exact ⟨rfl, rfl, rfl, .refl, rfl⟩
  · exact ⟨rfl, rfl, rfl, .refl, rfl⟩

theorem tells_doubleClick (e : Editor α) (position : Point α) :
    Tells e (e.doubleClick position) := by
  unfold doubleClick
  split
  · exact (tells_beginText e _).map _
  · exact ⟨rfl, rfl, rfl, .refl, rfl⟩
  · exact .refl e _

/-- What an operation says. Loading drops the selection without a word. -/
inductive Telling (e : Editor α) (operation : Operation α) (o : Outcome α Unit) : Prop where
  | all (tells : Tells e o)
  | load {d : Diagram α} (asked : operation.Loads d)
      (tells : Tells { e with scene := e.scene.select none } o)
      (unsaid : ∀ known, lastTold selection? known o.events = known)
  | listen {kind : EventKind} (made : o = .silent { e with listeners := e.listeners.on kind })
  | unlisten {listener : Nat} (asked : operation = .unlisten listener)
      (made : o = .silent { e with listeners := (e.listeners.off? listener).getD e.listeners })

theorem telling_of_perform {operation : Operation α} {o : Outcome α Unit}
    (performed : operation.perform e = .ok o) : Telling e operation o := by
  cases operation with
  | load d =>
      obtain ⟨tells, unsaid⟩ := tells_load performed
      exact .load rfl tells unsaid
  | loadSource source =>
      obtain ⟨loaded, made, rfl⟩ := exists_of_map_eq_ok performed
      obtain ⟨tells, unsaid⟩ := tells_load (load_of_loadSource made)
      exact .load rfl tells unsaid
  | autoLayout => exact .all (tells_autoLayout performed)
  | pointerDown position => cases performed; exact .all (tells_pointerDown e position)
  | pointerMove position => cases performed; exact .all (tells_pointerMove e position)
  | pointerUp position => cases performed; exact .all (tells_pointerUp e position)
  | doubleClick position => cases performed; exact .all ((tells_doubleClick e position).map _)
  | select selection => cases performed; exact .all (tells_select e selection)
  | wheel delta pointer => cases performed; exact .all (tells_wheel e delta pointer)
  | zoomIn => cases performed; exact .all (tells_zoomAt (by simp) _)
  | zoomOut => cases performed; exact .all (tells_zoomAt (by simp) _)
  | fit => cases performed; exact .all (tells_fit e)
  | resizeView width height => cases performed; exact .all ⟨rfl, rfl, rfl, .refl, rfl⟩
  | beginText id => cases performed; exact .all ((tells_beginText e id).map _)
  | typeText buffer => cases performed; exact .all ⟨rfl, rfl, rfl, .refl, rfl⟩
  | key k => cases performed; exact .all ((tells_key e k).map _)
  | commitText => cases performed; exact .all ((tells_commitText e).map _)
  | cancelText => cases performed; exact .all ⟨rfl, rfl, rfl, .refl, rfl⟩
  | setEdgeLabel index label =>
      cases performed
      exact .all ((tells_setEdgeLabel index label).map _)
  | moveNode id x y => cases performed; exact .all ((tells_mutateNode id _).map _)
  | resizeNode id width height => cases performed; exact .all ((tells_mutateNode id _).map _)
  | setShape id shape => cases performed; exact .all ((tells_mutateNode id _).map _)
  | setStyle id style => cases performed; exact .all ((tells_mutateNode id _).map _)
  | deleteNode id => cases performed; exact .all ((tells_deleteNode id).map _)
  | deleteEdge index => cases performed; exact .all ((tells_deleteEdge index).map _)
  | deleteSelection => cases performed; exact .all ((tells_deleteSelection e).map _)
  | undo => cases performed; exact .all ((tells_undo e).map _)
  | redo => cases performed; exact .all ((tells_redo e).map _)
  | listen kind => cases performed; exact .listen rfl
  | unlisten listener => cases performed; exact .unlisten rfl rfl

section Telling
variable {operation : Operation α} {o : Outcome α Unit} (telling : Telling e operation o)
include telling

theorem Telling.history : lastTold history? e.can o.events = o.editor.can := by
  cases telling with
  | all tells => exact tells.history
  | load _ tells _ => exact tells.history
  | listen made => rw [made]; rfl
  | unlisten _ made => rw [made]; rfl

theorem Telling.scale :
    lastTold scale? e.viewport.scale o.events = o.editor.viewport.scale := by
  cases telling with
  | all tells => exact tells.scale
  | load _ tells _ => exact tells.scale
  | listen made => rw [made]; rfl
  | unlisten _ made => rw [made]; rfl

theorem Telling.zoom :
    Relation.ReflTransGen Zoom e.viewport.scale o.editor.viewport.scale := by
  cases telling with
  | all tells => exact tells.zoom
  | load _ tells _ => exact tells.zoom
  | listen made => rw [made]; exact .refl
  | unlisten _ made => rw [made]; exact .refl

theorem Telling.selection (blank : ∀ d, operation.Loads d → e.selection = none) :
    lastTold selection? e.selection o.events = o.editor.selection := by
  cases telling with
  | all tells => exact tells.selection
  | load asked tells _ =>
      rw [blank _ asked]
      exact tells.selection
  | listen made => rw [made]; rfl
  | unlisten _ made => rw [made]; rfl

theorem Telling.hears {listener : Nat} {kind : EventKind}
    (hears : e.listeners.Hears listener kind) (stays : operation ≠ .unlisten listener) :
    o.editor.listeners.Hears listener kind := by
  cases telling with
  | all tells => exact tells.listeners ▸ hears
  | load _ tells _ => exact tells.listeners ▸ hears
  | @listen other made => rw [made]; exact hears.on other
  | unlisten asked made =>
      rw [made]
      refine hears.off ?_
      rintro rfl
      exact stays asked

end Telling

end Metric
end Editor
end Flowchart
