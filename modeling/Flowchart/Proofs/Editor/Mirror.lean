import Flowchart.Proofs.Editor.Told
import Flowchart.Proofs.Editor.Undo
import Flowchart.Proofs.Float
/-! Hosts that follow an editor by what they hear. After every operation the last event of a kind
is right, with one exception: a load while something is selected leaves the host with a selection
that is gone. -/
namespace Flowchart.Editor
open Event (selection? history? scale? lastTold lastTold_append lastTold_filter)
open Listeners (heardBy heardBy_append)

variable {α : Type}

theorem selection_select (e : Editor α) (selection : Option Selection) :
    (e.select selection).editor.selection = selection.filter e.scene.isValid := by
  unfold select
  simp only
  split
  · next same => exact same.symm
  · rfl

variable [Metric α]

/-- A run of permitted operations from one editor to another, with what the listeners hear. -/
inductive Heard (permits : Editor α → Operation α → Outcome α Unit → Prop) (first : Editor α) :
    Editor α → List (Nat × Event α) → Prop where
  | start : Heard permits first first []
  | step {e : Editor α} {heard : List (Nat × Event α)} {operation : Operation α}
      {o : Outcome α Unit} (earlier : Heard permits first e heard)
      (permitted : permits e operation o) (performed : operation.perform e = .ok o) :
      Heard permits first o.editor (heard ++ e.listeners.deliver o.events)

/-- The listener stays. -/
def Stays (listener : Nat) (_ : Editor α) (operation : Operation α) (_ : Outcome α Unit) : Prop :=
  operation ≠ .unlisten listener

/-- The listener stays, and nothing is selected when a chart is loaded. -/
structure Lasts (listener : Nat) (e : Editor α) (operation : Operation α) (o : Outcome α Unit) :
    Prop where
  stays : Stays listener e operation o
  blank : ∀ d, operation.Loads d → e.selection = none

section Heard
variable {permits : Editor α → Operation α → Outcome α Unit → Prop} {first now : Editor α}
  {heard : List (Nat × Event α)} {listener : Nat} {kind : EventKind}

theorem Heard.hears (run : Heard permits first now heard)
    (stays : ∀ e operation o, permits e operation o → Stays listener e operation o)
    (hears : first.listeners.Hears listener kind) : now.listeners.Hears listener kind := by
  induction run with
  | start => exact hears
  | step _ permitted performed ih =>
      exact (telling_of_perform performed).hears ih (stays _ _ _ permitted)

theorem Heard.mono {others : Editor α → Operation α → Outcome α Unit → Prop}
    (run : Heard permits first now heard)
    (weaker : ∀ e operation o, permits e operation o → others e operation o) :
    Heard others first now heard := by
  induction run with
  | start => exact .start
  | step _ permitted performed ih => exact ih.step (weaker _ _ _ permitted) performed

/-- What every operation tells, a listener knows. -/
theorem Heard.told {β : Type} {pick : Event α → Option β} {look : Editor α → β}
    (run : Heard permits first now heard)
    (stays : ∀ e operation o, permits e operation o → Stays listener e operation o)
    (hears : first.listeners.Hears listener kind)
    (picks : ∀ event b, pick event = some b → event.kind = kind)
    (tells : ∀ e operation o, permits e operation o → Telling e operation o →
      lastTold pick (look e) o.events = look o.editor) :
    lastTold pick (look first) (heardBy listener heard) = look now := by
  induction run with
  | start => rfl
  | step earlier permitted performed ih =>
      have attending := earlier.hears stays hears
      rw [heardBy_append, lastTold_append, ih, attending.deliver, lastTold_filter picks]
      exact tells _ _ _ permitted (telling_of_perform performed)

/-- What a listener remembers about the selection. -/
def recalled (listener : Nat) (heard : List (Nat × Event α)) : Option Selection :=
  lastTold selection? none (heardBy listener heard)

/-- A load leaves nothing selected and its listeners as they were. -/
theorem recalled_load {d : Diagram α} {o : Outcome α Unit}
    (hears : now.listeners.Hears listener .selectionChanged) (loaded : now.load d = .ok o) :
    recalled listener (heard ++ now.listeners.deliver o.events) = recalled listener heard ∧
      o.editor.selection = none := by
  constructor
  · rw [recalled, heardBy_append, lastTold_append, hears.deliver,
      lastTold_filter Event.kind_of_selection?]
    exact (tells_load loaded).2 _
  · obtain ⟨a, -, scene, -⟩ := exists_of_load loaded
    rw [selection, scene]

theorem Heard.recalled (new : New first)
    (hears : first.listeners.Hears listener .selectionChanged)
    (run : Heard (Lasts listener) first now heard) :
    recalled listener heard = now.selection := by
  have blank : first.selection = none := by rw [selection, new.scene]
  rw [Editor.recalled, ← blank]
  refine run.told (fun _ _ _ permitted => permitted.stays) hears Event.kind_of_selection? ?_
  exact fun _ _ _ permitted telling => telling.selection permitted.blank

/-- Whoever listens to the selection from the beginning knows what is selected, as long as nothing
is selected when a chart is loaded. A load tells nobody that the selection is gone. -/
theorem run_selection_told (new : New first)
    (hears : first.listeners.Hears listener .selectionChanged)
    (run : Heard (Lasts listener) first now heard) :
    recalled listener heard = now.selection ∧
      ∀ d o, now.load d = .ok o →
        (recalled listener (heard ++ now.listeners.deliver o.events) = o.editor.selection ↔
          now.selection = none) := by
  have told := run.recalled new hears
  have attending := run.hears (fun _ _ _ permitted => permitted.stays) hears
  refine ⟨told, ?_⟩
  intro d o loaded
  obtain ⟨same, gone⟩ := recalled_load attending loaded
  rw [same, told, gone]

theorem Heard.zoom (run : Heard permits first now heard) :
    Relation.ReflTransGen Zoom first.viewport.scale now.viewport.scale := by
  induction run with
  | start => exact .refl
  | step _ _ performed ih => exact ih.trans (telling_of_perform performed).zoom

end Heard

/-- A new editor that somebody listens to. -/
def watched (kinds : List EventKind) : Editor Float :=
  { (ofViewport .standard : Editor Float) with listeners := kinds.foldl Listeners.on {} }

theorem new_watched (kinds : List EventKind) : New (watched kinds) :=
  ⟨rfl, rfl, rfl, rfl, rfl⟩

/-- The chart of one block can be loaded. -/
theorem exists_block (e : Editor Float) :
    ∃ o, e.load (Script.parse "ts()").diagram = .ok o ∧ (o.editor.data.node? 0).isSome = true := by
  obtain ⟨o, loaded, -, -, ids⟩ := loadSource_fresh e "ts()"
  have one : (Script.parse "ts()").blocks.length = 1 := by decide +kernel
  have member : 0 ∈ o.editor.data.nodes.map (·.id) := by simp [ids, one]
  obtain ⟨n, present, named⟩ := List.mem_map.mp member
  have found : (o.editor.data.node? 0).isSome = true :=
    List.find?_isSome.mpr ⟨n, present, beq_iff_eq.mpr named⟩
  exact ⟨o.unit, load_of_loadSource loaded, found⟩

/-- The block is selected. -/
theorem exists_selected {permits : Editor Float → Operation Float → Outcome Float Unit → Prop}
    {first : Editor Float} (loads : ∀ d o, permits first (.load d) o)
    (selects : ∀ e o, permits e (.select (some (.node 0))) o) :
    ∃ now heard, Heard permits first now heard ∧ now.selection = some (.node 0) := by
  obtain ⟨o, loaded, valid⟩ := exists_block first
  have shown := Heard.start.step (loads _ _) loaded
  have selected := shown.step (selects _ _) (o := o.editor.select (some (.node 0))) rfl
  refine ⟨_, _, selected, ?_⟩
  rw [selection_select]
  exact Option.filter_some_pos valid

/-- The host knows of the selected block, and a load leaves it with a selection that is gone. -/
theorem run_selection_told_block :
    ∃ now heard, Heard (Lasts 0) (watched [.selectionChanged]) now heard ∧
      recalled 0 heard = some (.node 0) ∧
      ∀ d o, now.load d = .ok o →
        recalled 0 (heard ++ now.listeners.deliver o.events) ≠ o.editor.selection := by
  obtain ⟨now, heard, run, selected⟩ := @exists_selected (Lasts 0) (watched [.selectionChanged])
    (fun _ _ => ⟨nofun, fun _ _ => rfl⟩) (fun _ _ => ⟨nofun, fun _ loads => loads.elim⟩)
  have hears : (watched [.selectionChanged]).listeners.Hears 0 .selectionChanged :=
    ⟨rfl, Nat.one_pos⟩
  obtain ⟨told, later⟩ := run_selection_told (new_watched _) hears run
  refine ⟨now, heard, run, told.trans selected, ?_⟩
  intro d o loaded right
  exact absurd (((later d o loaded).mp right).symm.trans selected) nofun

/-- A chart is loaded, its block is selected and the chart is loaded again. -/
theorem run_selection_untold_reload :
    New (watched [.selectionChanged]) ∧
      (watched [.selectionChanged]).listeners.Hears 0 .selectionChanged ∧
      ∃ now heard, Heard (Stays 0) (watched [.selectionChanged]) now heard ∧
        recalled 0 heard ≠ now.selection := by
  have hears : (watched [.selectionChanged]).listeners.Hears 0 .selectionChanged :=
    ⟨rfl, Nat.one_pos⟩
  refine ⟨new_watched _, hears, ?_⟩
  obtain ⟨now, heard, run, selected⟩ := @exists_selected (Lasts 0) (watched [.selectionChanged])
    (fun _ _ => ⟨nofun, fun _ _ => rfl⟩) (fun _ _ => ⟨nofun, fun _ loads => loads.elim⟩)
  have told := run.recalled (new_watched _) hears
  have attending := run.hears (fun _ _ _ permitted => permitted.stays) hears
  obtain ⟨o, loaded, -⟩ := exists_block now
  obtain ⟨same, gone⟩ := @recalled_load Float _ now heard 0 _ _ attending loaded
  have attended : Heard (Stays 0) (watched [.selectionChanged]) now heard :=
    run.mono fun _ _ _ permitted => permitted.stays
  refine ⟨_, _, @Heard.step Float _ _ _ _ _ (.load _) _ attended nofun loaded, ?_⟩
  rw [same, told, selected, gone]
  exact nofun

theorem usual_factors : ∀ factor ∈ [wheelIn, wheelOut, stepIn, stepOut],
    factor.isFinite = true ∧ (0 : Float) < factor := by decide +kernel

/-- However a view is zoomed, its scale stays a number. -/
theorem number_of_zoom {scale after : Float} (zoom : Relation.ReflTransGen Zoom scale after)
    (number : scale.isNaN = false) : after.isNaN = false := by
  induction zoom with
  | refl => exact number
  | tail _ last ih =>
      cases last with
      | fit view bounds => exact number_greatest (by decide +kernel)
      | step usual =>
          obtain ⟨finite, positive⟩ := usual_factors _ usual
          exact number_clamp (by decide +kernel) (by decide +kernel)
            (number_mul ih finite positive)

/-- Whoever listens to the history and to the zoom from the beginning knows what can be undone and
redone, and the scale, which is a number all the time. -/
theorem run_history_zoom_told {first now : Editor Float} {heard : List (Nat × Event Float)}
    {listener zoomListener : Nat} (new : New first)
    (hears : first.listeners.Hears listener .historyChanged)
    (zooms : first.listeners.Hears zoomListener .zoomChanged)
    (visible : 0.1 ≤ first.viewport.scale)
    (run : Heard (fun e operation o =>
      Stays listener e operation o ∧ Stays zoomListener e operation o) first now heard) :
    lastTold history? (false, false) (heardBy listener heard) =
        (now.history.canUndo, now.history.canRedo) ∧
      lastTold scale? first.viewport.scale (heardBy zoomListener heard) = now.viewport.scale ∧
      (now.viewport.scale == now.viewport.scale) = true := by
  have nothing : first.can = (false, false) := by
    rw [can, History.canUndo, History.canRedo, new.past, new.future]
    rfl
  refine ⟨?_, ?_, ?_⟩
  · rw [← nothing]
    refine run.told (fun _ _ _ permitted => permitted.1) hears Event.kind_of_history? ?_
    exact fun _ _ _ _ telling => telling.history
  · exact @Heard.told Float _ _ _ _ _ _ _ _ _ (fun e => e.viewport.scale) run
      (fun _ _ _ permitted => permitted.2) zooms Event.kind_of_scale?
      fun _ _ _ _ telling => telling.scale
  · exact beq_self_iff_number.mpr (number_of_zoom run.zoom (numbers_of_le visible).2)

/-- A chart is loaded and its block deleted. -/
theorem run_history_zoom_told_deletion :
    (0.1 : Float) ≤ (watched [.historyChanged, .zoomChanged]).viewport.scale ∧
      ∃ now heard, Heard (fun e operation o => Stays 0 e operation o ∧ Stays 1 e operation o)
          (watched [.historyChanged, .zoomChanged]) now heard ∧
        lastTold history? (false, false) (heardBy 0 heard) = (true, false) ∧
        lastTold scale? 1 (heardBy 1 heard) = now.viewport.scale ∧
        (now.viewport.scale == now.viewport.scale) = true := by
  have visible : (0.1 : Float) ≤ (watched [.historyChanged, .zoomChanged]).viewport.scale := by
    decide +kernel
  obtain ⟨o, loaded, found⟩ := exists_block (watched [.historyChanged, .zoomChanged])
  have shown : Heard (fun e operation o => Stays 0 e operation o ∧ Stays 1 e operation o)
      (watched [.historyChanged, .zoomChanged]) o.editor _ :=
    @Heard.step Float _ _ _ _ _ (.load _) _ .start ⟨nofun, nofun⟩ loaded
  have deleted := @Heard.step Float _ _ _ _ _ (.deleteNode 0) (o.editor.deleteNode 0).unit shown
    ⟨nofun, nofun⟩ rfl
  obtain ⟨told, zoomed⟩ :=
    run_history_zoom_told (new_watched _) ⟨rfl, by decide⟩ ⟨rfl, by decide⟩ visible deleted
  have history := (@alters_deleteNode Float _ (.deleteNode 0) o.editor 0).tracks.history
  rw [deleteNode_recorded, found, if_pos rfl] at history
  refine ⟨visible, _, _, deleted, told.trans ?_, zoomed⟩
  change (o.editor.deleteNode 0).editor.can = (true, false)
  rw [can, history]
  rfl

end Flowchart.Editor
