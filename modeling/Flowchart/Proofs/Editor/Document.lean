import Flowchart.Picture
import Flowchart.Proofs.Editor.Acyclicity
import Flowchart.Proofs.Editor.Recovery
/-! The document of an editor. Looking around in a chart that was loaded from a script, and arranging
it again, leaves the document as it is: it is the picture of the script. -/
namespace Flowchart

namespace Picture

variable {α : Type} [Printable α]

/-- Neither what is selected nor what is held shows in a document. -/
theorem document_congr (settings : Settings α) {s t : Scene α} (same : s.diagram = t.diagram) :
    document settings s = document settings t := by
  have edges : ∀ index, s.edge? index = t.edge? index := fun index => by
    rw [Scene.edge?, Scene.edge?, same]
  have area : Drawing.area settings.style s .document = Drawing.area settings.style t .document := by
    rw [Drawing.area, Drawing.area, same]
  simp only [document, Drawing.draw, Drawing.canvas, Drawing.backdrop, Surface.isLive,
    Bool.false_and, area, edges, same]

/-- A chart with a block is drawn as any scene shows it that is laid out alike. -/
theorem render_eq_of_layout {settings : Settings α} {source : String}
    (some : (Script.parse source).blocks ≠ []) {a : Layout.Arrangement α} {s : Scene α}
    (laid : Layout.layout settings.layout (Scene.ofDiagram (Script.parse source).diagram).diagram =
      .ok a) (shown : s.diagram = a.diagram) :
    render settings source = .ok (document settings s) := by
  have blocks : (Script.parse source).blocks.isEmpty = false := by simpa using some
  simp only [render, scene, blocks, Bool.false_eq_true, if_false, laid]
  exact congrArg Except.ok (document_congr settings shown.symm)

end Picture

namespace Editor

variable {α : Type}

/-- Looks around or arranges the blocks again. Where the pointer is pressed there is no block. -/
def Views [Scalar α] (e : Editor α) : Operation α → Prop
  | .wheel _ _ | .zoomIn | .zoomOut | .fit | .resizeView _ _ => True
  | .select _ | .autoLayout | .pointerMove _ | .pointerUp _ => True
  | .pointerDown position => e.scene.nodeAt? (e.viewport.toLogical position) = none
  | .doubleClick position => e.scene.nodeAt? (e.viewport.toLogical position) = none
  | .listen _ | .unlisten _ => True
  | _ => False

/-- The same blocks and connections under the same settings, and no block is held. -/
structure Intact (first e : Editor α) : Prop where
  data : e.data = first.data
  settings : e.settings = first.settings
  released : e.Released

/-- Arranging the blocks again changes nothing. -/
def Arranged [Scalar α] (e : Editor α) : Prop :=
  ∃ a, Layout.arrange e.settings.layout e.data = .ok a ∧ a.diagram = e.data

theorem Quiet.intact {first e : Editor α} {β : Type} {o : Outcome α β} (quiet : Quiet e o)
    (intact : Intact first e) : Intact first o.editor where
  data := quiet.data.trans intact.data
  settings := quiet.settings.trans intact.settings
  released := quiet.released intact.released

theorem settings_load [Scalar α] {e : Editor α} {d : Diagram α} {o : Outcome α Unit}
    (loaded : e.load d = .ok o) : o.editor.settings = e.settings := by
  unfold load at loaded
  simp only at loaded
  split at loaded
  · cases loaded
  · cases loaded
    exact (still_zoomed _ _).settings

section Views
variable [Metric α] {first e now : Editor α} {operation : Operation α} {o : Outcome α Unit}

/-- Beside the blocks there are only connections to hit. -/
theorem hitTest_ne_node {position : Point α}
    (missed : e.scene.nodeAt? (e.viewport.toLogical position) = none) (id : Nat) :
    e.hitTest position ≠ some (.node id) := by
  unfold hitTest
  simp only [missed]
  intro hit
  obtain ⟨nearest, -, edge⟩ := Option.map_eq_some_iff.mp hit
  cases edge

theorem quiet_doubleClick {position : Point α}
    (missed : e.scene.nodeAt? (e.viewport.toLogical position) = none) :
    Quiet e (e.doubleClick position) := by
  unfold doubleClick
  split
  · next id hit => exact absurd hit (hitTest_ne_node missed id)
  · exact ⟨rfl, rfl, rfl, rfl, id⟩
  · exact .refl e _

theorem quiet_of_views (views : e.Views operation) (released : e.Released)
    (other : operation ≠ .autoLayout) (performed : operation.perform e = .ok o) : Quiet e o := by
  cases operation with
  | autoLayout => exact absurd rfl other
  | wheel delta pointer => cases performed; exact quiet_zoomed e _
  | zoomIn => cases performed; exact quiet_zoomed e _
  | zoomOut => cases performed; exact quiet_zoomed e _
  | fit => cases performed; exact quiet_zoomed e _
  | resizeView width height => cases performed; exact .silent e rfl rfl rfl id
  | select selection => cases performed; exact quiet_select e selection
  | pointerDown position => cases performed; exact quiet_pointerDown views
  | pointerMove position => cases performed; exact quiet_pointerMove released
  | pointerUp position => cases performed; exact quiet_pointerUp released
  | doubleClick position =>
      cases performed
      have quiet := quiet_doubleClick views
      exact ⟨quiet.unrecorded, quiet.history, quiet.data, quiet.settings, quiet.released⟩
  | listen kind => cases performed; exact .silent e rfl rfl rfl id
  | unlisten listener => cases performed; exact .silent e rfl rfl rfl id
  | _ => exact views.elim

theorem Intact.views (intact : Intact first e) (arranged : first.Arranged)
    (views : e.Views operation) (performed : operation.perform e = .ok o) :
    Intact first o.editor := by
  by_cases again : operation = .autoLayout
  · subst again
    have tracks := (@alters_autoLayout α _ e .autoLayout o performed).tracks
    refine ⟨?_, tracks.settings.trans intact.settings, tracks.released intact.released⟩
    obtain ⟨a, found, settled⟩ := arranged
    obtain ⟨b, placed, shown⟩ := data_autoLayout performed
    rw [intact.settings, intact.data, found] at placed
    cases placed
    exact shown.trans settled
  · exact (quiet_of_views views intact.released again performed).intact intact

theorem Run.intact (run : Run (fun e operation _ => e.Views operation) first now)
    (arranged : first.Arranged) (released : first.Released) : Intact first now := by
  induction run with
  | start => exact ⟨rfl, rfl, released⟩
  | step _ permitted performed ih => exact ih.views arranged permitted performed

end Views

/-- Whatever the settings, a script with a block is drawn as the editor draws it that has loaded it,
however one looks around in it and as often as it is arranged again, which can always be done. -/
theorem loadSource_document [Printable α] (e : Editor α) {source : String}
    (some : (Script.parse source).blocks ≠ []) :
    ∃ o, e.loadSource source = .ok o ∧
      ∀ now, Run (fun e operation _ => e.Views operation) o.editor now →
        Picture.render e.settings source = .ok (Picture.document now.settings now.scene) ∧
          ∃ later, now.autoLayout = .ok later := by
  obtain ⟨o, loaded, fresh, -, -⟩ := loadSource_fresh e source
  refine ⟨o, loaded, ?_⟩
  intro now run
  have intact := run.intact fresh.arranged fresh.released
  constructor
  · obtain ⟨a, laid, scene, -, -⟩ := exists_of_load (load_of_loadSource loaded)
    have settings : now.settings = e.settings :=
      intact.settings.trans (settings_load (load_of_loadSource loaded))
    have shown : now.scene.diagram = a.diagram :=
      intact.data.trans (congrArg Scene.diagram scene)
    rw [settings]
    exact Picture.render_eq_of_layout some laid shown
  · refine exists_autoLayout ?_
    rw [intact.data]
    exact fresh.distinct

/-- One looks closer at a loop, selects a block and has the blocks arranged again. -/
theorem loadSource_document_loop :
    (Script.parse "ts()\np[A]\n...\nts()\na>\np[A]\na>\nts()").blocks ≠ [] ∧
      ∃ o, (ofViewport .standard : Editor Float).loadSource
          "ts()\np[A]\n...\nts()\na>\np[A]\na>\nts()" = .ok o ∧
        ∃ now, Run (fun (e : Editor Float) operation _ => e.Views operation) o.editor now ∧
          Picture.render (.standard : Settings Float)
              "ts()\np[A]\n...\nts()\na>\np[A]\na>\nts()" =
            .ok (Picture.document now.settings now.scene) := by
  have some : (Script.parse "ts()\np[A]\n...\nts()\na>\np[A]\na>\nts()").blocks ≠ [] := by
    decide +kernel
  obtain ⟨o, loaded, drawn⟩ := loadSource_document (ofViewport .standard : Editor Float) some
  let closer := o.editor.wheel (-120) ⟨60, 30⟩
  let chosen := closer.editor.select (Option.some (.node 0))
  have zoomed : Run (fun (e : Editor Float) operation _ => e.Views operation) o.editor
      closer.editor :=
    @Run.step Float _ _ _ _ (.wheel (-120) ⟨60, 30⟩) closer .start trivial rfl
  have selected : Run (fun (e : Editor Float) operation _ => e.Views operation) o.editor
      chosen.editor :=
    @Run.step Float _ _ _ _ (.select (Option.some (.node 0))) chosen zoomed trivial rfl
  obtain ⟨-, later, arranged⟩ := drawn _ selected
  have run := @Run.step Float _ _ _ _ .autoLayout later selected trivial arranged
  exact ⟨some, o, loaded, _, run, (drawn _ run).1⟩

end Editor
end Flowchart
