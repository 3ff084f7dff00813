import Flowchart.Proofs.Editor.Atomicity
import Flowchart.Proofs.Editor.Document
/-! Arranging blocks that have been arranged already. Where they stood does not matter, the second
time moves nothing, and an editor that finds everything in its place has nothing to tell and nothing
to undo. -/
namespace Flowchart

namespace Layout

variable {α : Type} [Scalar α] {config : Config α}

/-- Of the blocks their numbers and sizes count, not where they stand. -/
theorem arrange_congr {d e : Diagram α} (nodes : e.nodes.map unplaced = d.nodes.map unplaced)
    (edges : e.edges = d.edges) : arrange config e = arrange config d := by
  have ids : e.nodes.map (·.id) = d.nodes.map (·.id) := by
    have same := congrArg (List.map (·.id)) nodes
    rwa [List.map_map, List.map_map] at same
  have placed (levels : Levels) (marked : List Edge) :
      place config levels marked e.nodes = place config levels marked d.nodes := by
    rw [← place_unplaced, nodes, place_unplaced]
  obtain ⟨ns, marks⟩ := d
  obtain ⟨moved, same⟩ := e
  subst edges
  cases ns with
  | nil =>
      obtain rfl : moved = [] := List.map_eq_nil_iff.mp nodes
      rfl
  | cons n ns =>
      have some : moved.isEmpty = false := by
        rw [← List.isEmpty_map, nodes]
        rfl
      rw [arrange, arrange, some, ids]
      simp only [placed]
      rfl

end Layout

section Numeric

theorem Box.numeric_of_beq_self {b : Box Float} (same : (b == b) = true) : b.Numeric := by
  obtain ⟨⟨x, y⟩, width, height⟩ := Box.sides_of_beq same
  exact ⟨beq_self_iff_number.mp x, beq_self_iff_number.mp y, beq_self_iff_number.mp width,
    beq_self_iff_number.mp height⟩

/-- A diagram counts as equal to itself as long as its blocks have numbers for sides. -/
theorem Diagram.beq_self_iff {d : Diagram Float} : (d == d) = true ↔ d.Numeric := by
  refine ⟨fun same => ?_, Diagram.Numeric.beq_self⟩
  have alike := (Diagram.parts_of_beq same).1
  unfold Diagram.Numeric
  generalize d.nodes = nodes at alike
  induction nodes with
  | nil => exact fun n absent => absurd absent List.not_mem_nil
  | cons n nodes ih =>
      rw [List.cons_beq_cons, Bool.and_eq_true] at alike
      exact List.forall_mem_cons.mpr
        ⟨Box.numeric_of_beq_self (Node.fields_of_beq alike.1).1, ih alike.2⟩

end Numeric

namespace Editor

/-- An outcome that leaves the data and what can be undone as they are and tells of no other
data. -/
structure Unheard {β : Type} (e : Editor Float) (o : Outcome Float β) : Prop where
  data : o.editor.data = e.data
  history : o.editor.history = e.history
  untold : ∀ event ∈ o.events, event.kind ≠ .dataChanged

theorem unheard_zoomed (e : Editor Float) (view : Option (Viewport Float)) :
    Unheard e (e.zoomed view) := by
  have still := still_zoomed e view
  refine ⟨congrArg Scene.diagram still.scene, still.history, ?_⟩
  cases view with
  | none => exact fun event absent => absurd absent List.not_mem_nil
  | some viewport =>
      intro event told
      obtain rfl := List.mem_singleton.mp told
      exact nofun

/-- Blocks in their places are compared with themselves, and found the same unless a side of one is
not a number. -/
theorem autoLayout_arranged {e : Editor Float} (arranged : e.Arranged) :
    ∃ o, e.autoLayout = .ok o ∧ (Unheard e o ↔ e.data.Numeric) := by
  obtain ⟨a, found, settled⟩ := arranged
  unfold autoLayout
  split
  · next empty =>
    have none : e.data.nodes = [] := List.isEmpty_iff.mp empty
    refine ⟨_, rfl, iff_of_true ⟨rfl, rfl, fun _ absent => absurd absent List.not_mem_nil⟩ ?_⟩
    intro n member
    rw [none] at member
    exact absurd member List.not_mem_nil
  · simp only [found, settled]
    refine ⟨_, rfl, ?_⟩
    rw [← Diagram.beq_self_iff]
    split
    · next same => exact iff_of_true (unheard_zoomed _ _) same
    · next other =>
      refine iff_of_false ?_ other
      intro unheard
      exact unheard.untold _ (List.mem_append_left _ (List.mem_cons_of_mem _ (.head _))) rfl

theorem arranged_autoLayout {e : Editor Float} {o : Outcome Float Unit}
    (performed : e.autoLayout = .ok o) : o.editor.Arranged := by
  obtain ⟨a, arranged, placed⟩ := data_autoLayout performed
  have settings := (@alters_autoLayout Float _ e .autoLayout o performed).tracks.settings
  rw [Arranged, settings, placed]
  exact ⟨_, Layout.arrange_again arranged, rfl⟩

/-- Distinct blocks can be arranged. The result is the same wherever they stood, and arranging it
again gives it again, with nothing left to demote. So an editor that has loaded a script, or has
arranged its blocks, finds nothing to do when it arranges them next, exactly if all coordinates it
has computed for them are numbers. -/
theorem arrange_settles (config : Layout.Config Float) {d : Diagram Float} (distinct : d.Distinct)
    (e : Editor Float) (source : String) :
    (∃ a, Layout.arrange config d = .ok a ∧
      (∀ moved : Diagram Float, moved.nodes.map Layout.unplaced = d.nodes.map Layout.unplaced →
        moved.edges = d.edges → Layout.arrange config moved = .ok a) ∧
      Layout.arrange config a.diagram = .ok { a with levels := { a.levels with demoted := [] } }) ∧
    (∃ loaded again, e.loadSource source = .ok loaded ∧ loaded.editor.autoLayout = .ok again ∧
      (Unheard loaded.editor again ↔ loaded.editor.data.Numeric)) ∧
    (e.data.Distinct → ∃ o, e.autoLayout = .ok o) ∧
    ∀ o, e.autoLayout = .ok o → ∃ again, o.editor.autoLayout = .ok again ∧
      (Unheard o.editor again ↔ o.editor.data.Numeric) := by
  refine ⟨?_, ?_, exists_autoLayout, ?_⟩
  · obtain ⟨a, arranged, -⟩ := distinct.arrange config
    refine ⟨a, arranged, ?_, Layout.arrange_again arranged⟩
    intro moved nodes edges
    rw [Layout.arrange_congr nodes edges, arranged]
  · obtain ⟨loaded, made, fresh, -, -⟩ := loadSource_fresh e source
    obtain ⟨again, performed, unheard⟩ := autoLayout_arranged fresh.arranged
    exact ⟨loaded, again, made, performed, unheard⟩
  · intro o performed
    exact autoLayout_arranged (arranged_autoLayout performed)

/-- Two blocks in a loop, and a script with one block. -/
theorem arrange_settles_loop :
    let block : Block := ⟨.process, "step", "[step]", none⟩
    let d : Diagram Float :=
      ⟨[⟨block, 9, ⟨0, 0, 140, 60⟩, none, none⟩, ⟨block, 4, ⟨0, 0, 60, 60⟩, none, none⟩],
        [⟨9, 4, none, false⟩, ⟨4, 9, some "again", false⟩]⟩
    let moved : Diagram Float := ⟨d.nodes.map (·.moveTo 7 (-3)), d.edges⟩
    d.Distinct ∧ moved.nodes.map Layout.unplaced = d.nodes.map Layout.unplaced ∧
      (∃ a, Layout.arrange .standard d = .ok a ∧ Layout.arrange .standard moved = .ok a ∧
        Layout.arrange .standard a.diagram =
          .ok { a with levels := { a.levels with demoted := [] } }) ∧
      ∃ loaded again, (ofViewport .standard : Editor Float).loadSource "ts()" = .ok loaded ∧
        loaded.editor.autoLayout = .ok again ∧ loaded.editor.data.Numeric ∧
        Unheard loaded.editor again := by
  intro block d moved
  have distinct : (d.nodes.map (·.id)).Nodup := by decide
  have same : moved.nodes.map Layout.unplaced = d.nodes.map Layout.unplaced := rfl
  obtain ⟨⟨a, arranged, anywhere, settled⟩, ⟨loaded, again, made, performed, unheard⟩, -⟩ :=
    arrange_settles .standard distinct (ofViewport .standard) "ts()"
  obtain ⟨shown, read, numeric⟩ := @exists_of_decide _ _
    ((ofViewport .standard : Editor Float).loadSource "ts()") (fun o => o.editor.data.Numeric)
    _ (by decide +kernel)
  cases made.symm.trans read
  exact ⟨distinct, same, ⟨a, arranged, anywhere moved same rfl, settled⟩,
    loaded, again, made, performed, numeric, unheard.mpr numeric⟩

end Editor
end Flowchart
