import Flowchart.Proofs.Editor.Consistency
/-! Forward connections never close a cycle. Cycles are broken when a diagram is loaded; a change
keeps some of the forward connections and never adds one, so all data an editor keeps stay without
a cycle, and arranging them again finds no connection to demote. -/
namespace Flowchart
open Layout (Config Arrangement)

namespace Diagram

variable {α : Type}

/-- A forward connection leads from the one block to the other. -/
def Leads (d : Diagram α) (a b : Nat) : Prop :=
  ∃ e ∈ d.edges, e.back = false ∧ e.source = a ∧ e.target = b

def Acyclic (d : Diagram α) : Prop := Layout.Acyclic d.Leads

section Acyclic
variable {d after : Diagram α} {a b : Nat}

theorem acyclic_empty : ({} : Diagram α).Acyclic := by
  refine Layout.acyclic_of_lt id ?_
  rintro a b ⟨e, absent, -⟩
  exact absurd absent List.not_mem_nil

theorem Acyclic.of_leads (acyclic : d.Acyclic)
    (kept : ∀ a b, after.Leads a b → d.Leads a b) : after.Acyclic := by
  intro a cycle
  exact acyclic a (Relation.TransGen.mono kept _ _ cycle)

/-- In a sound diagram all connections take part in the levels. -/
theorem Sound.forward_iff (sound : d.Sound) :
    Layout.Forward (d.nodes.map (·.id)) d.edges a b ↔ d.Leads a b := by
  constructor
  · rintro ⟨e, member, forward, source, target, -⟩
    exact ⟨e, member, forward, source, target⟩
  · rintro ⟨e, member, forward, rfl, rfl⟩
    exact ⟨e, member, forward, rfl, rfl, sound.ends e member⟩

theorem Sound.acyclic_iff (sound : d.Sound) :
    Layout.Acyclic (Layout.Forward (d.nodes.map (·.id)) d.edges) ↔ d.Acyclic := by
  have same : Layout.Forward (d.nodes.map (·.id)) d.edges = d.Leads := by
    funext a b
    exact propext sound.forward_iff
  rw [same, Acyclic]

variable [Scalar α] {config : Config α} {arrangement : Arrangement α}

theorem leads_arrange (arranged : Layout.arrange config d = .ok arrangement)
    (leads : arrangement.diagram.Leads a b) : d.Leads a b := by
  obtain ⟨e, member, forward, source, target⟩ := leads
  rw [(Layout.arrange_moves arranged).2] at member
  obtain ⟨i, present⟩ := List.getElem?_of_mem member
  rw [Layout.Levels.getElem?_mark] at present
  obtain ⟨f, inside, marked⟩ := Option.map_eq_some_iff.mp present
  -- a connection that is not marked now was not changed
  split at marked
  · subst marked
    exact absurd forward Bool.noConfusion
  · subst marked
    exact ⟨f, List.mem_of_getElem? inside, forward, source, target⟩

theorem Sound.arrange_acyclic (sound : d.Sound)
    (arranged : Layout.arrange config d = .ok arrangement) : arrangement.diagram.Acyclic := by
  refine (sound.arrange arranged).acyclic_iff.mp ?_
  rw [Layout.arrange_ids arranged]
  exact Layout.arrange_acyclic sound.distinct arranged

theorem Sound.layout_acyclic (sound : d.Sound)
    (laid : Layout.layout config d = .ok arrangement) : arrangement.diagram.Acyclic :=
  Sound.arrange_acyclic (sound.of_ends ids_measureAll fun e member => ⟨e, member, rfl, rfl⟩) laid

/-- The same diagram with blocks at other places. -/
structure Moved (before after : Diagram α) : Prop where
  nodes : List.Forall₂ (fun m n => n = m.moveTo n.box.x n.box.y) before.nodes after.nodes
  edges : after.edges = before.edges

theorem Moved.refl (d : Diagram α) : d.Moved d :=
  ⟨Layout.forall₂_moveTo rfl, rfl⟩

/-- Where there is no cycle to break arranging only moves blocks. -/
theorem Sound.arrange_moved (sound : d.Sound) (acyclic : d.Acyclic)
    (arranged : Layout.arrange config d = .ok arrangement) : d.Moved arrangement.diagram where
  nodes := Layout.forall₂_moveTo (Layout.arrange_moves arranged).1
  edges :=
    Layout.arrange_edges_of_acyclic sound.distinct (sound.acyclic_iff.mpr acyclic) arranged

end Acyclic
end Diagram

namespace Editor

variable {α : Type}

section Edit
variable [Scalar α] {config : Config α} {operation : Operation α} {s after : Scene α} {a b : Nat}

/-- No change adds a forward connection. -/
theorem Edit.leads (edit : Edit config operation s after) (leads : after.diagram.Leads a b) :
    s.diagram.Leads a b := by
  cases edit with
  | arrange arranged => exact Diagram.leads_arrange arranged leads
  | node keeps =>
      rwa [Diagram.Leads, Scene.updateNode, Diagram.edges_updateNode] at leads
  | label asked =>
      obtain ⟨e, member, forward, source, target⟩ := leads
      obtain ⟨f, inside, sameSource, sameTarget, sameBack⟩ := Scene.mem_updateEdge member
      exact ⟨f, inside, sameBack ▸ forward, sameSource ▸ source, sameTarget ▸ target⟩
  | deleteNode deleted =>
      obtain rfl := Scene.exists_of_deleteNode? deleted
      obtain ⟨e, member, rest⟩ := leads
      exact ⟨e, List.mem_of_mem_filter member, rest⟩
  | deleteEdge deleted =>
      obtain rfl := Scene.exists_of_deleteEdge? deleted
      obtain ⟨e, member, rest⟩ := leads
      exact ⟨e, List.mem_of_mem_eraseIdx member, rest⟩

theorem Starting.acyclic {e : Editor α} (starting : Starting e) :
    e.Throughout Diagram.Acyclic := by
  cases starting with
  | new new => exact new.throughout Diagram.acyclic_empty
  | loaded distinct loaded =>
      refine throughout_load loaded ?_
      exact fun _ laid => (Scene.sound_ofDiagram distinct).layout_acyclic laid

end Edit

section AutoLayout
variable [Scalar α] {e : Editor α} {o : Outcome α Unit}

/-- A scene without blocks counts as arranged. -/
theorem data_autoLayout (performed : e.autoLayout = .ok o) :
    ∃ a, Layout.arrange e.settings.layout e.data = .ok a ∧ o.editor.data = a.diagram := by
  unfold autoLayout at performed
  split at performed
  · next empty =>
    cases performed
    exact ⟨⟨e.data, {}⟩, if_pos empty, rfl⟩
  · split at performed
    · cases performed
    · next a arranged =>
      cases performed
      refine ⟨a, arranged, ?_⟩
      have still := fun e : Editor α => congrArg Scene.diagram (still_zoomed e (e.data.bounds?.map
        e.viewport.fit)).scene
      refine (still _).trans ?_
      split <;> rfl

theorem autoLayout_moved (sound : e.data.Sound) (acyclic : e.data.Acyclic) :
    ∃ o, e.autoLayout = .ok o ∧ e.data.Moved o.editor.data := by
  obtain ⟨o, performed⟩ := exists_autoLayout sound.distinct
  refine ⟨o, performed, ?_⟩
  obtain ⟨a, arranged, placed⟩ := data_autoLayout performed
  exact placed ▸ sound.arrange_moved acyclic arranged

end AutoLayout

section Run
variable [Metric α] {permits : Editor α → Operation α → Outcome α Unit → Prop}
  {first now e : Editor α} {operation : Operation α} {o : Outcome α Unit}

theorem Step.acyclic (step : Step e operation o) (proper : operation.Proper)
    (acyclic : e.Throughout Diagram.Acyclic) : o.editor.Throughout Diagram.Acyclic := by
  refine step.throughout acyclic ?_ ?_
  · exact fun edit => acyclic.shown.of_leads fun _ _ leads => edit.leads leads
  · exact fun loads laid =>
      (Scene.sound_ofDiagram (proper.distinct loads)).layout_acyclic laid

theorem Run.acyclic (run : Run permits first now)
    (proper : ∀ e operation o, permits e operation o → operation.Proper)
    (acyclic : first.Throughout Diagram.Acyclic) : now.Throughout Diagram.Acyclic := by
  induction run with
  | start => exact acyclic
  | step _ permitted performed ih =>
      exact (step_of_perform performed).acyclic (proper _ _ _ permitted) ih

/-- Whatever is done to an editor, as long as it loads distinct blocks only, the forward connections
of the data shown and of those in the history have no cycle. Arranging can be done then, and only
moves blocks. -/
theorem run_acyclic (starting : Starting first)
    (run : Run (fun _ operation _ => operation.Proper) first now) :
    now.Throughout Diagram.Acyclic ∧
      ∃ o, now.autoLayout = .ok o ∧ now.data.Moved o.editor.data := by
  have proper : ∀ (_ : Editor α) (operation : Operation α) (_ : Outcome α Unit),
      operation.Proper → operation.Proper := fun _ _ _ proper => proper
  have consistent := run.consistent proper starting.consistent
  have acyclic := run.acyclic proper starting.acyclic
  exact ⟨acyclic, autoLayout_moved consistent.sound.shown acyclic.shown⟩

/-- A chart with a cycle of two blocks is loaded, one of its connections goes and comes back. -/
theorem run_acyclic_two_cycle :
    Starting (ofViewport .standard : Editor Float) ∧
      ∃ now, Run (fun _ operation _ => operation.Proper) (ofViewport .standard : Editor Float) now ∧
        now.Throughout Diagram.Acyclic ∧
          ∃ o, now.autoLayout = .ok o ∧ now.data.Moved o.editor.data := by
  have starting : Starting (ofViewport .standard : Editor Float) := .new (new_ofViewport _)
  obtain ⟨o, loaded, -⟩ := loadSource_fresh (ofViewport .standard : Editor Float)
    "ts()\np[\"A\"]\n...\nts()\na>\np[\"A\"]\na>\nts()"
  let deleted := (o.editor.deleteEdge 0).editor
  have run : Run (fun _ operation _ => operation.Proper) (ofViewport .standard : Editor Float)
      deleted.undo.editor := by
    refine @Run.step Float _ _ _ _ .undo deleted.undo.unit ?_ trivial rfl
    refine @Run.step Float _ _ _ _ (.deleteEdge 0) (o.editor.deleteEdge 0).unit ?_ trivial rfl
    exact run_loadSource loaded trivial
  exact ⟨starting, _, run, run_acyclic starting run⟩

end Run

end Editor
end Flowchart
