import Flowchart.Proofs.Editor.Consistency
import Mathlib.Data.List.Perm.Basic
/-! No connection twice. Scenes refuse a connection that is there already, and of all changes only a
new label can make two connections the same: it does so exactly if another connection between the
same blocks has that label. -/
namespace Flowchart
open Layout (Config Arrangement)

/-- What tells connections apart. -/
def Edge.key (e : Edge) : Nat × Nat × Option String := (e.source, e.target, e.label)

theorem nodup_set_iff {β : Type} {l : List β} {i : Nat} (nodup : l.Nodup) (inside : i < l.length)
    (b : β) : (l.set i b).Nodup ↔ ∀ j, l[j]? = some b → j = i := by
  rw [(List.set_perm_cons_eraseIdx inside b).nodup_iff, List.nodup_cons,
    List.mem_eraseIdx_iff_getElem?]
  constructor
  · rintro ⟨absent, -⟩ j found
    exact not_not.mp fun different => absent ⟨j, different, found⟩
  · intro only
    refine ⟨?_, nodup.sublist (List.eraseIdx_sublist l i)⟩
    rintro ⟨j, different, found⟩
    exact different (only j found)

namespace Diagram

variable {α : Type}

def Unique (d : Diagram α) : Prop := (d.edges.map Edge.key).Nodup

/-- No other connection between the same blocks has the label. -/
def Spares (d : Diagram α) (index : Nat) (label : Option String) : Prop :=
  ∀ e f j, d.edges[index]? = some e → d.edges[j]? = some f → f.key = (e.source, e.target, label) →
    j = index

theorem spares_iff {d : Diagram α} {index : Nat} {label : Option String} :
    d.Spares index label ↔ ∀ e, d.edges[index]? = some e →
      ∀ j, (d.edges.map Edge.key)[j]? = some (e.source, e.target, label) → j = index := by
  constructor
  · intro spares e here j there
    rw [List.getElem?_map] at there
    obtain ⟨f, present, same⟩ := Option.map_eq_some_iff.mp there
    exact spares e f j here present same
  · intro only e f j here there same
    exact only e here j (by rw [List.getElem?_map, there, Option.map_some, same])

theorem Unique.of_sublist {d after : Diagram α} (unique : d.Unique)
    (fewer : after.edges.Sublist d.edges) : after.Unique :=
  unique.sublist (fewer.map _)

variable [Scalar α] {config : Config α} {d : Diagram α} {a : Arrangement α}

theorem keys_arrange (arranged : Layout.arrange config d = .ok a) :
    a.diagram.edges.map Edge.key = d.edges.map Edge.key := by
  rw [(Layout.arrange_moves arranged).2]
  exact Layout.Levels.ends_mark a.levels d.edges

end Diagram

namespace Scene

variable {α : Type}

theorem unique_ofDiagram (d : Diagram α) : (ofDiagram d).diagram.Unique := by
  refine ofDiagram_induction List.nodup_nil ?_
  intro kept after e added unique
  obtain ⟨-, -, fresh, rfl⟩ := Diagram.exists_of_addEdge? added
  rw [Diagram.Unique, List.map_append, List.map_singleton, List.nodup_append]
  refine ⟨unique, List.nodup_singleton _, ?_⟩
  intro key member other last
  obtain ⟨f, inside, rfl⟩ := List.mem_map.mp member
  obtain rfl := List.mem_singleton.mp last
  have different := Edge.sameConnection_eq_false.mp
    (Bool.not_eq_true _ ▸ List.any_eq_false.mp fresh f inside)
  exact Ne.symm different

/-- A new label makes no two connections the same exactly if it is spared by the others. -/
theorem unique_updateEdge_iff {s : Scene α} {index : Nat} {label : Option String}
    (unique : s.diagram.Unique) :
    (s.updateEdge index fun edge => { edge with label }).diagram.Unique ↔
      s.diagram.Spares index label := by
  cases found : s.diagram.edges[index]? with
  | none =>
      have same : s.diagram.edges.modify index (fun edge => { edge with label }) =
          s.diagram.edges := List.modify_eq_self (List.getElem?_eq_none_iff.mp found)
      rw [Diagram.Unique, updateEdge, same]
      refine ⟨?_, fun _ => unique⟩
      intro _ e f j present
      cases found.symm.trans present
  | some e =>
      obtain ⟨inside, rfl⟩ := List.getElem?_eq_some_iff.mp found
      have keys : (s.diagram.edges.modify index fun edge => { edge with label }).map Edge.key =
          (s.diagram.edges.map Edge.key).set index
            (s.diagram.edges[index].source, s.diagram.edges[index].target, label) := by
        rw [List.modify_eq_set_get _ inside, List.map_set]
        rfl
      rw [Diagram.Unique, updateEdge, keys, nodup_set_iff unique (by rwa [List.length_map])]
      rw [Diagram.spares_iff, found]
      constructor
      · rintro only _ ⟨⟩
        exact only
      · exact fun only => only _ rfl

end Scene

namespace Editor

variable {α : Type}

/-- A label is given only where it is spared by the other connections. -/
def Spares (e : Editor α) : Operation α → Prop
  | .setEdgeLabel index label => e.data.Spares index (cleanLabel label)
  | _ => True

theorem data_setEdgeLabel (e : Editor α) (index : Nat) (label : Option String) :
    (e.setEdgeLabel index label).editor.data =
      (e.scene.updateEdge index fun edge => { edge with label := cleanLabel label }).diagram := by
  unfold setEdgeLabel mutate
  cases found : e.scene.edge? index with
  | none =>
      have outside := List.getElem?_eq_none_iff.mp found
      rw [Scene.updateEdge, List.modify_eq_self outside]
      simp only [found]
      rfl
  | some edge =>
      by_cases same : edge.label = cleanLabel label
      · -- the label is refused, and giving it would not change anything
        simp only [found, if_pos same]
        obtain ⟨inside, rfl⟩ := List.getElem?_eq_some_iff.mp found
        rw [Scene.updateEdge, List.modify_eq_set_get _ inside, ← same]
        exact congrArg (Diagram.mk _) (List.set_getElem_self inside).symm
      · simp only [found, if_neg same]
        rfl

section Edit
variable [Scalar α] {config : Config α} {operation : Operation α} {s after : Scene α}

theorem Edit.unique {e : Editor α} (edit : Edit config operation e.scene after)
    (spares : e.Spares operation) (unique : e.data.Unique) : after.diagram.Unique := by
  cases edit with
  | arrange arranged => exact (congrArg List.Nodup (Diagram.keys_arrange arranged)).mpr unique
  | node keeps => rwa [Diagram.Unique, Scene.updateNode, Diagram.edges_updateNode]
  | label asked =>
      subst asked
      exact (Scene.unique_updateEdge_iff unique).mpr spares
  | deleteNode deleted =>
      obtain rfl := Scene.exists_of_deleteNode? deleted
      exact unique.of_sublist List.filter_sublist
  | deleteEdge deleted =>
      obtain rfl := Scene.exists_of_deleteEdge? deleted
      exact unique.of_sublist (List.eraseIdx_sublist ..)

end Edit

section Load
variable [Scalar α]

theorem layout_unique {config : Config α} {d : Diagram α} {a : Arrangement α}
    (laid : Layout.layout config (Scene.ofDiagram d).diagram = .ok a) : a.diagram.Unique :=
  (congrArg List.Nodup (Diagram.keys_arrange laid)).mpr (Scene.unique_ofDiagram d)

theorem keys_loadSource {e : Editor α} {source : String} {o : Outcome α (List Script.Diagnostic)}
    (loaded : e.loadSource source = .ok o) :
    o.editor.data.edges.map Edge.key = (Script.parse source).edges.map Edge.key := by
  obtain ⟨a, laid, scene, -, -⟩ := exists_of_load (load_of_loadSource loaded)
  have shown : o.editor.data = a.diagram := congrArg Scene.diagram scene
  rw [(Script.diagram_wellFormed source).ofDiagram_eq] at laid
  rw [shown]
  exact Diagram.keys_arrange laid

end Load

section Run
variable [Metric α] {first now e : Editor α} {operation : Operation α} {o : Outcome α Unit}

theorem Step.unique (step : Step e operation o) (spares : e.Spares operation)
    (unique : e.Throughout Diagram.Unique) : o.editor.Throughout Diagram.Unique :=
  step.throughout unique (fun edit => edit.unique spares unique.shown) fun _ => layout_unique

theorem Run.unique (run : Run (fun e operation _ => e.Spares operation) first now)
    (unique : first.Throughout Diagram.Unique) : now.Throughout Diagram.Unique := by
  induction run with
  | start => exact unique
  | step _ permitted performed ih => exact (step_of_perform performed).unique permitted ih

/-- After a script is loaded no two connections are the same, in the data shown and in those of the
history, as long as no connection is given the label of another one between the same blocks. Giving a
label keeps this exactly if it is spared by the others. -/
theorem loadSource_unique (e : Editor α) (source : String) :
    ∃ o, e.loadSource source = .ok o ∧
      ∀ now, Run (fun e operation _ => e.Spares operation) o.editor now →
        now.Throughout Diagram.Unique ∧
          ∀ index label, (now.setEdgeLabel index label).editor.data.Unique ↔
            now.data.Spares index (cleanLabel label) := by
  obtain ⟨o, loaded, -⟩ := loadSource_fresh e source
  refine ⟨o, loaded, ?_⟩
  intro now run
  have unique := run.unique (throughout_load (load_of_loadSource loaded) fun _ => layout_unique)
  refine ⟨unique, ?_⟩
  intro index label
  rw [data_setEdgeLabel]
  exact Scene.unique_updateEdge_iff unique.shown

/-- Two connections between the same blocks. -/
def parallel : String := "ts()\nte()\n...\nts()\na*x*>\nte()\nts()\na*y*>\nte()"

theorem spares_parallel {o : Outcome Float (List Script.Diagnostic)} {label : Option String}
    (loaded : (ofViewport .standard : Editor Float).loadSource parallel = .ok o) :
    o.editor.data.Spares 1 label ↔ label ≠ some "x" := by
  have keys : (Script.parse parallel).edges.map Edge.key =
      [(0, 1, some "x"), (0, 1, some "y")] := by decide +kernel
  rw [← keys_loadSource loaded] at keys
  have second : o.editor.data.edges[1]?.map Edge.key = some (0, 1, some "y") := by
    rw [← List.getElem?_map, keys]
    rfl
  obtain ⟨e, found, same⟩ := Option.map_eq_some_iff.mp second
  obtain ⟨source, rest⟩ := Prod.mk.inj same
  rw [Diagram.spares_iff, keys, found]
  constructor
  · rintro only rfl
    have wrong := only e rfl 0
    rw [source, (Prod.mk.inj rest).1] at wrong
    exact absurd (wrong rfl) (by decide)
  · rintro other _ ⟨⟩ j there
    match j with
    | 0 => exact absurd (congrArg (·.2.2) (Option.some.inj there)).symm other
    | 1 => rfl

/-- The second of two connections is given a third label. -/
theorem loadSource_unique_parallel :
    ∃ o, (ofViewport .standard : Editor Float).loadSource parallel = .ok o ∧
      ∃ now, Run (fun e operation _ => e.Spares operation) o.editor now ∧
        now.Throughout Diagram.Unique ∧
          ∀ index label, (now.setEdgeLabel index label).editor.data.Unique ↔
            now.data.Spares index (cleanLabel label) := by
  obtain ⟨o, loaded, unique⟩ := loadSource_unique (ofViewport .standard : Editor Float) parallel
  have spares : o.editor.Spares (.setEdgeLabel 1 (some "z")) :=
    (spares_parallel loaded).mpr (by decide)
  have run : Run (fun e operation _ => e.Spares operation) o.editor
      (o.editor.setEdgeLabel 1 (some "z")).editor :=
    @Run.step Float _ _ _ _ (.setEdgeLabel 1 (some "z"))
      (o.editor.setEdgeLabel 1 (some "z")).unit .start spares rfl
  exact ⟨o, loaded, _, run, unique _ run⟩

/-- The second of two connections is given the label of the first. -/
theorem loadSource_not_unique_parallel :
    ∃ o, (ofViewport .standard : Editor Float).loadSource parallel = .ok o ∧
      ∃ now, Run (fun _ _ _ => True) o.editor now ∧ ¬ now.data.Unique := by
  obtain ⟨o, loaded, -⟩ := loadSource_fresh (ofViewport .standard : Editor Float) parallel
  have run : Run (fun _ _ _ => True) o.editor (o.editor.setEdgeLabel 1 (some "x")).editor :=
    @Run.step Float _ _ _ _ (.setEdgeLabel 1 (some "x"))
      (o.editor.setEdgeLabel 1 (some "x")).unit .start trivial rfl
  refine ⟨o, loaded, _, run, ?_⟩
  have unique : o.editor.data.Unique :=
    (throughout_load (load_of_loadSource loaded) fun _ => layout_unique).shown
  rw [data_setEdgeLabel, Scene.unique_updateEdge_iff unique]
  exact fun spares => (spares_parallel loaded).mp spares (by decide)

end Run

end Editor
end Flowchart
