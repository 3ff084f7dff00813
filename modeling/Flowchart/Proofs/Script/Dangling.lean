import Flowchart.Proofs.Script.Appending
/-! Groups behind a reference that names no block. The reference is reported, and the group is
connected to the block that was named last in its place. -/
namespace Flowchart.Script
open Flowchart.Text

/-- The walk over the structure of a source comes to these lines in this state, outside of all
groups. -/
inductive Meets (source : String) : Walk → List Line → Prop
  | start : Meets source {} (phases (lines source.toList)).2
  | step {w : Walk} {l : Line} {ls : List Line} (here : Meets source w (l :: ls)) :
      Meets source (w.step (parse source).blocks l ls).1 (w.step (parse source).blocks l ls).2

theorem Meets.run_edges {source : String} {w : Walk} {ls : List Line} (here : Meets source w ls) :
    (w.run (parse source).blocks ls).edges = (parse source).edges := by
  induction here with
  | start => rfl
  | step here ih => rwa [Walk.run] at ih

/-- Connections that are there already are not made again. -/
theorem foldl_insertEdge_eq_self_iff {edges made : List Edge} :
    made.foldl insertEdge edges = edges ↔ ∀ e ∈ made, edges.any e.sameConnection = true := by
  induction made generalizing edges with
  | nil => simp
  | cons e made ih =>
      rw [List.foldl_cons, List.forall_mem_cons, insertEdge]
      cases known : edges.any e.sameConnection with
      | true => simpa using ih
      | false =>
          have longer : edges.length < (made.foldl insertEdge (edges ++ [e])).length := by
            have kept := (prefix_foldl_insertEdge (edges ++ [e]) made).length_le
            rw [List.length_append, List.length_singleton] at kept
            exact kept
          simp only [Bool.false_eq_true, if_false, false_and, iff_false]
          exact fun same => absurd (congrArg List.length same) longer.ne'

namespace Meets
variable {source : String} {w : Walk} {l : Line} {ls : List Line} {reference : List Char}
  {arrow : Arrow}

/-- A group whose reference names no block leaves the walk where it stands. It makes no connection
exactly when no block has been named before, or when that block has all the connections of the
group already. -/
theorem dangling (here : Meets source w (l :: ls))
    (merge : statement (parse source).blocks l.text = .merge reference arrow)
    (unknown : (parse source).blocks.resolve? reference = none) :
    let after := (w.step (parse source).blocks l ls).1
    after.previous = w.previous ∧ after.pending = w.pending ∧ w.edges <+: after.edges ∧
      after.edges <+: (parse source).edges ∧
      (after.edges = w.edges ↔ ∀ anchor ∈ w.previous,
        ∀ e ∈ bodyMade (parse source).blocks anchor arrow none (groupBody ls).1,
          w.edges.any e.sameConnection = true) := by
  intro after
  have effect := Walk.step_eq (parse source).blocks w l ls
  simp only [merge, Statement.next, Statement.made, unknown] at effect
  have later : after.edges <+: (parse source).edges := by
    rw [← here.step.run_edges]
    exact Walk.edges_run _ _ _
  have stays : after.cursor = _ := congrArg Walk.cursor effect
  have made : after.edges = _ := congrArg Walk.edges effect
  refine ⟨congrArg Cursor.previous stays, congrArg Cursor.pending stays, Walk.edges_step _ w l ls,
    later, ?_⟩
  rw [made, Walk.extend, foldl_insertEdge_eq_self_iff]
  cases previous : w.previous with
  | none => simp [Walk.cursor, previous, groupMade]
  | some anchor => simp [Walk.cursor, previous, groupMade]

/-- The block before the reference has the connection of the group already. -/
theorem dangling_repeated :
    let source := "ts()\nte()\n...\nts()\nma*x*>[\nte()\n]\np[Nope] ma*x*>[\nte()\n]"
    let blocks := (parse source).blocks
    let w : Walk := { previous := some 0, edges := [⟨0, 1, some "x", false⟩] }
    let l : Line := ⟨"p[Nope] ma*x*>[".toList, 34⟩
    let ls : List Line := [⟨"te()".toList, 50⟩, ⟨"]".toList, 55⟩]
    Meets source w (l :: ls) ∧
      statement blocks l.text = .merge "p[Nope]".toList ⟨some "x", .forward⟩ ∧
      blocks.resolve? "p[Nope]".toList = none ∧ (w.step blocks l ls).1.edges = w.edges := by
  intro source blocks w l ls
  have here : Meets source w (l :: ls) := by
    let group : List Line :=
      ⟨"ma*x*>[".toList, 19⟩ :: ⟨"te()".toList, 27⟩ :: ⟨"]".toList, 32⟩ :: l :: ls
    have structural : (phases (lines source.toList)).2 = ⟨"ts()".toList, 14⟩ :: group := by
      decide +kernel
    have first : Meets source {} (⟨"ts()".toList, 14⟩ :: group) := structural ▸ Meets.start
    have visited : Walk.step blocks {} ⟨"ts()".toList, 14⟩ group =
        ({ previous := some 0 }, group) := by decide +kernel
    have second : Meets source { previous := some 0 } group := by
      have next := first.step
      rwa [visited] at next
    have connected : Walk.step blocks { previous := some 0 } ⟨"ma*x*>[".toList, 19⟩
        (⟨"te()".toList, 27⟩ :: ⟨"]".toList, 32⟩ :: l :: ls) = (w, l :: ls) := by decide +kernel
    have next := second.step
    rwa [connected] at next
  have merge : statement blocks l.text = .merge "p[Nope]".toList ⟨some "x", .forward⟩ := by
    decide +kernel
  have unknown : blocks.resolve? "p[Nope]".toList = none := by decide +kernel
  obtain ⟨-, -, -, -, known⟩ := here.dangling merge unknown
  exact ⟨here, merge, unknown, known.mpr (by decide +kernel)⟩

/-- A group behind an undeclared reference is connected to the block before it. -/
theorem dangling_connects :
    let source := "ts()\nte()\n...\nts()\np[Nope]ma>[\nte()\n]"
    let blocks := (parse source).blocks
    let w : Walk := { previous := some 0 }
    let l : Line := ⟨"p[Nope]ma>[".toList, 19⟩
    let ls : List Line := [⟨"te()".toList, 31⟩, ⟨"]".toList, 36⟩]
    Meets source w (l :: ls) ∧
      statement blocks l.text = .merge "p[Nope]".toList ⟨none, .forward⟩ ∧
      blocks.resolve? "p[Nope]".toList = none ∧ w.edges = [] ∧
      (w.step blocks l ls).1.edges = [⟨0, 1, none, false⟩] ∧
      (parse source).edges = [⟨0, 1, none, false⟩] := by
  intro source blocks w l ls
  have here : Meets source w (l :: ls) := by
    have structural : (phases (lines source.toList)).2 = ⟨"ts()".toList, 14⟩ :: l :: ls := by
      decide +kernel
    have first : Meets source {} (⟨"ts()".toList, 14⟩ :: l :: ls) := structural ▸ Meets.start
    have visited : Walk.step blocks {} ⟨"ts()".toList, 14⟩ (l :: ls) = (w, l :: ls) := by
      decide +kernel
    have next := first.step
    rwa [visited] at next
  exact ⟨here, by decide +kernel, by decide +kernel, rfl, by decide +kernel, by decide +kernel⟩

end Meets

end Flowchart.Script
