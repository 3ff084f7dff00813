import Flowchart.Proofs.Layout.Connection
import Flowchart.Proofs.Layout.Round
/-! Demotions. Rounds take links away one at a time, each while it lies on a cycle of the links that
are left, until the last round settles. So a connection off every cycle stays forward, and nothing
but the marks of the demoted connections changes. -/
namespace Flowchart.Layout
open Relation (ReflTransGen TransGen)

section Run
variable {n : Nat}

/-- A run of rounds from the links `ls` to the links that are left. Each demoted link lies on a
cycle when it goes. -/
inductive Demotes : List (Link n) → List Nat → List (Link n) → Prop
  | done (ls : List (Link n)) : Demotes ls [] ls
  | demote {ls left : List (Link n)} {demoted : List Nat} {l : Link n} : l ∈ ls → Returns ls l →
      Demotes (withoutEdge l.edge ls) demoted left → Demotes ls (l.edge :: demoted) left

/-- The rounds end, and the last one settles on the links that are left. -/
theorem resolve_ends (ls : List (Link n)) :
    ∃ levels demoted left, resolve n ls = .ok (levels, demoted) ∧ Demotes ls demoted left ∧
      Settled left levels := by
  induction long : ls.length using Nat.strong_induction_on generalizing ls with
  | _ count ih =>
      rcases settle_ends (Attained.zero ls) with ⟨after, settled, rest⟩ | ⟨l, member, found, back⟩
      · refine ⟨after, [], ls, ?_, .done ls, rest⟩
        rw [resolve, settled]
      · have shorter : (withoutEdge l.edge ls).length < count := long ▸ length_withoutEdge_lt member
        obtain ⟨levels, demoted, left, resolved, run, rest⟩ := ih _ shorter _ rfl
        refine ⟨levels, l.edge :: demoted, left, ?_, .demote member back run, rest⟩
        rw [resolve, found]
        simp only [resolved]

theorem filter_cons_contains (edge : Nat) (demoted : List Nat) (ls : List (Link n)) :
    (ls.filter fun l => !(edge :: demoted).contains l.edge) =
      (withoutEdge edge ls).filter fun l => !demoted.contains l.edge := by
  rw [withoutEdge, List.filter_filter]
  refine List.filter_congr ?_
  intro l _
  rw [List.contains_cons, Bool.not_or, Bool.and_comm]
  rfl

theorem Demotes.left_eq {ls left : List (Link n)} {demoted : List Nat}
    (run : Demotes ls demoted left) : left = ls.filter fun l => !demoted.contains l.edge := by
  induction run with
  | done ls => simp
  | demote _ _ _ ih => rw [ih, filter_cons_contains]

theorem Demotes.returns_at {ls left : List (Link n)} {before after : List Nat} {edge : Nat}
    (run : Demotes ls (before ++ edge :: after) left) :
    ∃ l ∈ ls.filter (fun l => !before.contains l.edge),
      l.edge = edge ∧ Returns (ls.filter fun l => !before.contains l.edge) l := by
  induction before generalizing ls with
  | nil =>
      cases run with
      | demote member back _ =>
          have all : (ls.filter fun l => !([] : List Nat).contains l.edge) = ls := by simp
          exact ⟨_, all.symm ▸ member, rfl, all.symm ▸ back⟩
  | cons first before ih =>
      cases run with
      | demote _ _ later =>
          obtain ⟨l, member, same, back⟩ := ih later
          rw [filter_cons_contains]
          exact ⟨l, member, same, back⟩

theorem Demotes.nodup {ls left : List (Link n)} {demoted : List Nat}
    (run : Demotes ls demoted left) : demoted.Nodup := by
  induction run with
  | done ls => exact List.nodup_nil
  | @demote ls left demoted l _ _ run ih =>
      refine List.nodup_cons.mpr ⟨?_, ih⟩
      intro again
      obtain ⟨before, after, split⟩ := List.append_of_mem again
      obtain ⟨m, member, same, _⟩ := (split ▸ run).returns_at
      have inside := (List.mem_filter.mp (List.mem_of_mem_filter member)).2
      simp [same] at inside

end Run

theorem tableSize_of_nodup {ids : List Nat} (distinct : ids.Nodup) :
    tableSize ids = ids.length := by
  have same : ids.eraseDups = ids := by
    induction ids with
    | nil => rfl
    | cons id ids ih =>
        obtain ⟨fresh, rest⟩ := List.nodup_cons.mp distinct
        have kept : ids.filter (fun other => !other == id) = ids := by
          refine List.filter_eq_self.mpr ?_
          intro other member
          have different : other ≠ id := fun equal => fresh (equal ▸ member)
          simpa using different
        rw [List.eraseDups_cons, kept, ih rest]
  rw [tableSize, same]

/-- The levels of distinct blocks exist, and a run of demotions leads to them. -/
theorem levelsOf_ends {ids : List Nat} (distinct : ids.Nodup) (edges : List Edge) :
    ∃ (values : Vector Nat ids.length) (demoted : List Nat) (left : List (Link ids.length)),
      levelsOf ids edges = .ok ⟨ids.zip values.toList, demoted⟩ ∧
      Demotes (links ids edges) demoted left ∧ Settled left values := by
  obtain ⟨values, demoted, left, resolved, run, settled⟩ := resolve_ends (links ids edges)
  refine ⟨values, demoted, left, ?_, run, settled⟩
  rw [levelsOf, tableSize_of_nodup distinct, resolved]

/-- The connection is forward between two blocks, and forward connections lead from its target back
to its source. -/
structure OnCycle (ids : List Nat) (edges : List Edge) (e : Edge) : Prop where
  forward : e.back = false
  source_mem : e.source ∈ ids
  target_mem : e.target ∈ ids
  returns : ReflTransGen (Forward ids edges) e.target e.source

theorem OnCycle.not_acyclic {ids : List Nat} {edges : List Edge} {e : Edge}
    (cycle : OnCycle ids edges e) (member : e ∈ edges) : ¬ Acyclic (Forward ids edges) := by
  intro acyclic
  have step : Forward ids edges e.source e.target :=
    ⟨e, member, cycle.forward, rfl, rfl, cycle.source_mem, cycle.target_mem⟩
  exact acyclic e.source (TransGen.head' step cycle.returns)

theorem onCycle_of_returns {ids : List Nat} {edges : List Edge} {l : Link ids.length}
    (member : l ∈ links ids edges) (back : Returns (links ids edges) l) :
    ∃ e, edges[l.edge]? = some e ∧ OnCycle ids edges e := by
  obtain ⟨e, present, forward, source, target⟩ := mem_links.mp member
  have from_target := reach_of_steps back
  rw [getElem_of_place? source, getElem_of_place? target] at from_target
  refine ⟨e, present, forward, ?_, ?_, from_target⟩
  · exact getElem_of_place? source ▸ List.getElem_mem _
  · exact getElem_of_place? target ▸ List.getElem_mem _

/-- What demotions do to the connections. The ones in `before` are marked when the one at `i` is
demoted, and `levels.mark` marks all of them. -/
structure SoundDemotion (ids : List Nat) (edges : List Edge) (levels : Levels) : Prop where
  on_cycle : ∀ before i after, levels.demoted = before ++ i :: after →
    ∃ e, edges[i]? = some e ∧ (Levels.mark { demoted := before } edges)[i]? = some e ∧
      OnCycle ids (Levels.mark { demoted := before } edges) e
  nodup : levels.demoted.Nodup
  mem_iff : ∀ i, i ∈ levels.demoted ↔
    ∃ e f : Edge, edges[i]? = some e ∧ (levels.mark edges)[i]? = some f ∧ e.back ≠ f.back
  raised : ∀ (i : Nat) (e f : Edge), edges[i]? = some e → (levels.mark edges)[i]? = some f →
    e.back ≠ f.back → e.back = false ∧ f.back = true
  ends : (levels.mark edges).map (fun e => (e.source, e.target, e.label)) =
    edges.map fun e => (e.source, e.target, e.label)
  off_cycle : ∀ (i : Nat) (e : Edge), edges[i]? = some e → ¬ OnCycle ids edges e →
    (levels.mark edges)[i]? = some e
  of_acyclic : Acyclic (Forward ids edges) → levels.mark edges = edges ∧ levels.demoted = []

namespace Levels

theorem ends_mark (levels : Levels) (edges : List Edge) :
    (levels.mark edges).map (fun e => (e.source, e.target, e.label)) =
      edges.map fun e => (e.source, e.target, e.label) := by
  refine List.ext_getElem? ?_
  intro i
  rw [List.getElem?_map, getElem?_mark, Option.map_map, List.getElem?_map]
  congr 1
  funext e
  by_cases demoted : i ∈ levels.demoted <;> simp [demoted]

theorem mark_nil (edges : List Edge) (entries : List (Nat × Nat)) :
    (Levels.mk entries []).mark edges = edges := by
  refine List.ext_getElem? ?_
  intro i
  simp [getElem?_mark]

theorem mem_demoted_of_ne {levels : Levels} {edges : List Edge} {i : Nat} {e f : Edge}
    (present : edges[i]? = some e) (marked : (levels.mark edges)[i]? = some f)
    (changed : e.back ≠ f.back) : i ∈ levels.demoted ∧ f.back = true := by
  rw [getElem?_mark, present, Option.map_some, Option.some.injEq] at marked
  by_cases demoted : i ∈ levels.demoted
  · rw [if_pos demoted] at marked
    exact ⟨demoted, marked ▸ rfl⟩
  · rw [if_neg demoted] at marked
    exact absurd (congrArg Edge.back marked) changed

end Levels

section Sound
variable {ids : List Nat} {edges : List Edge} {demoted : List Nat} {left : List (Link ids.length)}

theorem Demotes.onCycle_at {before after : List Nat} {i : Nat}
    (run : Demotes (links ids edges) (before ++ i :: after) left) :
    ∃ e, edges[i]? = some e ∧ (Levels.mark { demoted := before } edges)[i]? = some e ∧
      OnCycle ids (Levels.mark { demoted := before } edges) e := by
  obtain ⟨l, member, same, back⟩ := run.returns_at
  have marked := Levels.links_mark { demoted := before } ids edges
  obtain ⟨e, present, cycle⟩ := onCycle_of_returns (marked.symm ▸ member) (marked.symm ▸ back)
  have outside : l.edge ∉ before := by simpa using (List.mem_filter.mp member).2
  have unmarked : edges[l.edge]? = some e := by
    simpa [Levels.getElem?_mark, outside] using present
  exact ⟨e, same ▸ unmarked, same ▸ present, cycle⟩

theorem Demotes.onCycle {i : Nat} (run : Demotes (links ids edges) demoted left)
    (member : i ∈ demoted) : ∃ e, edges[i]? = some e ∧ OnCycle ids edges e := by
  obtain ⟨before, after, split⟩ := List.append_of_mem member
  obtain ⟨l, inside, same, back⟩ := (split ▸ run).returns_at
  have original := onCycle_of_returns (List.mem_of_mem_filter inside)
    (back.mono (List.filter_subset_self _))
  exact same ▸ original

theorem Demotes.eq_nil (run : Demotes (links ids edges) demoted left)
    (acyclic : Acyclic (Forward ids edges)) : demoted = [] := by
  refine List.eq_nil_iff_forall_not_mem.mpr ?_
  intro i member
  obtain ⟨e, present, cycle⟩ := run.onCycle member
  exact cycle.not_acyclic (List.mem_of_getElem? present) acyclic

end Sound

/-- Demotions break cycles and touch nothing else. -/
theorem levelsOf_soundDemotion {ids : List Nat} (distinct : ids.Nodup) (edges : List Edge) :
    ∃ levels, levelsOf ids edges = .ok levels ∧ SoundDemotion ids edges levels := by
  obtain ⟨values, demoted, left, found, run, -⟩ := levelsOf_ends distinct edges
  refine ⟨_, found, ?_⟩
  constructor
  case on_cycle =>
    intro before i after split
    change demoted = before ++ i :: after at split
    subst split
    exact run.onCycle_at
  case nodup => exact run.nodup
  case mem_iff =>
    intro i
    constructor
    · intro member
      obtain ⟨e, present, cycle⟩ := run.onCycle member
      refine ⟨e, { e with back := true }, present, ?_, by simp [cycle.forward]⟩
      simp [Levels.getElem?_mark, present, member]
    · rintro ⟨e, f, present, marked, changed⟩
      exact (Levels.mem_demoted_of_ne present marked changed).1
  case raised =>
    intro i e f present marked changed
    have back := (Levels.mem_demoted_of_ne present marked changed).2
    exact ⟨by simpa [back] using changed, back⟩
  case ends => exact Levels.ends_mark _ edges
  case off_cycle =>
    intro i e present off
    have outside : i ∉ demoted := by
      intro member
      obtain ⟨f, same, cycle⟩ := run.onCycle member
      exact off (Option.some.inj (present.symm.trans same) ▸ cycle)
    simp [Levels.getElem?_mark, present, outside]
  case of_acyclic =>
    intro acyclic
    have none : demoted = [] := by
      refine List.eq_nil_iff_forall_not_mem.mpr ?_
      intro i member
      obtain ⟨e, present, cycle⟩ := run.onCycle member
      exact cycle.not_acyclic (List.mem_of_getElem? present) acyclic
    subst none
    exact ⟨Levels.mark_nil edges _, rfl⟩

/-- A connection that leaves a cycle of two blocks. -/
theorem levelsOf_soundDemotion_two_cycle :
    [0, 1, 2].Nodup ∧ ∃ levels, levelsOf [0, 1, 2]
      [⟨0, 1, none, false⟩, ⟨1, 0, none, false⟩, ⟨1, 2, none, false⟩] = .ok levels ∧
      SoundDemotion [0, 1, 2]
        [⟨0, 1, none, false⟩, ⟨1, 0, none, false⟩, ⟨1, 2, none, false⟩] levels :=
  ⟨by decide, levelsOf_soundDemotion (by decide) _⟩

end Flowchart.Layout
