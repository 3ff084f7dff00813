import Flowchart.Proofs.Fan
import Mathlib.Data.Finset.Sort
import Mathlib.Logic.Function.Basic
/-! The offsets of a fan as one table. An entry has two halves and starts with two zeros. A pass over
the groups of connections that leave a block writes the first half, then a pass over those that enter
one writes the second. The table holds what the two lists of a fan do, in whatever order a pass takes
the blocks. -/
namespace Flowchart.Fan

section
variable {α : Type}

/-- The blocks with connections at a side, each once. -/
structure Homes (d : Diagram α) (side : Side) (ids : List Nat) : Prop where
  distinct : ids.Nodup
  mem : ∀ id, id ∈ ids ↔ id ∈ (present d).map fun p => side.near p.2

/-- A sorted map takes its blocks from the lowest number up. -/
theorem homes_ascending (d : Diagram α) (side : Side) :
    Homes d side (((present d).map fun p => side.near p.2).toFinset.sort (· ≤ ·)) where
  distinct := Finset.sort_nodup _ _
  mem _ := (Finset.mem_sort _).trans List.mem_toFinset

theorem nodup_present (d : Diagram α) : ((present d).map (·.1)).Nodup :=
  List.pairwise_map.mpr ((pairwise_present d).imp Nat.ne_of_lt)

end

variable {α : Type} [Scalar α] {d : Diagram α} {spread : α} {side : Side}

/-- Offsets of the connections at a side of a block. -/
def offsetsAt (d : Diagram α) (spread : α) (side : Side) (id : Nat) : List (Nat × α) :=
  groupOffsets spread (fun other => ((d.lastCenter? other).map (·.x)).getD 0) side
    ((present d).filter fun p => side.near p.2 == id)

/-- The offsets of a connection at its source and at its target. -/
abbrev Entries (α : Type) := Nat → Option (α × α)

def Side.put (offset : α) (entry : α × α) : Side → α × α
  | .source => (offset, entry.2)
  | .target => (entry.1, offset)

def Entries.write (side : Side) (entries : Entries α) (p : Nat × α) : Entries α :=
  Function.update entries p.1 (some (side.put p.2 ((entries p.1).getD (0, 0))))

/-- Writes one half for each connection in the groups of the given blocks, group by group. -/
def Entries.pass (d : Diagram α) (spread : α) (side : Side) (ids : List Nat)
    (entries : Entries α) : Entries α :=
  ids.foldl (fun entries id => (offsetsAt d spread side id).foldl (write side) entries) entries

/-- A group gives each of its connections one offset. -/
theorem nodup_groupOffsets {center : Nat → α} {group : List (Nat × Edge)}
    (distinct : (group.map (·.1)).Nodup) :
    ((groupOffsets spread center side group).map (·.1)).Nodup := by
  unfold groupOffsets
  split
  · have perm : (arranged center side group).Perm group := List.mergeSort_perm _ _
    have paired : ((arranged center side group).map (·.1)).length ≤
        (steps spread group.length).length := by
      rw [List.length_map, perm.length_eq, steps, List.length_map, List.length_range]
    rw [List.map_fst_zip paired]
    exact (perm.map _).nodup_iff.mpr distinct
  · exact List.nodup_nil

theorem near_of_mem_offsetsAt {id i : Nat} (member : i ∈ (offsetsAt d spread side id).map (·.1)) :
    ∃ e, d.edges[i]? = some e ∧ side.near e = id := by
  obtain ⟨⟨i, offset⟩, written, rfl⟩ := List.mem_map.mp member
  obtain ⟨⟨j, e⟩, grouped, rfl⟩ := List.mem_map.mp (mem_groupOffsets written).1
  obtain ⟨inside, near⟩ := List.mem_filter.mp grouped
  exact ⟨e, mem_present inside, beq_iff_eq.mp near⟩

/-- No connection is in the groups of two blocks. -/
theorem nodup_offsets {ids : List Nat} (distinct : ids.Nodup) :
    ((ids.flatMap (offsetsAt d spread side)).map (·.1)).Nodup := by
  rw [List.map_flatMap, List.nodup_flatMap]
  constructor
  · intro id _
    exact nodup_groupOffsets ((nodup_present d).sublist (List.filter_sublist.map _))
  · refine distinct.imp ?_
    intro id other different i first second
    obtain ⟨e, present, rfl⟩ := near_of_mem_offsetsAt first
    obtain ⟨f, again, rfl⟩ := near_of_mem_offsetsAt second
    exact different (Option.some.inj (present.symm.trans again) ▸ rfl)

/-- Writing a list of offsets changes the entries that the list has, each once. -/
theorem foldl_write {pairs : List (Nat × α)} (distinct : (pairs.map (·.1)).Nodup)
    (entries : Entries α) (i : Nat) :
    pairs.foldl (Entries.write side) entries i =
      ((pairs.lookup i).map fun offset => side.put offset ((entries i).getD (0, 0))).or
        (entries i) := by
  induction pairs generalizing entries with
  | nil => rfl
  | cons p pairs ih =>
    obtain ⟨j, offset⟩ := p
    obtain ⟨fresh, others⟩ := List.nodup_cons.mp distinct
    rw [List.foldl_cons, ih others]
    by_cases own : i = j
    · subst own
      have absent : pairs.lookup i = none := by
        refine List.lookup_eq_none_iff.mpr ?_
        intro q member
        exact bne_iff_ne.mpr fun same => fresh (List.mem_map.mpr ⟨q, member, same.symm⟩)
      simp [absent, Entries.write]
    · simp [List.lookup_cons, beq_false_of_ne own, own, Entries.write]

/-- A connection has its offset from the group of its block, wherever that stands. -/
theorem lookup_offsets {ids : List Nat} (homes : Homes d side ids) (i : Nat) :
    (ids.flatMap (offsetsAt d spread side)).lookup i = (sideOffsets d spread side).lookup i := by
  let home := (d.edges[i]?.map side.near).getD 0
  have elsewhere : ∀ id, id ≠ home → (offsetsAt d spread side id).lookup i = none := by
    intro id away
    refine List.lookup_eq_none_iff.mpr ?_
    intro p member
    refine bne_iff_ne.mpr ?_
    rintro rfl
    obtain ⟨e, present, near⟩ := near_of_mem_offsetsAt (List.mem_map_of_mem member)
    exact away (by simp [home, present, near])
  have same : home ∈ ids ↔ home ∈ ((present d).map fun p => side.near p.2).eraseDups :=
    (homes.mem home).trans List.mem_eraseDups.symm
  calc
    _ = if home ∈ ids then (offsetsAt d spread side home).lookup i else none :=
        lookup_flatMap fun id _ => elsewhere id
    _ = if home ∈ ((present d).map fun p => side.near p.2).eraseDups then
          (offsetsAt d spread side home).lookup i else none := if_congr same rfl rfl
    _ = _ := (lookup_flatMap fun id _ => elsewhere id).symm

theorem pass_eq {ids : List Nat} (homes : Homes d side ids) (entries : Entries α) (i : Nat) :
    entries.pass d spread side ids i =
      (((sideOffsets d spread side).lookup i).map fun offset =>
        side.put offset ((entries i).getD (0, 0))).or (entries i) := by
  rw [Entries.pass, ← List.foldl_flatMap, foldl_write (nodup_offsets homes.distinct),
    lookup_offsets homes]

/-- After both passes a connection has an entry if a group mentions it, with the offsets of the
fan. -/
theorem passes_eq {outgoing incoming : List Nat} (leave : Homes d .source outgoing)
    (enter : Homes d .target incoming) (spread : α) (i : Nat) :
    let fan := ofDiagram d spread
    let empty : Entries α := fun _ => none
    (empty.pass d spread .source outgoing).pass d spread .target incoming i =
      if fan.mentions i then some (fan.sourceOffset i, fan.targetOffset i) else none := by
  intro fan empty
  rw [pass_eq enter, pass_eq leave]
  simp only [fan, empty, mentions, sourceOffset, targetOffset, ofDiagram]
  cases (sideOffsets d spread .source).lookup i <;>
    cases (sideOffsets d spread .target).lookup i <;> rfl

end Flowchart.Fan
