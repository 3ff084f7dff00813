import Flowchart.Proofs.Fan
import Flowchart.Proofs.Route
import Mathlib.Data.List.Sort
import Mathlib.Data.Prod.Lex
/-! The order of anchors. Connections that share a side of a block are spread evenly around its
middle: forward ones before back-references, then by the blocks at their other ends from left to
right, then as they are listed. No side looks at the connections of another. -/
namespace Flowchart.Fan

section Sorting
variable {β : Type} {le : β → β → Bool} {r : β → β → Prop}

/-- A stable sort leaves entries in order that it could exchange. -/
theorem mergeSort_stable (trans : ∀ a b c, le a b = true → le b c = true → le a c = true)
    (total : ∀ a b, (le a b || le b a) = true) {xs : List β} (ordered : xs.Pairwise r) :
    (xs.mergeSort le).Pairwise fun a b => le a b = true ∧ (le b a = true → r a b) := by
  induction xs with
  | nil => simp
  | cons x xs ih =>
      obtain ⟨early, late, sorted, rest, smaller⟩ := List.mergeSort_cons trans total x xs
      have increasing := List.pairwise_mergeSort trans total (x :: xs)
      obtain ⟨first, others⟩ := List.pairwise_cons.mp ordered
      have stable := ih others
      rw [sorted, List.pairwise_append, List.pairwise_cons] at increasing
      rw [rest, List.pairwise_append] at stable
      obtain ⟨-, ⟨next, -⟩, across⟩ := increasing
      obtain ⟨stableEarly, stableLate, stableAcross⟩ := stable
      rw [sorted, List.pairwise_append, List.pairwise_cons]
      refine ⟨stableEarly, ⟨?_, stableLate⟩, ?_⟩
      · intro a member
        have inside : a ∈ xs.mergeSort le := rest ▸ List.mem_append_right _ member
        exact ⟨next a member, fun _ => first a (List.mem_mergeSort.mp inside)⟩
      · intro b member
        refine List.forall_mem_cons.mpr ⟨⟨across b member x List.mem_cons_self, ?_⟩,
          stableAcross b member⟩
        intro back
        have strict := smaller b member
        rw [back] at strict
        exact absurd strict (by decide)

end Sorting

section Keys
variable (d : Diagram Rat) (spread : Rat) (side : Side)

/-- The connections at a side of a block, with their places in the list of all. -/
def group (id : Nat) : List (Nat × Edge) := (present d).filter fun p => side.near p.2 == id

/-- The middle of a block. -/
def center (id : Nat) : Rat := ((d.lastCenter? id).map (·.x)).getD 0

/-- What connections at a side are ordered by. -/
def key (p : Nat × Edge) : Bool ×ₗ Rat ×ₗ Nat :=
  toLex (p.2.back, toLex (center d (side.far p.2), p.1))

/-- Where a connection is at a side, from the middle. -/
def offset (i : Nat) : Rat :=
  match side with
  | .source => (ofDiagram d spread).sourceOffset i
  | .target => (ofDiagram d spread).targetOffset i

/-- The connections at a side of a block in the order of their anchors. -/
def inOrder (id : Nat) : List (Nat × Edge) := arranged (center d) side (group d side id)

/-- The `i`-th of `count` anchors that are evenly spread around the middle. -/
def evenly (count i : Nat) : Rat := (i - (count - 1) / 2) * spread

variable {d spread side}

theorem before_iff {middle : Nat → Rat} {e f : Edge} : before middle side e f = true ↔
    toLex (e.back, middle (side.far e)) ≤ toLex (f.back, middle (side.far f)) := by
  cases first : e.back <;> cases second : f.back <;>
    simp [before, first, second, Prod.Lex.toLex_le_toLex, Scalar.precedes]

/-- The order that sorting uses and the places in the list make up the order of the keys. -/
theorem key_lt {p q : Nat × Edge} (first : before (center d) side p.2 q.2 = true)
    (tied : before (center d) side q.2 p.2 = true → p.1 < q.1) :
    key d side p < key d side q := by
  rw [before_iff] at first tied
  rcases first.lt_or_eq with less | same
  · rw [Prod.Lex.toLex_lt_toLex] at less
    simp only [key, Prod.Lex.toLex_lt_toLex]
    tauto
  · have listed := tied same.ge
    simp only [EmbeddingLike.apply_eq_iff_eq, Prod.mk.injEq] at same
    simp only [key, Prod.Lex.toLex_lt_toLex]
    exact .inr ⟨same.1, .inr ⟨same.2, listed⟩⟩

theorem mem_group {id i : Nat} {e : Edge} : (i, e) ∈ group d side id ↔ d.edges[i]? = some e ∧
    side.near e = id ∧ (∃ m ∈ d.nodes, m.id = e.source) ∧ ∃ n ∈ d.nodes, n.id = e.target := by
  have placed : (i, e) ∈ d.edges.zipIdx.map (fun p => (p.2, p.1)) ↔ d.edges[i]? = some e := by
    simp [List.mem_zipIdx_iff_getElem?]
  have known (id : Nat) : (d.node? id).isSome = true ↔ ∃ n ∈ d.nodes, n.id = id := by
    simp [Diagram.node?]
  simp only [group, present, List.mem_filter, placed, Bool.and_eq_true, known, beq_iff_eq]
  tauto

theorem pairwise_group (id : Nat) : (group d side id).Pairwise fun p q => p.1 < q.1 :=
  (pairwise_present d).filter _

theorem center_of_mem (distinct : (d.nodes.map (·.id)).Nodup) {n : Node Rat}
    (member : n ∈ d.nodes) : center d n.id = n.center.x := by
  rw [center, Diagram.lastCenter?, reverse_find?_of_nodup_map (·.id) distinct member]
  rfl

theorem pairwise_inOrder (id : Nat) :
    (inOrder d side id).Pairwise fun p q => key d side p < key d side q := by
  refine (mergeSort_stable ?_ ?_ (pairwise_group id)).imp fun both => key_lt both.1 both.2
  · intro p q r first second
    rw [before_iff] at first second ⊢
    exact first.trans second
  · intro p q
    rw [Bool.or_eq_true, before_iff, before_iff]
    exact le_total _ _

theorem perm_inOrder (id : Nat) : (inOrder d side id).Perm (group d side id) :=
  List.mergeSort_perm _ _

theorem mem_inOrder {id : Nat} {p : Nat × Edge} : p ∈ inOrder d side id ↔ p ∈ group d side id :=
  (perm_inOrder id).mem_iff

end Keys

section Offsets
variable {d : Diagram Rat} {spread : Rat} {side : Side} {id : Nat}

theorem steps_eq (spread : Rat) (count : Nat) :
    steps spread count = (List.range count).map (evenly spread count) := by
  refine List.map_congr_left ?_
  intro i inside
  have counted : ((count - 1 : Nat) : Rat) = count - 1 :=
    Nat.cast_pred (Nat.zero_lt_of_lt (List.mem_range.mp inside))
  change -((count - 1 : Nat) * spread) / 2 + i * spread = (i - (count - 1) / 2) * spread
  rw [counted]
  ring

/-- A connection alone is where one step would put it. -/
theorem lookup_groupOffsets (middle : Nat → Rat) (group : List (Nat × Edge)) (i : Nat) :
    ((groupOffsets spread middle side group).lookup i).getD 0 = ((((arranged middle side group).map
      (·.1)).zip (steps spread group.length)).lookup i).getD 0 := by
  match group with
  | [] => simp [groupOffsets, arranged]
  | [p] =>
      have alone : steps spread 1 = [0] := by simp [steps_eq, evenly]
      simp only [groupOffsets, arranged, List.mergeSort_singleton, List.length_singleton, alone]
      cases same : i == p.1 <;> simp [List.lookup_cons, same]
  | p :: q :: rest => rw [groupOffsets, if_pos (by simp)]

/-- Other blocks do not count. -/
theorem offset_eq {p : Nat × Edge} (member : p ∈ group d side id) : offset d spread side p.1 =
    ((groupOffsets spread (center d) side (group d side id)).lookup p.1).getD 0 := by
  have sides : offset d spread side p.1 =
      ((sideOffsets d spread side).lookup p.1).getD 0 := by cases side <;> rfl
  obtain ⟨inside, near⟩ := List.mem_filter.mp member
  have home : id ∈ ((present d).map fun q => side.near q.2).eraseDups :=
    List.mem_eraseDups.mpr (List.mem_map.mpr ⟨p, inside, beq_iff_eq.mp near⟩)
  have found : (sideOffsets d spread side).lookup p.1 =
      (groupOffsets spread (center d) side (group d side id)).lookup p.1 := by
    refine (lookup_flatMap ?_).trans (if_pos home)
    intro other _ different
    refine List.lookup_eq_none_iff.mpr ?_
    intro ⟨i, step⟩ listed
    obtain ⟨known, -⟩ := mem_groupOffsets listed
    obtain ⟨⟨j, f⟩, elsewhere, rfl⟩ := List.mem_map.mp known
    obtain ⟨inside', near'⟩ := List.mem_filter.mp elsewhere
    rw [beq_iff_eq] at near near'
    refine bne_iff_ne.mpr ?_
    rintro rfl
    obtain rfl := Option.some.inj ((mem_present inside).symm.trans (mem_present inside'))
    exact different (near'.symm.trans near)
  rw [sides, found]

/-- In their order the connections of a group take one step after the other. -/
theorem map_offset (id : Nat) :
    (inOrder d side id).map (fun p => offset d spread side p.1) =
      (List.range (group d side id).length).map (evenly spread (group d side id).length) := by
  have distinct : ((inOrder d side id).map (·.1)).Nodup := by
    refine ((perm_inOrder id).map _).nodup_iff.mpr ?_
    exact (List.pairwise_map.mpr (pairwise_group id)).imp Nat.ne_of_lt
  have paired : ((inOrder d side id).map (·.1)).length =
      (steps spread (group d side id).length).length := by
    rw [List.length_map, (perm_inOrder id).length_eq, steps, List.length_map, List.length_range]
  rw [← steps_eq, ← map_lookup_zip distinct paired 0, List.map_map]
  refine List.map_congr_left ?_
  intro p member
  rw [offset_eq (mem_inOrder.mp member), lookup_groupOffsets]
  rfl

theorem evenly_lt (wide : 0 < spread) {count i j : Nat} (less : i < j) :
    evenly spread count i < evenly spread count j :=
  mul_lt_mul_of_pos_right (sub_lt_sub_right (Nat.cast_lt.mpr less) _) wide

/-- Of two connections in a group, the one that comes first in the order is further left. -/
theorem offset_lt (wide : 0 < spread) {p q : Nat × Edge} (left : p ∈ group d side id)
    (right : q ∈ group d side id) (less : key d side p < key d side q) :
    offset d spread side p.1 < offset d spread side q.1 := by
  have growing : (inOrder d side id).Pairwise fun p q =>
      offset d spread side p.1 < offset d spread side q.1 := by
    rw [← List.pairwise_map (f := fun p : Nat × Edge => offset d spread side p.1), map_offset,
      List.pairwise_map]
    exact List.pairwise_lt_range.imp (evenly_lt wide)
  have different : p ≠ q := fun same => (same ▸ less).false
  rcases pairwise_or ((pairwise_inOrder id).and growing) (mem_inOrder.mpr left)
    (mem_inOrder.mpr right) different with ⟨-, further⟩ | ⟨more, -⟩
  · exact further
  · exact absurd more less.asymm

theorem offset_ne (wide : 0 < spread) {p q : Nat × Edge} (left : p ∈ group d side id)
    (right : q ∈ group d side id) (different : p.1 ≠ q.1) :
    offset d spread side p.1 ≠ offset d spread side q.1 := by
  have keys : key d side p ≠ key d side q := by
    intro same
    simp only [key, EmbeddingLike.apply_eq_iff_eq, Prod.mk.injEq] at same
    exact different same.2.2
  rcases lt_or_gt_of_ne keys with less | more
  · exact (offset_lt wide left right less).ne
  · exact (offset_lt wide right left more).ne'

/-- Groups with the same keys have the same offsets, whatever else there is in the diagrams. -/
theorem offset_congr {d' : Diagram Rat} {id' : Nat}
    (alike : ((group d' side id').map (key d' side)).Perm ((group d side id).map (key d side)))
    {p : Nat × Edge} (member : p ∈ group d side id) :
    offset d' spread side p.1 = offset d spread side p.1 := by
  have keys : (inOrder d' side id').map (key d' side) = (inOrder d side id).map (key d side) := by
    refine List.Perm.eq_of_pairwise' (r := (· < ·)) ?_ ?_ ?_
    · exact List.pairwise_map.mpr (pairwise_inOrder id')
    · exact List.pairwise_map.mpr (pairwise_inOrder id)
    · exact (((perm_inOrder id').map _).trans alike).trans ((perm_inOrder id).map _).symm
  have places : (inOrder d' side id').map (·.1) = (inOrder d side id).map (·.1) := by
    -- a key holds the place of its connection
    have place := congrArg (List.map fun k : Bool ×ₗ Rat ×ₗ Nat => (ofLex (ofLex k).2).2) keys
    rwa [List.map_map, List.map_map] at place
  have count : (group d' side id').length = (group d side id).length := by
    simpa using alike.length_eq
  have steps : ((inOrder d side id).map (·.1)).map (offset d' spread side) =
      ((inOrder d side id).map (·.1)).map (offset d spread side) := by
    rw [← places, List.map_map, places, List.map_map]
    calc
      _ = (List.range (group d' side id').length).map
          (evenly spread (group d' side id').length) := map_offset id'
      _ = (List.range (group d side id).length).map
          (evenly spread (group d side id).length) := by rw [count]
      _ = _ := (map_offset id).symm
  exact List.map_inj_left.mp steps p.1 (List.mem_map_of_mem (mem_inOrder.mpr member))

end Offsets

/-- The connections at a side of a block, with their anchors around its middle. An offset depends on
nothing but the keys of its group: at the other ends connections may be grouped in any way. -/
structure Fanned (d : Diagram Rat) (spread : Rat) (side : Side) (id : Nat) : Prop where
  members : ∀ i e, (i, e) ∈ group d side id ↔ d.edges[i]? = some e ∧ side.near e = id ∧
    (∃ m ∈ d.nodes, m.id = e.source) ∧ ∃ n ∈ d.nodes, n.id = e.target
  ordered : ∃ order : List (Nat × Edge), order.Perm (group d side id) ∧
    order.Pairwise (fun p q => key d side p < key d side q) ∧
    order.map (fun p => offset d spread side p.1) =
      (List.range (group d side id).length).map (evenly spread (group d side id).length)
  alone : ∀ p, group d side id = [p] → offset d spread side p.1 = 0
  independent : ∀ d' id', ((group d' side id').map (key d' side)).Perm
    ((group d side id).map (key d side)) → ∀ p ∈ group d side id,
      offset d' spread side p.1 = offset d spread side p.1

/-- Where a route ends at a side. -/
def anchor (side : Side) (r : Route Rat) : Point Rat :=
  match side with
  | .source => r.start
  | .target => r.finish

/-- Two routes at one side of a block. -/
structure Apart (d : Diagram Rat) (side : Side) (r q : Route Rat) (e f : Edge) : Prop where
  distinct : (anchor side r).x ≠ (anchor side q).x
  sorted : e.back = false → f.back = false → ∀ m ∈ d.nodes, ∀ n ∈ d.nodes, m.id = side.far e →
    n.id = side.far f → m.center.x < n.center.x → (anchor side r).x < (anchor side q).x

section Diagram
variable {d : Diagram Rat} {spread : Rat} {side : Side}

theorem fanned (d : Diagram Rat) (spread : Rat) (side : Side) (id : Nat) :
    Fanned d spread side id := by
  constructor
  case members => exact fun i e => mem_group
  case ordered => exact ⟨_, perm_inOrder id, pairwise_inOrder id, map_offset id⟩
  case alone =>
    intro p single
    have steps := @map_offset d spread side id
    simpa [inOrder, single, arranged, evenly] using steps
  case independent => exact fun d' id' alike p => offset_congr alike

/-- A route ends next to the middle of its block. -/
theorem anchor_eq (distinct : (d.nodes.map (·.id)).Nodup) {r : Route Rat}
    (drawn : r ∈ Route.all d spread) {e : Edge} (present : d.edges[r.edge]? = some e)
    (side : Side) : (r.edge, e) ∈ group d side (side.near e) ∧
      (anchor side r).x = center d (side.near e) + offset d spread side r.edge := by
  obtain ⟨i, f, m, n, other, source, target, leaves, enters, rfl⟩ :=
    (Route.mem_all spread distinct).mp drawn
  rw [Route.edge_between] at present ⊢
  obtain rfl := Option.some.inj (present.symm.trans other)
  refine ⟨mem_group.mpr ⟨present, rfl, ⟨m, source, leaves⟩, n, target, enters⟩, ?_⟩
  cases side with
  | source =>
      change (Route.between d spread i e m n).start.x = center d e.source + _
      rw [Route.start_between, ← leaves, center_of_mem distinct source]
      rfl
  | target =>
      change (Route.between d spread i e m n).finish.x = center d e.target + _
      rw [Route.finish_between, ← enters, center_of_mem distinct target]
      rfl

theorem apart_of_routes (distinct : (d.nodes.map (·.id)).Nodup) (wide : 0 < spread)
    {r q : Route Rat} (first : r ∈ Route.all d spread) (second : q ∈ Route.all d spread)
    {e f : Edge} (left : d.edges[r.edge]? = some e) (right : d.edges[q.edge]? = some f)
    (different : r.edge ≠ q.edge) (shared : side.near e = side.near f) :
    Apart d side r q e f := by
  obtain ⟨memberR, anchorR⟩ := anchor_eq distinct first left side
  obtain ⟨memberQ, anchorQ⟩ := anchor_eq distinct second right side
  rw [← shared] at memberQ anchorQ
  constructor
  case distinct =>
    rw [anchorR, anchorQ]
    exact fun same => offset_ne wide memberR memberQ different (add_left_cancel same)
  case sorted =>
    intro forward forward' m source n target leaves enters less
    rw [anchorR, anchorQ]
    refine add_lt_add_right (offset_lt wide memberR memberQ ?_) _
    have further : center d (side.far e) < center d (side.far f) := by
      rwa [← leaves, ← enters, center_of_mem distinct source, center_of_mem distinct target]
    simp [key, Prod.Lex.toLex_lt_toLex, forward, forward', further]

/-- Anchors are fanned out evenly and in order at each side of each block. So no two routes share an
anchor there, and forward ones are in the order of the blocks at their other ends. -/
theorem ofDiagram_fanned (d : Diagram Rat) (spread : Rat)
    (distinct : (d.nodes.map (·.id)).Nodup) :
    (∀ n ∈ d.nodes, center d n.id = n.center.x) ∧ (∀ side id, Fanned d spread side id) ∧
      (0 < spread → ∀ r ∈ Route.all d spread, ∀ q ∈ Route.all d spread, ∀ e f,
        d.edges[r.edge]? = some e → d.edges[q.edge]? = some f → r.edge ≠ q.edge →
        ∀ side, side.near e = side.near f → Apart d side r q e f) := by
  refine ⟨fun n => center_of_mem distinct, fanned d spread, ?_⟩
  intro wide r first q second e f left right different side shared
  exact apart_of_routes distinct wide first second left right different shared

/-- A block that leads to two others and back to itself. -/
theorem ofDiagram_fanned_returning :
    let block : Block := ⟨.process, "step", "[step]", none⟩
    let d : Diagram Rat :=
      ⟨[⟨block, 0, ⟨100, 0, 140, 60⟩, none, none⟩, ⟨block, 1, ⟨200, 120, 140, 60⟩, none, none⟩,
        ⟨block, 2, ⟨0, 120, 140, 60⟩, none, none⟩],
        [⟨0, 0, some "again", true⟩, ⟨0, 1, none, false⟩, ⟨0, 2, none, false⟩]⟩
    (d.nodes.map (·.id)).Nodup ∧
      (∀ n ∈ d.nodes, center d n.id = n.center.x) ∧ (∀ side id, Fanned d 20 side id) ∧
      ((0 : Rat) < 20 → ∀ r ∈ Route.all d 20, ∀ q ∈ Route.all d 20, ∀ e f,
        d.edges[r.edge]? = some e → d.edges[q.edge]? = some f → r.edge ≠ q.edge →
        ∀ side, side.near e = side.near f → Apart d side r q e f) := by
  intro block d
  have distinct : (d.nodes.map (·.id)).Nodup := by decide
  exact ⟨distinct, ofDiagram_fanned d 20 distinct⟩

end Diagram
end Flowchart.Fan
