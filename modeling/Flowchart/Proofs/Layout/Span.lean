import Flowchart.Proofs.Layout.Width
import Flowchart.Proofs.Layout.Row
import Flowchart.Proofs.Rational
import Mathlib.Tactic.Linarith
/-! Spans of subtrees. The walk puts children side by side around the center of their parent, so
that spans of siblings only touch and lie in the span of their parent, and spans of blocks of one
level do not overlap. -/
namespace Flowchart.Layout

section Centers
variable {α : Type} [Scalar α] {width : Nat → α}
variable {ids : List Nat} {level : Nat → Nat} {bs : List Branch}

theorem Forest.centers_perm (forest : Forest ids level bs) (distinct : ids.Nodup)
    (width : Nat → α) : ((centers width ids bs).map (·.1)).Perm ids := by
  refine forest.walk_perm distinct ?_
  rw [List.map_reverse, spreadOut_keys]
  exact List.reverse_perm _

theorem Forest.centers_nodup (forest : Forest ids level bs) (distinct : ids.Nodup)
    (width : Nat → α) : ((centers width ids bs).map (·.1)).Nodup :=
  (forest.centers_perm distinct width).nodup_iff.mpr distinct

theorem Forest.mem_centers (forest : Forest ids level bs) (distinct : ids.Nodup) (width : Nat → α)
    {id : Nat} (member : id ∈ ids) :
    (id, valueAt (centers width ids bs) id) ∈ centers width ids bs := by
  have key := (forest.centers_perm distinct width).mem_iff.mpr member
  obtain ⟨⟨_, center⟩, met, rfl⟩ := List.mem_map.mp key
  rw [valueAt_of_nodup_map (forest.centers_nodup distinct width) met]
  exact met

/-- The children of a block are spread around its center. -/
theorem Forest.spreadChildren_eq (forest : Forest ids level bs) (distinct : ids.Nodup)
    (width : Nat → α) (id : Nat) :
    spreadChildren width bs id (valueAt (centers width ids bs) id) =
      (childrenOf bs id).map fun kid => (kid, valueAt (centers width ids bs) kid) := by
  refine (eq_map_of_agree ?_).trans (by rw [spreadChildren_keys])
  intro p member
  have key := List.mem_map_of_mem (f := Prod.fst) member
  rw [spreadChildren_keys] at key
  have branch := mem_childrenOf.mp key
  have met := forest.mem_centers distinct width (forest.child_mem _ branch)
  rcases mem_walk met with root | ⟨q, parent, below⟩
  · -- a child is no root
    have start := List.mem_map_of_mem (f := Prod.fst) (List.mem_reverse.mp root)
    rw [spreadOut_keys] at start
    exact absurd rfl ((forest.mem_roots.mp start).2 _ branch)
  · have other := List.mem_map_of_mem (f := Prod.fst) below
    rw [spreadChildren_keys] at other
    have same := forest.parent_eq branch (mem_childrenOf.mp other) rfl
    have up : id = q.1 := congrArg Branch.parent same
    rw [up, valueAt_of_nodup_map (forest.centers_nodup distinct width) parent] at member
    refine value_eq_of_mem ?_ member below rfl
    rw [spreadChildren_keys]
    exact forest.children_nodup _

theorem Forest.spreadRoots_eq (forest : Forest ids level bs) (distinct : ids.Nodup)
    (width : Nat → α) :
    spreadOut width (-total ((roots ids bs).map width) / 2) (roots ids bs) =
      (roots ids bs).map fun id => (id, valueAt (centers width ids bs) id) := by
  refine (eq_map_of_agree ?_).trans (by rw [spreadOut_keys])
  intro p member
  have key := List.mem_map_of_mem (f := Prod.fst) member
  rw [spreadOut_keys] at key
  obtain ⟨inside, orphan⟩ := forest.mem_roots.mp key
  rcases mem_walk (forest.mem_centers distinct width inside) with root | ⟨q, _, below⟩
  · refine value_eq_of_mem ?_ member (List.mem_reverse.mp root) rfl
    rw [spreadOut_keys]
    exact forest.roots_nodup distinct
  · have other := List.mem_map_of_mem (f := Prod.fst) below
    rw [spreadChildren_keys] at other
    exact absurd rfl (orphan _ (mem_childrenOf.mp other))

end Centers

/-- Ends of the span of a block. -/
def spanLeft (width center : Nat → Rat) (id : Nat) : Rat := center id - width id / 2

def spanRight (width center : Nat → Rat) (id : Nat) : Rat := center id + width id / 2

section Spread
variable {width center : Nat → Rat}

/-- Spans of neighbours touch, from the left end on over the sum of their widths. -/
theorem spreadOut_spans {ids : List Nat} {left : Rat} (sized : ∀ id ∈ ids, 0 ≤ width id)
    (spread : spreadOut width left ids = ids.map fun id => (id, center id)) :
    (ids.Pairwise fun a b => spanRight width center a ≤ spanLeft width center b) ∧
      0 ≤ (ids.map width).sum ∧ ∀ id ∈ ids, left ≤ spanLeft width center id ∧
        spanRight width center id ≤ left + (ids.map width).sum := by
  induction ids generalizing left with
  | nil => simp
  | cons id ids ih =>
      rw [spreadOut_cons, List.map_cons, List.cons.injEq, Prod.mk.injEq] at spread
      obtain ⟨⟨-, middle⟩, later⟩ := spread
      obtain ⟨wide, others⟩ := List.forall_mem_cons.mp sized
      obtain ⟨ordered, positive, bounds⟩ := ih others later
      have leftEnd : spanLeft width center id = left := by
        rw [spanLeft, ← middle]
        linarith
      have rightEnd : spanRight width center id = left + width id := by
        rw [spanRight, ← middle]
        linarith
      rw [List.map_cons, List.sum_cons]
      refine ⟨List.pairwise_cons.mpr ⟨?_, ordered⟩, by linarith, ?_⟩
      · intro other member
        rw [rightEnd]
        exact (bounds other member).1
      · intro other member
        rcases List.mem_cons.mp member with rfl | member
        · rw [leftEnd, rightEnd]
          constructor <;> linarith
        · obtain ⟨above, below⟩ := bounds other member
          constructor <;> linarith

end Spread

/-- Spans of siblings are in order and lie in the span of their parent. -/
structure Nested (ids : List Nat) (bs : List Branch) (width center : Nat → Rat) : Prop where
  roots_apart : (roots ids bs).Pairwise fun a b =>
    spanRight width center a ≤ spanLeft width center b
  siblings_apart : ∀ id, (childrenOf bs id).Pairwise fun a b =>
    spanRight width center a ≤ spanLeft width center b
  inside : ∀ b ∈ bs, spanLeft width center b.parent ≤ spanLeft width center b.child ∧
    spanRight width center b.child ≤ spanRight width center b.parent

section Cut
variable {ids : List Nat} {level : Nat → Nat} {bs : List Branch} {width : Nat → Rat}

/-- The walk nests spans, where no block is narrower than its children together. -/
theorem Forest.nested (forest : Forest ids level bs) (distinct : ids.Nodup)
    (sized : ∀ id ∈ ids, 0 ≤ width id)
    (wide : ∀ id ∈ ids, ((childrenOf bs id).map width).sum ≤ width id) :
    Nested ids bs width (valueAt (centers width ids bs)) := by
  have kids : ∀ id, ∀ kid ∈ childrenOf bs id, 0 ≤ width kid := by
    intro id kid member
    exact sized kid (forest.child_mem _ (mem_childrenOf.mp member))
  constructor
  case roots_apart =>
    have start : ∀ root ∈ roots ids bs, 0 ≤ width root := by
      intro root member
      exact sized root (forest.mem_roots.mp member).1
    exact (spreadOut_spans start (forest.spreadRoots_eq distinct width)).1
  case siblings_apart =>
    intro id
    exact (spreadOut_spans (kids id) (forest.spreadChildren_eq distinct width id)).1
  case inside =>
    intro b member
    have spread := spreadOut_spans (kids b.parent)
      (forest.spreadChildren_eq distinct width b.parent)
    have bounds := spread.2.2 b.child (mem_childrenOf.mpr member)
    have room := wide b.parent (forest.parent_mem b member)
    rw [total_eq_sum] at bounds
    simp only [spanLeft, spanRight] at bounds ⊢
    constructor <;> linarith

/-- The block is the highest one of its branch from level `t` on. -/
structure OnCut (ids : List Nat) (level : Nat → Nat) (bs : List Branch) (t id : Nat) : Prop where
  member : id ∈ ids
  deep : t ≤ level id
  high : ∀ b ∈ bs, b.child = id → level b.parent < t

/-- A block on a cut is on the cut above, or its parent is. -/
theorem OnCut.climb (forest : Forest ids level bs) {t id : Nat}
    (cut : OnCut ids level bs (t + 1) id) :
    OnCut ids level bs t id ∨
      ∃ b ∈ bs, b.child = id ∧ level b.parent = t ∧ OnCut ids level bs t b.parent := by
  by_cases top : ∀ b ∈ bs, b.child = id → level b.parent < t
  · exact Or.inl ⟨cut.member, Nat.le_of_succ_le cut.deep, top⟩
  · push Not at top
    obtain ⟨b, inside, rfl, deep⟩ := top
    have shallow : level b.parent ≤ t := Nat.le_of_lt_succ (cut.high b inside rfl)
    have same : level b.parent = t := Nat.le_antisymm shallow deep
    refine Or.inr ⟨b, inside, rfl, same, forest.parent_mem b inside, deep, ?_⟩
    intro c above child
    have rises := forest.rises c above
    rwa [child, same] at rises

def Apart (width center : Nat → Rat) (a b : Nat) : Prop :=
  spanRight width center a ≤ spanLeft width center b ∨
    spanRight width center b ≤ spanLeft width center a

theorem Apart.symm {center : Nat → Rat} {a b : Nat} (apart : Apart width center a b) :
    Apart width center b a := Or.symm apart

theorem Nested.apart_child {center : Nat → Rat} (nested : Nested ids bs width center) {a : Nat}
    {b : Branch} (member : b ∈ bs) (apart : Apart width center a b.parent) :
    Apart width center a b.child := by
  obtain ⟨left, right⟩ := nested.inside b member
  rcases apart with before | after
  · exact Or.inl (before.trans left)
  · exact Or.inr (right.trans after)

theorem Nested.apart_of_onCut {center : Nat → Rat} (nested : Nested ids bs width center)
    (forest : Forest ids level bs) {t a b : Nat} (different : a ≠ b)
    (left : OnCut ids level bs t a) (right : OnCut ids level bs t b) : Apart width center a b := by
  -- both blocks climb to the cut above; what they meet there is apart, or is their common parent
  induction t generalizing a b with
  | zero =>
      have root : ∀ {id}, OnCut ids level bs 0 id → id ∈ roots ids bs := by
        intro id cut
        exact forest.mem_roots.mpr
          ⟨cut.member, fun b inside child => Nat.not_lt_zero _ (cut.high b inside child)⟩
      exact pairwise_or nested.roots_apart (root left) (root right) different
  | succ t ih =>
      rcases left.climb forest with atA | ⟨c, memberC, rfl, levelC, atC⟩ <;>
        rcases right.climb forest with atB | ⟨d, memberD, rfl, levelD, atD⟩
      · exact ih different atA atB
      · have other : a ≠ d.parent := by
          rintro rfl
          exact absurd left.deep (by omega)
        exact nested.apart_child memberD (ih other atA atD)
      · have other : b ≠ c.parent := by
          rintro rfl
          exact absurd right.deep (by omega)
        exact (nested.apart_child memberC (ih other atB atC)).symm
      · by_cases same : c.parent = d.parent
        · refine pairwise_or (nested.siblings_apart c.parent) ?_ ?_ different
          · exact mem_childrenOf.mpr memberC
          · exact mem_childrenOf.mpr (same ▸ memberD)
        · have parents := ih same atC atD
          exact nested.apart_child memberD (nested.apart_child memberC parents.symm).symm

/-- Spans of blocks of one level do not overlap. -/
theorem Nested.apart_of_level_eq {center : Nat → Rat} (nested : Nested ids bs width center)
    (forest : Forest ids level bs) {a b : Nat} (different : a ≠ b) (left : a ∈ ids)
    (right : b ∈ ids) (same : level a = level b) : Apart width center a b := by
  have cut : ∀ {id}, id ∈ ids → OnCut ids level bs (level id) id := by
    intro id member
    refine ⟨member, Nat.le_refl _, ?_⟩
    rintro b inside rfl
    exact forest.rises b inside
  exact nested.apart_of_onCut forest different (cut left) (same ▸ cut right)

end Cut
end Flowchart.Layout
