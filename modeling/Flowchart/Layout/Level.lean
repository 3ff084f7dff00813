import Flowchart.Diagram
/-! Levels: each block gets the length of the longest forward path into it. Cycles are broken by
demoting connections to back-references, one at a time.

A connection pushes its target one level below its source, in order and over and over, until nothing
changes. Inside a cycle the levels would climb for ever; a push beyond the number of blocks shows
that a cycle is near, and the connection is demoted if it lies on one. -/
namespace Flowchart.Layout

/-- What can go wrong where several blocks share a number: a search meets the place of a block
beyond its table, which has one entry for each number. -/
inductive Fault where
  | outsideTable (place size : Nat)
  deriving DecidableEq, Repr

/-- A forward connection between the places of two blocks among `n`. `edge` is its index. -/
structure Link (n : Nat) where
  edge : Nat
  source : Fin n
  target : Fin n
  deriving DecidableEq

/-- The place of a number, the last one if it occurs several times. -/
def place? (id : Nat) : (ids : List Nat) → Option (Fin ids.length)
  | [] => none
  | x :: xs =>
    match place? id xs with
    | some i => some i.succ
    | none => if x == id then some ⟨0, by simp⟩ else none

def links (ids : List Nat) (edges : List Edge) : List (Link ids.length) :=
  edges.zipIdx.filterMap fun (e, i) =>
    if e.back then none
    else match place? e.source ids, place? e.target ids with
      | some source, some target => some ⟨i, source, target⟩
      | _, _ => none

def tableSize (ids : List Nat) : Nat := ids.eraseDups.length

variable {n : Nat}

def successors (ls : List (Link n)) (i : Fin n) : List (Fin n) :=
  (ls.filter (·.source == i)).map (·.target)

def unseen (seen : List (Fin n)) : List (Fin n) := (List.finRange n).filter (· ∉ seen)

theorem length_unseen_cons_lt {seen : List (Fin n)} {i : Fin n} (h : i ∉ seen) :
    (unseen (i :: seen)).length < (unseen seen).length := by
  have same : unseen (i :: seen) = (unseen seen).filter (· ≠ i) := by
    simp only [unseen, List.filter_filter]
    congr 1
    funext j
    simp
  rw [same]
  exact List.length_filter_lt_length_iff_exists.2
    ⟨i, by simp [unseen, h], by simp⟩

/-- Does a path lead from the stack to `goal`? The places in `seen` have been expanded; their
successors are on the stack, the last one on top. -/
def search (size : Nat) (ls : List (Link n)) (goal : Fin n) (seen : List (Fin n)) :
    (stack : List (Fin n)) → Except Fault Bool
  | [] => .ok false
  | i :: stack =>
    if i = goal then .ok true
    else if size ≤ i then .error (.outsideTable i size)
    else if _h : i ∈ seen then search size ls goal seen stack
    else search size ls goal (i :: seen) ((successors ls i).reverse ++ stack)
  termination_by stack => ((unseen seen).length, stack.length)
  decreasing_by
    · exact Prod.Lex.right _ (by simp)
    · exact Prod.Lex.left _ _ (length_unseen_cons_lt _h)

/-- Does the target of a link lead back to its source? -/
def closesCycle (size : Nat) (ls : List (Link n)) (l : Link n) : Except Fault Bool :=
  search size ls l.source [] [l.target]

inductive Sweep (n : Nat) where
  | levels (values : Vector Nat n) (changed : Bool)
  | cycle (link : Link n)

/-- Push the target of each link in turn. `all` are the links of the whole round. -/
def sweep (size : Nat) (all : List (Link n)) :
    List (Link n) → (levels : Vector Nat n) → (changed : Bool) → Except Fault (Sweep n)
  | [], levels, changed => .ok (.levels levels changed)
  | l :: ls, levels, changed =>
    let raised := levels[l.source] + 1
    if raised ≤ levels[l.target] then sweep size all ls levels changed
    else if n < raised then
      match closesCycle size all l with
      | .ok true => .ok (.cycle l)
      | .ok false => sweep size all ls levels changed
      | .error fault => .error fault
    else sweep size all ls (levels.set l.target raised) true

/-- By how much all levels together can still rise. -/
def headroom (levels : Vector Nat n) : Nat :=
  levels.toList.foldr (fun level total => n - level + total) 0

theorem foldr_set_lt {bound value : Nat} {xs : List Nat} {i : Nat} (h : i < xs.length)
    (above : xs[i] < value) (below : value ≤ bound) :
    (xs.set i value).foldr (fun x total => bound - x + total) 0
      < xs.foldr (fun x total => bound - x + total) 0 := by
  induction xs generalizing i with
  | nil => simp at h
  | cons x xs ih =>
    cases i with
    | zero =>
      simp only [List.getElem_cons_zero] at above
      simp only [List.set_cons_zero, List.foldr_cons]
      omega
    | succ i =>
      have less := ih (i := i) (by simpa using h) (by simpa using above)
      simp only [List.set_cons_succ, List.foldr_cons]
      omega

theorem headroom_set_lt {levels : Vector Nat n} {i : Fin n} {value : Nat}
    (above : levels[i] < value) (below : value ≤ n) :
    headroom (levels.set i value) < headroom levels := by
  simp only [headroom, Vector.toList_set]
  exact foldr_set_lt (by simp) (by simpa using above) below

theorem headroom_sweep {size : Nat} {all ls : List (Link n)} {levels after : Vector Nat n}
    {changed changedAfter : Bool}
    (h : sweep size all ls levels changed = .ok (.levels after changedAfter)) :
    headroom after ≤ headroom levels ∧
      (changedAfter = true → changed = true ∨ headroom after < headroom levels) := by
  induction ls generalizing levels changed with
  | nil =>
    simp only [sweep, Except.ok.injEq, Sweep.levels.injEq] at h
    obtain ⟨rfl, rfl⟩ := h
    exact ⟨Nat.le_refl _, fun same => .inl same⟩
  | cons l ls ih =>
    unfold sweep at h
    simp only at h
    split at h
    · exact ih h
    · split at h
      · split at h
        · simp at h
        · exact ih h
        · simp at h
      · next higher inside =>
        have less : headroom (levels.set l.target (levels[l.source] + 1)) < headroom levels :=
          headroom_set_lt (by simpa using higher) (by simpa using inside)
        have later := ih h
        exact ⟨by omega, fun _ => .inr (by omega)⟩

theorem mem_of_sweep_cycle {size : Nat} {all ls : List (Link n)} {levels : Vector Nat n}
    {changed : Bool} {l : Link n} (h : sweep size all ls levels changed = .ok (.cycle l)) :
    l ∈ ls := by
  induction ls generalizing levels changed with
  | nil => simp [sweep] at h
  | cons m ls ih =>
    unfold sweep at h
    simp only at h
    split at h
    · exact List.mem_cons_of_mem _ (ih h)
    · split at h
      · split at h
        · simp only [Except.ok.injEq, Sweep.cycle.injEq] at h
          simp [h]
        · exact List.mem_cons_of_mem _ (ih h)
        · simp at h
      · exact List.mem_cons_of_mem _ (ih h)

/-- Sweep until nothing changes or a cycle shows. -/
def settle (size : Nat) (ls : List (Link n)) (levels : Vector Nat n) : Except Fault (Sweep n) :=
  match _h : sweep size ls ls levels false with
  | .ok (.levels after true) => settle size ls after
  | .ok (.levels after false) => .ok (.levels after false)
  | .ok (.cycle l) => .ok (.cycle l)
  | .error fault => .error fault
  termination_by headroom levels
  decreasing_by
    have := (headroom_sweep _h).2 rfl
    simpa using this

theorem mem_of_settle_cycle {size : Nat} {ls : List (Link n)} {levels : Vector Nat n} {l : Link n}
    (h : settle size ls levels = .ok (.cycle l)) : l ∈ ls := by
  induction levels using settle.induct size ls with
  | case1 levels after swept ih =>
    rw [settle, swept] at h
    exact ih h
  | case2 levels after swept =>
    rw [settle, swept] at h
    simp at h
  | case3 levels m swept =>
    rw [settle, swept] at h
    simp only [Except.ok.injEq, Sweep.cycle.injEq] at h
    exact h ▸ mem_of_sweep_cycle swept
  | case4 levels fault swept =>
    rw [settle, swept] at h
    simp at h

def withoutEdge (edge : Nat) (ls : List (Link n)) : List (Link n) := ls.filter (·.edge != edge)

theorem length_withoutEdge_lt {ls : List (Link n)} {l : Link n} (h : l ∈ ls) :
    (withoutEdge l.edge ls).length < ls.length :=
  List.length_filter_lt_length_iff_exists.2 ⟨l, h, by simp⟩

/-- Start again without the demoted link until the levels settle. The indices of the demoted
connections come with them, in order. -/
def resolve (size : Nat) (ls : List (Link n)) : Except Fault (Vector Nat n × List Nat) :=
  match _h : settle size ls (Vector.replicate n 0) with
  | .ok (.levels levels _) => .ok (levels, [])
  | .ok (.cycle l) =>
    match resolve size (withoutEdge l.edge ls) with
    | .ok (levels, demoted) => .ok (levels, l.edge :: demoted)
    | .error fault => .error fault
  | .error fault => .error fault
  termination_by ls.length
  decreasing_by
    exact length_withoutEdge_lt (mem_of_settle_cycle _h)

/-- The level of each block, by its number, and the demoted connections in order. -/
structure Levels where
  entries : List (Nat × Nat) := []
  demoted : List Nat := []
  deriving DecidableEq, Repr

namespace Levels

/-- The level of a block; of several entries for a number, the last. -/
def get (levels : Levels) (id : Nat) : Nat :=
  ((levels.entries.reverse.find? (·.1 == id)).map (·.2)).getD 0

def max? (levels : Levels) : Option Nat := (levels.entries.map (·.2)).max?

def mark (levels : Levels) (edges : List Edge) : List Edge :=
  edges.zipIdx.map fun (e, i) => if levels.demoted.contains i then { e with back := true } else e

end Levels

/-- The levels of blocks with the given numbers, in order. -/
def levelsOf (ids : List Nat) (edges : List Edge) : Except Fault Levels :=
  match resolve (tableSize ids) (links ids edges) with
  | .ok (levels, demoted) => .ok ⟨ids.zip levels.toList, demoted⟩
  | .error fault => .error fault

end Flowchart.Layout
