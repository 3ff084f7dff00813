import Flowchart.Proofs.Editor.Run
import Flowchart.Proofs.Editor.Undo
/-! The history as a line of states with a cursor on it. Recording cuts the line off behind the
cursor and goes on from there; undo and redo only move the cursor. Both stacks of the history are
parts of that line, so the limit at recording bounds them together. -/
namespace Flowchart

namespace History

variable {σ : Type} {h later : History σ} {before current previous next : σ}

/-- The limit holds for all that is kept, what can be redone included. -/
structure Bounded (h : History σ) : Prop where
  room : 0 < h.limit
  size : h.undo.length + h.redo.length ≤ h.limit

theorem Bounded.undo_record (bounded : h.Bounded) (before : σ) :
    (h.record before).undo = (before :: h.undo).take h.limit := by
  refine History.record_undo bounded.room ?_ before
  exact (List.take_of_length_le (Nat.le_of_add_right_le bounded.size)).symm

theorem Bounded.record (bounded : h.Bounded) (before : σ) : (h.record before).Bounded where
  room := bounded.room
  size := by
    rw [bounded.undo_record]
    exact (List.length_take_le _ _)

theorem Bounded.undo (bounded : h.Bounded) (undone : h.undo? current = some (previous, later)) :
    later.Bounded := by
  obtain ⟨rest, past, rfl⟩ := undo?_eq_some_iff.mp undone
  have size := bounded.size
  rw [past, List.length_cons] at size
  refine ⟨bounded.room, ?_⟩
  simp only [List.length_cons]
  omega

theorem Bounded.redo (bounded : h.Bounded) (redone : h.redo? current = some (next, later)) :
    later.Bounded := by
  obtain ⟨rest, future, rfl⟩ := redo?_eq_some_iff.mp redone
  have size := bounded.size
  rw [future, List.length_cons] at size
  refine ⟨bounded.room, ?_⟩
  simp only [List.length_cons]
  omega

theorem Bounded.clear (bounded : h.Bounded) : h.clear.Bounded :=
  ⟨bounded.room, Nat.zero_le _⟩

end History

/-- What is done with a history. A change that is recorded leads to another state. -/
inductive HistoryCall (σ : Type) where
  | record (next : σ)
  | undo
  | redo

/-- The answers to one call after the other, and what they lead to. -/
def HistoryCall.run {σ τ : Type} (perform : τ → HistoryCall σ → Option σ × τ) (t : τ) :
    List (HistoryCall σ) → List (Option σ) × τ
  | [] => ([], t)
  | call :: calls =>
    let later := run perform (perform t call).2 calls
    ((perform t call).1 :: later.1, later.2)

/-- States in the order of time, and the place of the current one. -/
structure Timeline (σ : Type) where
  states : List σ
  cursor : Nat

namespace Timeline

variable {σ : Type}

def start (first : σ) : Timeline σ := ⟨[first], 0⟩

/-- Forget all that comes after the cursor, keep the latest `limit` of the other states, and go on
to the next one. -/
def record (limit : Nat) (t : Timeline σ) (next : σ) : Timeline σ :=
  let behind := (t.states.take (t.cursor + 1)).rtake limit
  ⟨behind ++ [next], behind.length⟩

/-- Move the cursor to a place, if the line goes that far. The answer is the state found there. -/
def visit (t : Timeline σ) (place : Nat) : Option σ × Timeline σ :=
  match t.states[place]? with
  | some state => (some state, { t with cursor := place })
  | none => (none, t)

def perform (limit : Nat) (t : Timeline σ) : HistoryCall σ → Option σ × Timeline σ
  | .record next => (none, t.record limit next)
  | .undo => if t.cursor = 0 then (none, t) else t.visit (t.cursor - 1)
  | .redo => t.visit (t.cursor + 1)

end Timeline

/-- A state and its history. -/
structure Versioned (σ : Type) where
  history : History σ
  current : σ

namespace Versioned

variable {σ : Type}

/-- What the history gives back becomes the current state. -/
def resume (v : Versioned σ) : Option (σ × History σ) → Option σ × Versioned σ
  | some (state, history) => (some state, ⟨history, state⟩)
  | none => (none, v)

def perform (v : Versioned σ) : HistoryCall σ → Option σ × Versioned σ
  | .record next => (none, ⟨v.history.record v.current, next⟩)
  | .undo => v.resume (v.history.undo? v.current)
  | .redo => v.resume (v.history.redo? v.current)

/-- What can be undone lies before the current state, what can be redone after it. -/
def timeline (v : Versioned σ) : Timeline σ :=
  ⟨v.history.undo.reverse ++ v.current :: v.history.redo, v.history.undo.length⟩

variable {v after : Versioned σ} {answer : Option σ} {state : σ}

theorem timeline_current (v : Versioned σ) :
    v.timeline.states[v.timeline.cursor]? = some v.current := by
  rw [timeline, List.getElem?_append_right List.length_reverse.le, List.length_reverse,
    Nat.sub_self, List.getElem?_cons_zero]

/-- Undo has no answer, or it takes the top off its stack. -/
theorem undo_cases (v : Versioned σ) :
    v.history.undo = [] ∧ v.perform .undo = (none, v) ∨
      ∃ previous rest, v.history.undo = previous :: rest ∧ v.perform .undo = (some previous,
        ⟨{ v.history with undo := rest, redo := v.current :: v.history.redo }, previous⟩) := by
  rw [perform, History.undo?]
  cases v.history.undo with
  | nil => exact .inl ⟨rfl, rfl⟩
  | cons previous rest => exact .inr ⟨previous, rest, rfl, rfl⟩

theorem redo_cases (v : Versioned σ) :
    v.history.redo = [] ∧ v.perform .redo = (none, v) ∨
      ∃ next rest, v.history.redo = next :: rest ∧ v.perform .redo = (some next,
        ⟨{ v.history with undo := v.current :: v.history.undo, redo := rest }, next⟩) := by
  rw [perform, History.redo?]
  cases v.history.redo with
  | nil => exact .inl ⟨rfl, rfl⟩
  | cons next rest => exact .inr ⟨next, rest, rfl, rfl⟩

/-- Redo puts back what undo took. -/
theorem redo_undo (undone : v.perform .undo = (some state, after)) :
    after.perform .redo = (some v.current, v) := by
  rcases v.undo_cases with ⟨-, refused⟩ | ⟨previous, rest, past, made⟩
  · rw [refused] at undone
    cases undone
  · rw [made] at undone
    cases undone
    obtain ⟨⟨undo, redo, limit⟩, current⟩ := v
    cases past
    rfl

section Bounded
variable (bounded : v.history.Bounded)
include bounded

/-- No call changes the limit, and recording alone has to heed it. Undo and redo carry states from
one stack to the other. -/
theorem bounded_perform (call : HistoryCall σ) :
    (v.perform call).2.history.Bounded ∧ (v.perform call).2.history.limit = v.history.limit := by
  cases call with
  | record next => exact ⟨bounded.record v.current, rfl⟩
  | undo =>
      rcases v.undo_cases with ⟨-, refused⟩ | ⟨previous, rest, past, made⟩
      · exact refused ▸ ⟨bounded, rfl⟩
      · rw [made]
        exact ⟨bounded.undo (History.undo?_eq_some_iff.mpr ⟨rest, past, rfl⟩), rfl⟩
  | redo =>
      rcases v.redo_cases with ⟨-, refused⟩ | ⟨next, rest, future, made⟩
      · exact refused ▸ ⟨bounded, rfl⟩
      · rw [made]
        exact ⟨bounded.redo (History.redo?_eq_some_iff.mpr ⟨rest, future, rfl⟩), rfl⟩

theorem timeline_record (next : σ) :
    timeline ⟨v.history.record v.current, next⟩ = v.timeline.record v.history.limit next := by
  have behind : v.timeline.states.take (v.timeline.cursor + 1) =
      (v.current :: v.history.undo).reverse := by
    rw [timeline, List.take_append, List.length_reverse, Nat.add_sub_cancel_left,
      List.take_of_length_le (by simp), List.reverse_cons]
    rfl
  have kept : ((v.current :: v.history.undo).reverse).rtake v.history.limit =
      ((v.current :: v.history.undo).take v.history.limit).reverse := by
    rw [List.rtake_eq_reverse_take_reverse, List.reverse_reverse]
  rw [Timeline.record, behind, kept, List.length_reverse, timeline, bounded.undo_record]
  rfl

/-- One call does to the stacks what it does to the line. -/
theorem timeline_perform (call : HistoryCall σ) :
    Prod.map id timeline (v.perform call) = v.timeline.perform v.history.limit call := by
  cases call with
  | record next => exact congrArg (Prod.mk none) (timeline_record bounded next)
  | undo =>
      rcases v.undo_cases with ⟨past, refused⟩ | ⟨previous, rest, past, made⟩
      · rw [refused]
        simp [Timeline.perform, timeline, past]
      · rw [made]
        simp [Timeline.perform, Timeline.visit, timeline, past]
  | redo =>
      rcases v.redo_cases with ⟨future, refused⟩ | ⟨next, rest, future, made⟩
      · rw [refused]
        simp [Timeline.perform, Timeline.visit, timeline, future]
      · rw [made]
        simp [Timeline.perform, Timeline.visit, timeline, future]

theorem timeline_run (calls : List (HistoryCall σ)) :
    let reached := HistoryCall.run perform v calls
    Prod.map id timeline reached =
        HistoryCall.run (Timeline.perform v.history.limit) v.timeline calls ∧
      reached.2.history.Bounded ∧ reached.2.history.limit = v.history.limit := by
  induction calls generalizing v with
  | nil => exact ⟨rfl, bounded, rfl⟩
  | cons call calls ih =>
      obtain ⟨within, limit⟩ := bounded_perform bounded call
      obtain ⟨same, later, kept⟩ := ih within
      refine ⟨?_, later, kept.trans limit⟩
      have step := timeline_perform bounded call
      have answered : (v.perform call).1 = (v.timeline.perform v.history.limit call).1 :=
        congrArg Prod.fst step
      have led : (v.perform call).2.timeline = (v.timeline.perform v.history.limit call).2 :=
        congrArg Prod.snd step
      rw [HistoryCall.run, HistoryCall.run, ← answered, ← led, ← limit, ← same]
      rfl

end Bounded

/-- However a history is used, its answers are those of the line, on which the current state is
where the cursor is. Redo returns to where undo came from, and the two stacks together never exceed
the limit. -/
theorem run_timeline (limit : Nat) (first : σ) (calls : List (HistoryCall σ)) :
    let reached := HistoryCall.run perform ⟨.ofLimit limit, first⟩ calls
    let line := HistoryCall.run (Timeline.perform (max limit 1)) (.start first) calls
    reached.1 = line.1 ∧ reached.2.timeline = line.2 ∧
      line.2.states[line.2.cursor]? = some reached.2.current ∧
      (∀ state undone, reached.2.perform .undo = (some state, undone) →
        undone.perform .redo = (some reached.2.current, reached.2)) ∧
      reached.2.history.undo.length + reached.2.history.redo.length ≤ max limit 1 := by
  intro reached line
  have empty : (History.ofLimit limit : History σ).Bounded :=
    ⟨Nat.lt_of_lt_of_le Nat.one_pos (Nat.le_max_right _ _), Nat.zero_le _⟩
  obtain ⟨same, bounded, limited⟩ := @timeline_run σ ⟨.ofLimit limit, first⟩ empty calls
  have led : reached.2.timeline = line.2 := congrArg Prod.snd same
  exact ⟨congrArg Prod.fst same, led, led ▸ reached.2.timeline_current,
    fun _ _ undone => redo_undo undone, bounded.size.trans_eq limited⟩

/-- A limit of none counts as one. -/
example : (HistoryCall.run perform ⟨.ofLimit 0, 1⟩
    [.record 2, .record 3, .undo, .undo, .redo, .redo]).1 =
      [none, none, some 2, none, some 3, none] := by
  decide

end Versioned
end Flowchart
