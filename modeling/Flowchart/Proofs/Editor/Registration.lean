import Flowchart.Editor.Listeners
import Mathlib.Data.List.Nodup
import Mathlib.Logic.Function.Basic
/-! The register of listeners through any run of calls. The answers are compared with the log of the
calls before: a handle is live from the call that gives it out to the call that removes it. A call
changes the list of one kind only, so the run lemma follows each kind's list on its own, and a
register that keeps these lists apart gives the same answers. -/
namespace Flowchart.Listeners

section Lists
variable {ls later : Listeners} {kind : EventKind} {listener : Nat}

theorem of_on (ls : Listeners) (kind other : EventKind) :
    (ls.on kind).of other = ls.of other ++ if kind = other then [ls.next] else [] := by
  rw [of, on, List.filter_append, List.map_append]
  by_cases same : kind = other <;> simp [of, same]

theorem isSome_off? : (ls.off? listener).isSome = true ↔ ∃ kind, listener ∈ ls.of kind := by
  simp only [off?, Option.isSome_ite, List.any_eq_true, beq_iff_eq, of, List.mem_map,
    List.mem_filter]
  constructor
  · rintro ⟨p, member, same⟩
    exact ⟨p.2, p, ⟨member, rfl⟩, same⟩
  · rintro ⟨_, p, ⟨member, _⟩, same⟩
    exact ⟨p, member, same⟩

theorem of_off? (found : ls.off? listener = some later) (kind : EventKind) :
    later.of kind = (ls.of kind).filter (· != listener) := by
  unfold off? at found
  split at found
  · obtain rfl := Option.some.inj found
    rw [of, of, List.filter_map, List.filter_filter, List.filter_filter]
    congr 1
    exact List.filter_congr fun p _ => Bool.and_comm _ _
  · cases found

theorem next_off? (found : ls.off? listener = some later) : later.next = ls.next := by
  unfold off? at found
  split at found
  · obtain rfl := Option.some.inj found
    rfl
  · cases found

theorem deliver_one {α : Type} (ls : Listeners) (event : Event α) :
    ls.deliver [event] = (ls.of event.kind).map (·, event) := by
  rw [deliver, List.flatMap_cons, List.flatMap_nil, List.append_nil]

end Lists

/-- A call to the register. -/
inductive Call (α : Type) where
  | on (kind : EventKind)
  | off (listener : Nat)
  | emit (event : Event α)

/-- A call with its answer: the handle, whether it was there, who was called with what. -/
inductive Entry (α : Type) where
  | on (kind : EventKind) (listener : Nat)
  | off (listener : Nat) (removed : Bool)
  | emit (event : Event α) (called : List (Nat × Event α))

variable {α : Type}

def Entry.call : Entry α → Call α
  | .on kind _ => .on kind
  | .off listener _ => .off listener
  | .emit event _ => .emit event

def perform (ls : Listeners) : Call α → Entry α × Listeners
  | .on kind => (.on kind ls.next, ls.on kind)
  | .off listener => (.off listener (ls.off? listener).isSome, (ls.off? listener).getD ls)
  | .emit event => (.emit event (ls.deliver [event]), ls)

/-- The log of one call after the other. -/
def run (ls : Listeners) : List (Call α) → List (Entry α)
  | [] => []
  | call :: calls => (ls.perform call).1 :: run (ls.perform call).2 calls

def Entry.registered? : Entry α → Option (Nat × EventKind)
  | .on kind listener => some (listener, kind)
  | .off _ _ | .emit _ _ => none

def Entry.removed? : Entry α → Option Nat
  | .off listener true => some listener
  | .on _ _ | .off _ false | .emit _ _ => none

/-- All handles that were given out, in order, with their kinds of events. -/
def registered (log : List (Entry α)) : List (Nat × EventKind) :=
  log.filterMap Entry.registered?

def handles (log : List (Entry α)) : List Nat := (registered log).map (·.1)

def removed (log : List (Entry α)) : List Nat := log.filterMap Entry.removed?

/-- Handles for a kind of events that were given out and not removed, in order. -/
def live (log : List (Entry α)) (kind : EventKind) : List Nat :=
  (((registered log).filter (·.2 == kind)).map (·.1)).filter (· ∉ removed log)

/-- What an entry has to be after the entries in `past`. -/
def Entry.Due (past : List (Entry α)) : Entry α → Prop
  | .on _ listener => listener ∉ handles past
  | .off listener found => found = true ↔ listener ∈ handles past ∧ listener ∉ removed past
  | .emit event called =>
    called = (live past event.kind).map (·, event) ∧ (called.map (·.1)).Nodup

section Log
variable {past : List (Entry α)} {listener : Nat}

theorem handles_concat (past : List (Entry α)) (entry : Entry α) :
    handles (past ++ [entry]) = handles past ++ (entry.registered?.map (·.1)).toList := by
  rw [handles, registered, List.filterMap_append, List.map_append]
  cases given : entry.registered? <;> simp [handles, registered, given]

theorem removed_concat (past : List (Entry α)) (entry : Entry α) :
    removed (past ++ [entry]) = removed past ++ entry.removed?.toList := by
  rw [removed, List.filterMap_append]
  cases gone : entry.removed? <;> simp [removed, gone]

theorem mem_live_iff :
    (∃ kind, listener ∈ live past kind) ↔ listener ∈ handles past ∧ listener ∉ removed past := by
  simp only [live, handles, List.mem_filter, List.mem_map, beq_iff_eq, decide_eq_true_eq]
  constructor
  · rintro ⟨_, ⟨p, ⟨member, _⟩, same⟩, kept⟩
    exact ⟨⟨p, member, same⟩, kept⟩
  · rintro ⟨⟨p, member, same⟩, kept⟩
    exact ⟨p.2, ⟨p, ⟨member, rfl⟩, same⟩, kept⟩

theorem live_sublist (past : List (Entry α)) (kind : EventKind) :
    (live past kind).Sublist (handles past) :=
  List.filter_sublist.trans (List.filter_sublist.map _)

theorem live_on (kind other : EventKind) (fresh : listener ∉ removed past) :
    live (past ++ [.on kind listener]) other =
      live past other ++ if kind = other then [listener] else [] := by
  have same : removed (past ++ [.on kind listener]) = removed past := by
    rw [removed_concat]
    exact List.append_nil _
  rw [live, same, registered, List.filterMap_append, List.filter_append, List.map_append,
    List.filter_append]
  by_cases own : kind = other <;> simp [live, registered, Entry.registered?, own, fresh]

theorem live_off (past : List (Entry α)) (listener : Nat) (kind : EventKind) :
    live (past ++ [.off listener true]) kind = (live past kind).filter (· != listener) := by
  have later : removed (past ++ [.off listener true]) = removed past ++ [listener] :=
    removed_concat past _
  have same : registered (past ++ [.off listener true]) = registered past := by
    rw [registered, List.filterMap_append]
    exact List.append_nil _
  rw [live, later, same, live, List.filter_filter]
  refine List.filter_congr ?_
  intro other _
  by_cases own : other = listener <;> simp [own]

/-- A call that neither registers nor removes leaves what is live. -/
theorem live_still {entry : Entry α} (registers : entry.registered? = none)
    (removes : entry.removed? = none) (kind : EventKind) :
    live (past ++ [entry]) kind = live past kind := by
  have same : registered (past ++ [entry]) = registered past := by
    rw [registered, List.filterMap_append]
    simp [registered, registers]
  rw [live, removed_concat, same, removes, Option.toList_none, List.append_nil, live]

end Log

/-- The register after the calls in `past`. -/
structure Keeps (past : List (Entry α)) (ls : Listeners) : Prop where
  of : ∀ kind, ls.of kind = live past kind
  given : ∀ listener ∈ handles past, listener < ls.next
  gone : ∀ listener ∈ removed past, listener < ls.next
  distinct : (handles past).Nodup

section Step
variable {past : List (Entry α)} {ls : Listeners}

theorem Keeps.on (keeps : Keeps past ls) (kind : EventKind) :
    Keeps (past ++ [.on kind ls.next]) (ls.on kind) where
  of other := by
    have fresh : ls.next ∉ removed past := fun member => Nat.lt_irrefl _ (keeps.gone _ member)
    rw [of_on, live_on kind other fresh, keeps.of]
  given listener member := by
    rw [handles_concat] at member
    rcases List.mem_append.mp member with before | now
    · exact Nat.lt_succ_of_lt (keeps.given listener before)
    · obtain rfl := List.mem_singleton.mp now
      exact Nat.lt_succ_self _
  gone listener member := by
    rw [removed_concat, List.mem_append] at member
    exact Nat.lt_succ_of_lt (keeps.gone listener (member.resolve_right (by simp [Entry.removed?])))
  distinct := by
    rw [handles_concat]
    refine List.Nodup.append keeps.distinct (List.nodup_singleton _) ?_
    exact List.disjoint_singleton.mpr fun member => Nat.lt_irrefl _ (keeps.given _ member)

theorem Keeps.still (keeps : Keeps past ls) {entry : Entry α}
    (registers : entry.registered? = none) (removes : entry.removed? = none) :
    Keeps (past ++ [entry]) ls where
  of kind := by rw [live_still registers removes, keeps.of]
  given := by
    rw [handles_concat, registers, Option.map_none, Option.toList_none, List.append_nil]
    exact keeps.given
  gone := by
    rw [removed_concat, removes, Option.toList_none, List.append_nil]
    exact keeps.gone
  distinct := by
    rw [handles_concat, registers, Option.map_none, Option.toList_none, List.append_nil]
    exact keeps.distinct

theorem Keeps.off (keeps : Keeps past ls) {later : Listeners} {listener : Nat}
    (found : ls.off? listener = some later) : Keeps (past ++ [.off listener true]) later where
  of kind := by rw [of_off? found, live_off, keeps.of]
  given := by
    rw [handles_concat, next_off? found]
    simpa [Entry.registered?] using keeps.given
  gone := by
    obtain ⟨kind, member⟩ := isSome_off?.mp (Option.isSome_of_eq_some found)
    have known := keeps.given listener ((live_sublist past kind).subset (keeps.of kind ▸ member))
    rw [removed_concat, next_off? found]
    intro other member
    rcases List.mem_append.mp member with before | now
    · exact keeps.gone other before
    · exact List.mem_singleton.mp now ▸ known
  distinct := by
    rw [handles_concat]
    simpa [Entry.registered?] using keeps.distinct

theorem Keeps.isSome_off? (keeps : Keeps past ls) (listener : Nat) :
    (ls.off? listener).isSome = true ↔ listener ∈ handles past ∧ listener ∉ removed past := by
  rw [Listeners.isSome_off?, ← mem_live_iff]
  simp only [keeps.of]

/-- A call gets the answer that is due and leads to the register after it. -/
theorem Keeps.perform (keeps : Keeps past ls) (call : Call α) :
    (ls.perform call).1.call = call ∧ (ls.perform call).1.Due past ∧
      Keeps (past ++ [(ls.perform call).1]) (ls.perform call).2 := by
  cases call with
  | on kind =>
    exact ⟨rfl, fun member => Nat.lt_irrefl _ (keeps.given _ member), keeps.on kind⟩
  | off listener =>
    refine ⟨rfl, keeps.isSome_off? listener, ?_⟩
    cases found : ls.off? listener with
    | none =>
      simp only [Listeners.perform, found, Option.isSome_none, Option.getD_none]
      exact keeps.still rfl rfl
    | some later =>
      simp only [Listeners.perform, found, Option.isSome_some, Option.getD_some]
      exact keeps.off found
  | emit event =>
    have called : ls.deliver [event] = (live past event.kind).map (·, event) := by
      rw [deliver_one, keeps.of]
    have listeners : (ls.deliver [event]).map (·.1) = live past event.kind := by
      rw [called, List.map_map]
      exact List.map_id _
    refine ⟨rfl, ⟨called, ?_⟩, keeps.still rfl rfl⟩
    rw [listeners]
    exact keeps.distinct.sublist (live_sublist past event.kind)

end Step

/-- The answers that a register gives to calls, one after the other. -/
structure Faithful (calls : List (Call α)) (log : List (Entry α)) : Prop where
  complete : log.map Entry.call = calls
  distinct : (handles log).Nodup
  due : ∀ past entry rest, log = past ++ entry :: rest → entry.Due past

theorem Keeps.run {past : List (Entry α)} {ls : Listeners} (keeps : Keeps past ls)
    (calls : List (Call α)) :
    (ls.run calls).map Entry.call = calls ∧ (handles (past ++ ls.run calls)).Nodup ∧
      ∀ before entry rest, ls.run calls = before ++ entry :: rest →
        entry.Due (past ++ before) := by
  induction calls generalizing past ls with
  | nil =>
    refine ⟨rfl, ?_, ?_⟩
    · rw [Listeners.run, List.append_nil]
      exact keeps.distinct
    · intro before entry rest split
      simp [Listeners.run] at split
  | cons call calls ih =>
    obtain ⟨same, due, later⟩ := keeps.perform call
    obtain ⟨complete, distinct, others⟩ := ih later
    rw [Listeners.run]
    refine ⟨by rw [List.map_cons, same, complete], by simpa using distinct, ?_⟩
    intro before entry rest split
    cases before with
    | nil =>
      obtain ⟨rfl, -⟩ := List.cons.inj split
      simpa using due
    | cons first before =>
      obtain ⟨rfl, remaining⟩ := List.cons.inj split
      simpa using others before entry rest remaining

/-- A register with a list of its own for each kind of events. -/
structure Rows where
  next : Nat := 0
  row : EventKind → List Nat := fun _ => []

namespace Rows

def on (rows : Rows) (kind : EventKind) : Rows :=
  ⟨rows.next + 1, Function.update rows.row kind (rows.row kind ++ [rows.next])⟩

/-- The lists are searched one kind after the other. The first one with the listener loses it, at
the first place where it stands. -/
def off? (rows : Rows) (listener : Nat) : Option Rows :=
  (EventKind.all.find? fun kind => (rows.row kind).contains listener).map fun kind =>
    { rows with row := Function.update rows.row kind ((rows.row kind).erase listener) }

def perform (rows : Rows) : Call α → Entry α × Rows
  | .on kind => (.on kind rows.next, rows.on kind)
  | .off listener => (.off listener (rows.off? listener).isSome, (rows.off? listener).getD rows)
  | .emit event => (.emit event ((rows.row event.kind).map (·, event)), rows)

def run (rows : Rows) : List (Call α) → List (Entry α)
  | [] => []
  | call :: calls => (rows.perform call).1 :: run (rows.perform call).2 calls

end Rows

/-- The lists of a register, taken apart by kind. -/
def rows (ls : Listeners) : Rows := ⟨ls.next, ls.of⟩

section Apart
variable {past : List (Entry α)} {ls : Listeners}

theorem rows_on (ls : Listeners) (kind : EventKind) : (ls.on kind).rows = ls.rows.on kind := by
  refine congrArg (Rows.mk (ls.next + 1)) ?_
  funext other
  rw [of_on, rows, Function.update_apply]
  by_cases same : other = kind
  · rw [if_pos same, if_pos same.symm, same]
  · rw [if_neg same, if_neg (Ne.symm same), List.append_nil]

/-- A handle was given out for one kind only, so it does not matter which list is searched first. -/
theorem Keeps.kind_unique (keeps : Keeps past ls) {listener : Nat} {a b : EventKind}
    (left : listener ∈ ls.of a) (right : listener ∈ ls.of b) : a = b := by
  have given : ∀ {kind}, listener ∈ ls.of kind → (listener, kind) ∈ registered past := by
    intro kind member
    rw [keeps.of, live, List.mem_filter, List.mem_map] at member
    obtain ⟨⟨⟨_, _⟩, present, rfl⟩, -⟩ := member
    obtain ⟨entry, own⟩ := List.mem_filter.mp present
    obtain rfl := beq_iff_eq.mp own
    exact entry
  exact congrArg Prod.snd (List.inj_on_of_nodup_map keeps.distinct (given left) (given right) rfl)

theorem Keeps.rows_off? (keeps : Keeps past ls) (listener : Nat) :
    (ls.off? listener).map rows = ls.rows.off? listener := by
  cases found : ls.off? listener with
  | none =>
    have absent : EventKind.all.find? (fun kind => (ls.of kind).contains listener) = none := by
      refine List.find?_eq_none.mpr ?_
      intro kind _ member
      have some := Listeners.isSome_off?.mpr ⟨kind, List.contains_iff_mem.mp member⟩
      rw [found] at some
      cases some
    rw [Rows.off?, rows, absent]
    rfl
  | some later =>
    obtain ⟨kind, member⟩ := Listeners.isSome_off?.mp (Option.isSome_of_eq_some found)
    have first : EventKind.all.find? (fun kind => (ls.of kind).contains listener) = some kind := by
      cases first : EventKind.all.find? (fun kind => (ls.of kind).contains listener) with
      | none =>
        exact absurd (List.contains_iff_mem.mpr member)
          (List.find?_eq_none.mp first kind (EventKind.mem_all kind))
      | some other =>
        have holds := List.find?_some first
        rw [keeps.kind_unique (List.contains_iff_mem.mp holds) member]
    have once : (ls.of kind).Nodup :=
      keeps.of kind ▸ keeps.distinct.sublist (live_sublist past kind)
    rw [Rows.off?, rows, first, Option.map_some, Option.map_some, rows, next_off? found]
    refine congrArg (fun row => some (Rows.mk ls.next row)) ?_
    funext other
    rw [of_off? found, Function.update_apply]
    by_cases same : other = kind
    · rw [if_pos same, same, once.erase_eq_filter]
    · rw [if_neg same]
      refine List.filter_eq_self.mpr ?_
      intro one present
      refine bne_iff_ne.mpr ?_
      rintro rfl
      exact same (keeps.kind_unique present member)

theorem Keeps.perform_rows (keeps : Keeps past ls) (call : Call α) :
    ls.rows.perform call = ((ls.perform call).1, (ls.perform call).2.rows) := by
  cases call with
  | on kind =>
    rw [Rows.perform, ← rows_on]
    rfl
  | off listener =>
    rw [Rows.perform, ← keeps.rows_off?, Listeners.perform]
    cases ls.off? listener <;> rfl
  | emit event =>
    rw [Rows.perform, Listeners.perform, deliver_one]
    rfl

theorem Keeps.run_rows (keeps : Keeps past ls) (calls : List (Call α)) :
    ls.rows.run calls = ls.run calls := by
  induction calls generalizing past ls with
  | nil => rfl
  | cons call calls ih =>
    rw [Rows.run, Listeners.run, keeps.perform_rows]
    exact congrArg _ (ih (keeps.perform call).2.2)

end Apart

/-- Handles are never given out twice, a handle can be removed exactly while it is live, and an
event reaches the live listeners of its kind, once each and in the order of registration. All this
holds whether the listeners of all kinds stand in one list or in a list for each kind. -/
theorem run_faithful (calls : List (Call α)) :
    Faithful calls (run {} calls) ∧ Rows.run {} calls = run {} calls := by
  have empty : Keeps ([] : List (Entry α)) {} :=
    ⟨fun _ => rfl, by simp [handles, registered], by simp [removed], List.nodup_nil⟩
  obtain ⟨complete, distinct, due⟩ := empty.run calls
  exact ⟨⟨complete, distinct, due⟩, empty.run_rows calls⟩

example : run {} [.on .zoomChanged, .on .zoomChanged, .on .dataChanged, .on .zoomChanged, .off 1,
    .off 1, .emit (.zoomChanged 2)] =
      ([.on .zoomChanged 0, .on .zoomChanged 1, .on .dataChanged 2, .on .zoomChanged 3, .off 1 true,
        .off 1 false, .emit (.zoomChanged 2) [(0, .zoomChanged 2), (3, .zoomChanged 2)]] :
          List (Entry Nat)) := rfl

end Flowchart.Listeners
