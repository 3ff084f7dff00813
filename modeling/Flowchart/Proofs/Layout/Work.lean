import Flowchart.Proofs.Layout.Demotion
/-! How much work it takes to find levels. A search expands no place twice. A pass that changes
something raises a level, and no level passes the number of places, so a round has few passes. Each
round but the last takes a forward connection away, so there are no more restarts than these. -/
namespace Flowchart.Layout

variable {n : Nat}

section Search

/-- A search that ends, with the places that it expands in order. Like the search itself it has a
case for each way to treat the top of the stack. -/
inductive Explores (ls : List (Link n)) (goal : Fin n) :
    (seen stack expanded : List (Fin n)) → (found : Bool) → Prop
  | exhausted {seen} : Explores ls goal seen [] [] false
  | reached {seen stack} : Explores ls goal seen (goal :: stack) [] true
  | skip {seen stack expanded found i} : i ≠ goal → i ∈ seen →
      Explores ls goal seen stack expanded found → Explores ls goal seen (i :: stack) expanded found
  | expand {seen stack expanded found i} : i ≠ goal → i ∉ seen →
      Explores ls goal (i :: seen) ((successors ls i).reverse ++ stack) expanded found →
      Explores ls goal seen (i :: stack) (i :: expanded) found

variable {ls : List (Link n)} {goal : Fin n} {seen stack expanded : List (Fin n)} {found : Bool}

theorem Explores.search_eq (explores : Explores ls goal seen stack expanded found) :
    search n ls goal seen stack = .ok found := by
  induction explores with
  | exhausted => rw [search]
  | reached => rw [search, if_pos rfl]
  | @skip _ _ _ _ i other member _ ih =>
    rw [search, if_neg other, if_neg (Nat.not_le.mpr i.isLt), dif_pos member, ih]
  | @expand _ _ _ _ i other fresh _ ih =>
    rw [search, if_neg other, if_neg (Nat.not_le.mpr i.isLt), dif_neg fresh, ih]

theorem exists_explores (ls : List (Link n)) (goal : Fin n) (seen stack : List (Fin n)) :
    ∃ expanded found, Explores ls goal seen stack expanded found := by
  induction seen, stack using search.induct n ls goal with
  | case1 seen => exact ⟨[], false, .exhausted⟩
  | case2 seen stack => exact ⟨[], true, .reached⟩
  | case3 seen i stack other outside => exact absurd i.isLt (Nat.not_lt.mpr outside)
  | case4 seen i stack other inside member ih =>
    obtain ⟨expanded, found, explores⟩ := ih
    exact ⟨expanded, found, .skip other member explores⟩
  | case5 seen i stack other inside fresh ih =>
    obtain ⟨expanded, found, explores⟩ := ih
    exact ⟨i :: expanded, found, .expand other fresh explores⟩

/-- What has been expanded is on the list of seen places, and these are passed over. -/
theorem Explores.fresh (explores : Explores ls goal seen stack expanded found) :
    expanded.Nodup ∧ ∀ i ∈ expanded, i ∉ seen := by
  induction explores with
  | exhausted => exact ⟨List.nodup_nil, by simp⟩
  | reached => exact ⟨List.nodup_nil, by simp⟩
  | skip _ _ _ ih => exact ih
  | @expand seen _ _ _ i _ fresh _ ih =>
    obtain ⟨once, others⟩ := ih
    refine ⟨List.nodup_cons.mpr ⟨fun again => others i again List.mem_cons_self, once⟩, ?_⟩
    intro j member
    rcases List.mem_cons.mp member with rfl | later
    · exact fresh
    · exact fun earlier => others j later (List.mem_cons_of_mem _ earlier)

end Search

section Pass
variable {size : Nat} {all ls : List (Link n)} {levels after : Vector Nat n} {changed later : Bool}

/-- No level falls, and some level rises. -/
structure Raises (levels after : Vector Nat n) : Prop where
  mono : ∀ i : Fin n, levels.get i ≤ after.get i
  some : ∃ i : Fin n, levels.get i < after.get i

theorem Raises.trans_le {middle : Vector Nat n} (raises : Raises levels middle)
    (mono : ∀ i : Fin n, middle.get i ≤ after.get i) : Raises levels after where
  mono i := (raises.mono i).trans (mono i)
  some := by
    obtain ⟨i, higher⟩ := raises.some
    exact ⟨i, higher.trans_le (mono i)⟩

theorem raises_set {target : Fin n} {value : Nat} (above : levels.get target < value) :
    Raises levels (levels.set target value target.isLt) := by
  have self : (levels.set target value target.isLt).get target = value :=
    Vector.getElem_set_self target.isLt
  refine ⟨?_, target, above.trans_eq self.symm⟩
  intro i
  by_cases same : i = target
  · subst same
    exact above.le.trans_eq self.symm
  · have other : target.val ≠ i.val := fun equal => same (Fin.ext equal.symm)
    have level : (levels.set target value target.isLt).get i = levels.get i :=
      Vector.getElem_set_ne target.isLt i.isLt other
    exact level.ge

/-- A pass says that it has changed something exactly when it has raised a level, or when it was told
so at its start. -/
theorem sweep_raises (swept : sweep size all ls levels changed = .ok (.levels after later)) :
    (later = changed ∧ after = levels) ∨ later = true ∧ Raises levels after := by
  induction ls generalizing levels changed with
  | nil =>
    simp only [sweep, Except.ok.injEq, Sweep.levels.injEq] at swept
    exact .inl ⟨swept.2.symm, swept.1.symm⟩
  | cons l ls ih =>
    unfold sweep at swept
    simp only at swept
    split at swept
    · exact ih swept
    · split at swept
      · split at swept
        · simp at swept
        · exact ih swept
        · simp at swept
      · next higher inside =>
        have raises : Raises levels (levels.set l.target (levels[l.source] + 1)) :=
          raises_set (Nat.not_le.mp higher)
        rcases ih swept with ⟨told, rfl⟩ | ⟨told, more⟩
        · exact .inr ⟨told, raises⟩
        · exact .inr ⟨told, raises.trans_le more.mono⟩

/-- The rest of a pass goes on from the levels that its first links lead to. -/
theorem sweep_append (size : Nat) (all done todo : List (Link n)) (levels : Vector Nat n)
    (changed : Bool) :
    sweep size all (done ++ todo) levels changed =
      match sweep size all done levels changed with
      | .ok (.levels middle later) => sweep size all todo middle later
      | .ok (.cycle l) => .ok (.cycle l)
      | .error fault => .error fault := by
  induction done generalizing levels changed with
  | nil => rfl
  | cons l done ih =>
    rw [List.cons_append, sweep, sweep]
    split
    · exact ih levels changed
    · split
      · split <;> first | exact ih levels changed | rfl
      · exact ih _ true

theorem Attained.sweep (attained : Attained all levels) (sub : ls ⊆ all)
    (swept : sweep n all ls levels changed = .ok (.levels after later)) : Attained all after := by
  obtain ⟨result, same, ended⟩ := sweep_ends sub attained changed
  obtain rfl := Except.ok.inj (swept.symm.trans same)
  cases ended with
  | raised higher => exact higher
  | quiet _ => exact attained

/-- Wherever a pass is cut in two, it has ended at a cycle in its first part, or it goes on from
levels that have not passed the number of places. -/
def Capped (ls : List (Link n)) (levels : Vector Nat n) : Prop :=
  ∀ done todo, ls = done ++ todo →
    (∃ l ∈ done, sweep n ls ls levels false = .ok (.cycle l)) ∨
      ∃ middle changed, sweep n ls done levels false = .ok (.levels middle changed) ∧
        sweep n ls ls levels false = sweep n ls todo middle changed ∧
        ∀ i : Fin n, middle.get i ≤ n

theorem Attained.capped (attained : Attained ls levels) : Capped ls levels := by
  intro done todo split
  have sub : done ⊆ ls := fun l member => split ▸ List.mem_append_left todo member
  have whole := sweep_append n ls done todo levels false
  rw [← split] at whole
  obtain ⟨result, swept, ended⟩ := sweep_ends sub attained false
  rw [swept] at whole
  cases result with
  | levels middle changed =>
    exact .inr ⟨middle, changed, swept, whole, fun i => (attained.sweep sub swept i).1⟩
  | cycle l => exact .inl ⟨l, mem_of_sweep_cycle swept, whole⟩

end Pass

section Round

/-- The passes of a round, by the levels after each one that changes something. The last pass
changes nothing or finds a cycle. -/
inductive Passes (ls : List (Link n)) :
    (levels : Vector Nat n) → (passes : List (Vector Nat n)) → (result : Sweep n) → Prop
  | last {levels result} : sweep n ls ls levels false = .ok result →
      (∀ after, result ≠ .levels after true) → Passes ls levels [] result
  | again {levels after passes result} : sweep n ls ls levels false = .ok (.levels after true) →
      Passes ls after passes result → Passes ls levels (after :: passes) result

variable {ls : List (Link n)} {levels : Vector Nat n} {passes : List (Vector Nat n)}
  {result : Sweep n}

theorem passes_of_settle (settled : settle n ls levels = .ok result) :
    ∃ passes, Passes ls levels passes result := by
  induction levels using settle.induct n ls with
  | case1 levels after swept ih =>
    rw [settle, swept] at settled
    obtain ⟨passes, rest⟩ := ih settled
    exact ⟨after :: passes, .again swept rest⟩
  | case2 levels after swept =>
    rw [settle, swept] at settled
    exact ⟨[], .last (swept.trans settled) (by cases settled; simp)⟩
  | case3 levels l swept =>
    rw [settle, swept] at settled
    exact ⟨[], .last (swept.trans settled) (by cases settled; simp)⟩
  | case4 levels fault swept =>
    rw [settle, swept] at settled
    cases settled

theorem Passes.ne_changed (run : Passes ls levels passes result) (after : Vector Nat n) :
    result ≠ .levels after true := by
  induction run with
  | last _ still => exact still after
  | again _ _ ih => exact ih

theorem Passes.raises (run : Passes ls levels passes result) :
    (levels :: passes).IsChain Raises := by
  induction run with
  | last _ _ => exact List.isChain_singleton _
  | again swept _ ih =>
    have raised := (sweep_raises swept).resolve_left fun same => absurd same.1 (by simp)
    exact List.isChain_cons_cons.mpr ⟨raised.2, ih⟩

theorem Passes.length_le (run : Passes ls levels passes result) :
    passes.length ≤ headroom levels := by
  induction run with
  | last _ _ => exact Nat.zero_le _
  | again swept _ ih =>
    have less := ((headroom_sweep swept).2 rfl).resolve_left (by simp)
    rw [List.length_cons]
    omega

theorem Passes.capped (run : Passes ls levels passes result) (attained : Attained ls levels) :
    ∀ before ∈ levels :: passes, Capped ls before := by
  induction run with
  | last _ _ => exact List.forall_mem_singleton.mpr attained.capped
  | again swept _ ih =>
    exact List.forall_mem_cons.mpr
      ⟨attained.capped, ih (attained.sweep (List.Subset.refl _) swept)⟩

theorem headroom_zero (n : Nat) : headroom (Vector.replicate n 0) = n * n := by
  have sum : ∀ k, (List.replicate k 0).foldr (fun level total => n - level + total) 0 = k * n := by
    intro k
    induction k with
    | zero => simp
    | succ k ih => rw [List.replicate_succ, List.foldr_cons, ih, Nat.succ_mul, Nat.sub_zero,
        Nat.add_comm]
  rw [headroom, Vector.toList_replicate, sum]

/-- The work of a round that ends with the given result. -/
structure Round (ls : List (Link n)) (result : Sweep n) : Prop where
  settled : settle n ls (Vector.replicate n 0) = .ok result
  passes : ∃ passes, Passes ls (Vector.replicate n 0) passes result ∧
    (Vector.replicate n 0 :: passes).IsChain Raises ∧ passes.length ≤ n * n ∧
    ∀ before ∈ Vector.replicate n 0 :: passes, Capped ls before
  searches : ∀ l ∈ ls, ∃ expanded found, Explores ls l.source [] [l.target] expanded found ∧
    closesCycle n ls l = .ok found ∧ expanded.Nodup ∧ expanded.length ≤ n

theorem round_of_settle (settled : settle n ls (Vector.replicate n 0) = .ok result) :
    Round ls result := by
  obtain ⟨passes, run⟩ := passes_of_settle settled
  refine ⟨settled, ⟨passes, run, run.raises, headroom_zero n ▸ run.length_le,
    run.capped (.zero ls)⟩, ?_⟩
  intro l _
  obtain ⟨expanded, found, explores⟩ := exists_explores ls l.source [] [l.target]
  have once := explores.fresh.1
  have few := once.length_le_card
  rw [Fintype.card_fin] at few
  exact ⟨expanded, found, explores, explores.search_eq, once, few⟩

end Round

section Rounds
variable {ls left : List (Link n)} {values : Vector Nat n} {demoted : List Nat}

theorem resolve_cases (resolved : resolve n ls = .ok (values, demoted)) :
    (demoted = [] ∧ settle n ls (Vector.replicate n 0) = .ok (.levels values false)) ∨
      ∃ l rest, demoted = l.edge :: rest ∧
        settle n ls (Vector.replicate n 0) = .ok (.cycle l) ∧
        resolve n (withoutEdge l.edge ls) = .ok (values, rest) := by
  rw [resolve] at resolved
  split at resolved
  · next after changed settled =>
    obtain ⟨rfl, rfl⟩ := Prod.mk.inj (Except.ok.inj resolved)
    obtain ⟨passes, run⟩ := passes_of_settle settled
    cases changed with
    | false => exact .inl ⟨rfl, settled⟩
    | true => exact absurd rfl (run.ne_changed after)
  · next l settled =>
    split at resolved
    · next rest later =>
      obtain ⟨rfl, rfl⟩ := Prod.mk.inj (Except.ok.inj resolved)
      exact .inr ⟨l, _, rfl, settled, later⟩
    · cases resolved
  · cases resolved

/-- The links of a round are those that the rounds before it have left. -/
theorem resolve_restarts (resolved : resolve n ls = .ok (values, demoted)) :
    (∀ before i after, demoted = before ++ i :: after →
      ∃ l ∈ ls.filter (fun l => !before.contains l.edge), l.edge = i ∧
        Round (ls.filter fun l => !before.contains l.edge) (.cycle l)) ∧
      Round (ls.filter fun l => !demoted.contains l.edge) (.levels values false) := by
  have all : ∀ ls : List (Link n), (ls.filter fun l => !([] : List Nat).contains l.edge) = ls := by
    simp
  induction demoted generalizing ls with
  | nil =>
    rcases resolve_cases resolved with ⟨-, settled⟩ | ⟨l, rest, more, -⟩
    · refine ⟨by simp, ?_⟩
      rw [all]
      exact round_of_settle settled
    · cases more
  | cons first demoted ih =>
    rcases resolve_cases resolved with ⟨none, -⟩ | ⟨l, rest, more, found, later⟩
    · cases none
    · obtain ⟨rfl, rfl⟩ := List.cons.inj more
      obtain ⟨restarts, last⟩ := ih later
      constructor
      · intro before i after split
        cases before with
        | nil =>
          obtain ⟨rfl, -⟩ := List.cons.inj split
          rw [all]
          exact ⟨l, mem_of_settle_cycle found, rfl, round_of_settle found⟩
        | cons edge before =>
          obtain ⟨rfl, remaining⟩ := List.cons.inj split
          rw [filter_cons_contains]
          exact restarts before i after remaining
      · rw [filter_cons_contains]
        exact last

theorem Demotes.length_le (run : Demotes ls demoted left) : demoted.length ≤ ls.length := by
  induction run with
  | done _ => exact Nat.zero_le _
  | demote member _ _ ih =>
    have shorter := length_withoutEdge_lt member
    rw [List.length_cons]
    omega

end Rounds

theorem length_links_le (ids : List Nat) (edges : List Edge) :
    (links ids edges).length ≤ edges.countP fun e => !e.back := by
  have forward : edges.countP (fun e => !e.back) = edges.zipIdx.countP fun p => !p.1.back := by
    conv_lhs => rw [← List.zipIdx_map_fst 0 edges, List.countP_map]
    rfl
  rw [links, List.length_filterMap_eq_countP, forward]
  refine List.countP_mono_left ?_
  rintro ⟨e, i⟩ _ some
  cases back : e.back with
  | true => simp [back] at some
  | false => rfl

/-- The work that leads to levels. The round before each demotion runs on the connections that are
forward then and ends at the one that is demoted; the last round ends with the levels. -/
structure Work (ids : List Nat) (edges : List Edge) (levels : Levels) : Prop where
  restart : ∀ before i after, levels.demoted = before ++ i :: after →
    ∃ l ∈ links ids (Levels.mark { demoted := before } edges), l.edge = i ∧
      (∃ e, edges[i]? = some e ∧ e.back = false) ∧
      Round (links ids (Levels.mark { demoted := before } edges)) (.cycle l)
  last : ∃ values : Vector Nat ids.length, levels.entries = ids.zip values.toList ∧
    Round (links ids (levels.mark edges)) (.levels values false)
  nodup : levels.demoted.Nodup
  few : levels.demoted.length ≤ edges.countP fun e => !e.back

/-- The levels of distinct blocks are found in at most one round more than there are forward
connections. -/
theorem levelsOf_work {ids : List Nat} (distinct : ids.Nodup) (edges : List Edge) :
    ∃ levels, levelsOf ids edges = .ok levels ∧ Work ids edges levels := by
  obtain ⟨values, demoted, left, resolved, run, -⟩ := resolve_ends (links ids edges)
  obtain ⟨restarts, last⟩ := resolve_restarts resolved
  refine ⟨⟨ids.zip values.toList, demoted⟩, ?_, ?_⟩
  · rw [levelsOf, tableSize_of_nodup distinct, resolved]
  constructor
  case restart =>
    intro before i after split
    obtain ⟨l, member, same, round⟩ := restarts before i after split
    obtain ⟨e, present, forward, -⟩ := mem_links.mp (List.mem_of_mem_filter member)
    rw [Levels.links_mark]
    exact ⟨l, member, same, ⟨e, same ▸ present, forward⟩, round⟩
  case last =>
    refine ⟨values, rfl, ?_⟩
    rw [Levels.links_mark]
    exact last
  case nodup => exact run.nodup
  case few => exact run.length_le.trans (length_links_le ids edges)

/-- Two cycles that share a block, and a loop. -/
theorem levelsOf_work_two_cycles :
    [4, 0, 2].Nodup ∧ ∃ levels, levelsOf [4, 0, 2]
      [⟨4, 0, none, false⟩, ⟨0, 4, none, false⟩, ⟨0, 2, none, false⟩, ⟨2, 0, some "no", false⟩,
        ⟨2, 2, none, false⟩] = .ok levels ∧
      Work [4, 0, 2]
        [⟨4, 0, none, false⟩, ⟨0, 4, none, false⟩, ⟨0, 2, none, false⟩, ⟨2, 0, some "no", false⟩,
          ⟨2, 2, none, false⟩] levels :=
  ⟨by decide, levelsOf_work (by decide) _⟩

end Flowchart.Layout
