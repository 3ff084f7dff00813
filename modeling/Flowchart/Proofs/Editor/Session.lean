import Flowchart.Proofs.Editor.Recovery
import Flowchart.Proofs.Editor.Wording
/-! The label that is open for typing. It stays that of a block that has it, until the block is taken
out, which leaves the label open without a block. -/
namespace Flowchart

variable {α : Type}

/-- Of distinct blocks, none is left with the number of the one that is taken out. -/
theorem Diagram.Distinct.lookup_eraseP {d : Diagram α} (distinct : d.Distinct) (id : Nat) :
    (d.words.eraseP (·.1 == id)).lookup id = none := by
  have once : (d.words.map (·.1)).Nodup := by
    rw [words, List.map_map]
    exact distinct
  generalize d.words = words at once
  induction words with
  | nil => rfl
  | cons w words ih =>
      obtain ⟨absent, rest⟩ := List.nodup_cons.mp once
      by_cases named : w.1 = id
      · rw [List.eraseP_cons_of_pos (by simpa using named), List.lookup_eq_none_iff]
        intro v member
        have other : v.1 ≠ id := by
          rintro rfl
          have there : w.1 ∈ words.map (·.1) := named ▸ List.mem_map_of_mem member
          exact absent there
        simpa using Ne.symm other
      · have passed : (id == w.1) = false := by simpa using Ne.symm named
        rw [List.eraseP_cons_of_neg (by simpa using named), List.lookup_cons, passed]
        exact ih rest

namespace Editor

/-- The label that is open is that of a block that can be relabelled, and is as the block has it. -/
def Live (e : Editor α) : Prop :=
  ∀ edit, e.textEdit = some edit →
    ∃ n, e.data.node? edit.node = some n ∧ n.kind.hasEditableText = true ∧ n.text = edit.before

theorem live_iff {e : Editor α} : e.Live ↔ ∀ edit, e.textEdit = some edit →
    ∃ b, e.data.words.lookup edit.node = some b ∧ b.kind.hasEditableText = true ∧
      b.text = edit.before := by
  simp only [Live, Diagram.lookup_words, Option.map_eq_some_iff]
  constructor
  · intro live edit opened
    obtain ⟨n, found, shown⟩ := live edit opened
    exact ⟨n.toBlock, ⟨n, found, rfl⟩, shown⟩
  · intro live edit opened
    obtain ⟨_, ⟨n, found, rfl⟩, shown⟩ := live edit opened
    exact ⟨n, found, shown⟩

theorem live_of_closed {e : Editor α} (closed : e.textEdit = none) : e.Live := by
  intro edit opened
  exact absurd (closed.symm.trans opened) nofun

theorem Keeps.live {e after : Editor α} (keeps : Keeps e after) (live : e.Live) : after.Live := by
  rw [live_iff, keeps.words, keeps.typing]
  exact live_iff.mp live

/-- The operation would take out the block whose label is open. -/
def Cuts (e : Editor α) (operation : Operation α) : Prop :=
  ∃ edit, e.textEdit = some edit ∧ operation.taken? e = some edit.node

section Text

theorem live_typeText {e : Editor α} (live : e.Live) (buffer : String) :
    (e.typeText buffer).Live := by
  intro edit typed
  obtain ⟨before, opened, rfl⟩ := Option.map_eq_some_iff.mp typed
  exact live before opened

theorem closed_commitText [Scalar α] (e : Editor α) : e.commitText.editor.textEdit = none := by
  unfold commitText
  split
  · assumption
  · simp only
    split
    · rfl
    · split <;> rfl

theorem live_openText {e : Editor α} (live : e.Live) (id : Nat) : (e.openText id).editor.Live := by
  unfold openText
  split
  · exact live
  · next n found =>
    split
    · next editable =>
      intro edit opened
      cases opened
      exact ⟨n, found, editable, rfl⟩
    · exact live

/-- Whatever was open before, it is committed first. -/
theorem live_beginText [Scalar α] (e : Editor α) (id : Nat) : (e.beginText id).editor.Live :=
  live_openText (live_of_closed (closed_commitText e)) id

end Text

section Run
variable [Metric α] {e first now : Editor α} {operation : Operation α} {o : Outcome α Unit}

theorem Writes.live (writes : Writes e operation o) (live : e.Live)
    (spared : ¬ e.Cuts operation) : o.editor.Live := by
  cases writes with
  | keep keeps => exact keeps.live live
  | type made => exact made ▸ live_typeText live _
  | cancel made => exact made ▸ live_of_closed rfl
  | commit made => exact made ▸ live_of_closed (closed_commitText e)
  | start made => exact made ▸ live_beginText e _
  | replace _ closed => exact live_of_closed closed
  | @take id asked words typing =>
      rw [live_iff, words, typing]
      intro edit opened
      have different : edit.node ≠ id := fun same => spared ⟨edit, opened, same ▸ asked⟩
      rw [Diagram.lookup_eraseP different]
      exact live_iff.mp live edit opened

theorem perform_taken {id : Nat} (taken : operation.taken? e = some id)
    (performed : operation.perform e = .ok o) : o = (e.deleteNode id).unit := by
  cases operation with
  | deleteNode other =>
      obtain rfl := Option.some.inj taken
      exact (Except.ok.inj performed).symm
  | deleteSelection =>
      rw [← Except.ok.inj performed, deleteSelection]
      simp only [Operation.taken?] at taken
      split at taken
      · next other selected =>
        obtain rfl := Option.some.inj taken
        simp only [selected]
      · cases taken
  | _ => cases taken

theorem Cuts.not_live (cuts : e.Cuts operation) (distinct : e.data.Distinct)
    (performed : operation.perform e = .ok o) : ¬ o.editor.Live := by
  obtain ⟨edit, opened, taken⟩ := cuts
  obtain rfl := perform_taken taken performed
  intro live
  have still : (e.deleteNode edit.node).unit.editor.textEdit = some edit :=
    (typing_deleteNode e _).trans opened
  obtain ⟨b, found, -⟩ := live_iff.mp live edit still
  have gone : (e.deleteNode edit.node).unit.editor.data.words.lookup edit.node = none := by
    refine Eq.trans ?_ (distinct.lookup_eraseP edit.node)
    exact congrArg (List.lookup edit.node) (words_deleteNode e edit.node)
  exact absurd (gone.symm.trans found) nofun

end Run

/-- As long as no block is taken out whose label is open, an open label stays that of a block that
has it. Whatever is done next keeps it so, unless just this block is taken out. -/
theorem run_live [Metric α] {first now : Editor α} (new : New first)
    (run : Run (fun e operation _ => ¬ e.Cuts operation) first now) :
    now.Live ∧ (now.data.Distinct → ∀ operation o, operation.perform now = .ok o →
      (o.editor.Live ↔ ¬ now.Cuts operation)) := by
  have live : now.Live := by
    induction run with
    | start => exact live_of_closed new.textEdit
    | step _ spared performed ih => exact (writes_of_perform performed).live ih spared
  refine ⟨live, ?_⟩
  intro distinct operation o performed
  constructor
  · exact fun kept cuts => cuts.not_live distinct performed kept
  · exact (writes_of_perform performed).live live

/-- A label is typed while the block beside it is taken out. -/
theorem run_live_typed :
    New (ofViewport .standard : Editor Float) ∧
      ∃ now, Run (fun (e : Editor Float) operation _ => ¬ e.Cuts operation)
          (ofViewport .standard) now ∧
        now.textEdit = some ⟨0, "Ask", "Again"⟩ ∧ now.Live ∧ now.data.Distinct ∧
        now.Cuts (.deleteNode 0) ∧ ¬ (now.deleteNode 0).editor.Live := by
  obtain ⟨o, loaded, opened, distinct⟩ := @exists_of_decide _ _
    ((ofViewport .standard : Editor Float).loadSource "p[Ask]\np[Do]\n...\np[Ask]\na>\np[Do]")
    (fun o =>
      let typed := (o.editor.beginText 0).editor.typeText "Again"
      typed.textEdit = some ⟨0, "Ask", "Again"⟩ ∧
        ((typed.deleteNode 1).editor.data.nodes.map (·.id)).Nodup)
    _ (by decide +kernel)
  have new : New (ofViewport .standard : Editor Float) := new_ofViewport _
  let typed := (o.editor.beginText 0).editor.typeText "Again"
  have shown : Run (fun (e : Editor Float) operation _ => ¬ e.Cuts operation)
      (ofViewport .standard) o.editor :=
    run_loadSource loaded (by rintro ⟨_, _, ⟨⟩⟩)
  have filled : Run (fun (e : Editor Float) operation _ => ¬ e.Cuts operation)
      (ofViewport .standard) typed :=
    shown.typed (by rintro ⟨_, _, ⟨⟩⟩) (by rintro ⟨_, _, ⟨⟩⟩)
  have spared : ¬ typed.Cuts (.deleteNode 1) := by
    rintro ⟨edit, same, taken⟩
    obtain rfl := Option.some.inj (opened.symm.trans same)
    cases taken
  have run : Run (fun (e : Editor Float) operation _ => ¬ e.Cuts operation)
      (ofViewport .standard) (typed.deleteNode 1).editor :=
    @Run.step Float _ _ _ _ (.deleteNode 1) (typed.deleteNode 1).unit filled spared rfl
  have still : (typed.deleteNode 1).editor.textEdit = some ⟨0, "Ask", "Again"⟩ :=
    (typing_deleteNode typed 1).trans opened
  obtain ⟨live, exactly⟩ := run_live new run
  have cuts : (typed.deleteNode 1).editor.Cuts (.deleteNode 0) := ⟨_, still, rfl⟩
  have dead := (exactly distinct (.deleteNode 0) _ rfl).not.mpr (not_not_intro cuts)
  exact ⟨new, _, run, still, live, distinct, cuts, dead⟩

/-- The block is taken out whose label is open. -/
theorem run_not_live_deletion :
    ∃ o, (ofViewport .standard : Editor Float).loadSource "p[Ask]" = .ok o ∧
      ∃ now, Run (fun _ _ _ => True) o.editor now ∧
        now.textEdit = some ⟨0, "Ask", "Ask"⟩ ∧ now.data.node? 0 = none ∧ ¬ now.Live := by
  obtain ⟨o, loaded, opened, gone⟩ := @exists_of_decide _ _
    ((ofViewport .standard : Editor Float).loadSource "p[Ask]")
    (fun o =>
      let now := ((o.editor.beginText 0).editor.deleteNode 0).editor
      now.textEdit = some ⟨0, "Ask", "Ask"⟩ ∧ (now.data.node? 0).isNone = true)
    _ (by decide +kernel)
  have begun : Run (fun _ _ _ => True) o.editor (o.editor.beginText 0).editor :=
    @Run.step Float _ _ _ _ (.beginText 0) (o.editor.beginText 0).unit .start trivial rfl
  have absent := Option.isNone_iff_eq_none.mp gone
  refine ⟨o, loaded, _, @Run.step Float _ _ _ _ (.deleteNode 0)
    ((o.editor.beginText 0).editor.deleteNode 0).unit begun trivial rfl, opened, absent, ?_⟩
  intro live
  obtain ⟨n, found, -⟩ := live _ opened
  exact absurd (absent.symm.trans found) nofun

end Editor
end Flowchart
