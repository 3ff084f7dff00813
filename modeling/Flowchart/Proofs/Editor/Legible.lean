import Flowchart.Proofs.Editor.Session
import Flowchart.Proofs.Script.Reload
/-! The notation beside the labels. The token of a block that can be relabelled declares the block with
its label. Relabelling keeps it so, unless the old label is nothing but blanks and quotes or the new
one is in quotes itself. -/
namespace Flowchart
open Script

variable {α : Type}

/-- If the block can be relabelled, its token declares its kind and its label. -/
def Block.Spelled (b : Block) : Prop :=
  b.kind.hasEditableText = true →
    ∃ c, readBlock? b.token.toList = some c ∧ c.kind = b.kind ∧ c.text = b.text

instance (b : Block) : Decidable b.Spelled :=
  decidable_of_iff (b.kind.hasEditableText = true →
      (readBlock? b.token.toList).any (fun c => decide (c.kind = b.kind ∧ c.text = b.text)) = true) <|
    by simp only [Block.Spelled, Option.any_eq_true, decide_eq_true_eq]

theorem Block.Spelled.relabel {b : Block} (spelled : b.Spelled) {text : String}
    (worded : Worded b.text.toList) (solid : Text.Solid text.toList)
    (unquoted : Unquoted text.toList) : (relabelled b text).Spelled := by
  intro editable
  obtain ⟨c, read, kind, label⟩ := spelled editable
  have likewise : c.kind.hasEditableText = true := kind ▸ editable
  rw [← label] at worded
  obtain ⟨before, behind, -, changed, made⟩ :=
    exists_relabelled read likewise worded solid unquoted
  refine ⟨{ c with text, token := (relabelled b text).token }, ?_, kind, rfl⟩
  rw [relabelled, String.toList_ofList, ← label, changed, made, String.ofList_toList]

/-- In a token without quotes, a new label must not be in quotes. -/
theorem Block.Spelled.relabel_iff {b : Block} (spelled : b.Spelled)
    (editable : b.kind.hasEditableText = true) {text : String} (worded : Worded b.text.toList)
    (solid : Text.Solid text.toList) (plain : Plain b.token.toList) :
    (relabelled b text).Spelled ↔ Unquoted text.toList := by
  refine ⟨?_, spelled.relabel worded solid⟩
  intro again
  obtain ⟨c, read, kind, label⟩ := spelled editable
  obtain ⟨changed, made, -, same⟩ := again editable
  rw [relabelled, String.toList_ofList, ← label] at made
  rw [← label] at worded
  refine (relabelled_read_iff read (kind ▸ editable) worded solid plain).mp ⟨changed, made, ?_⟩
  rw [String.ofList_toList]
  exact same

namespace Diagram

def Spelled (d : Diagram α) : Prop := ∀ n ∈ d.nodes, n.toBlock.Spelled

instance (d : Diagram α) : Decidable d.Spelled :=
  List.decidableBAll (fun n : Node α => n.toBlock.Spelled) d.nodes

theorem spelled_iff {d : Diagram α} : d.Spelled ↔ ∀ w ∈ d.words, w.2.Spelled := by
  rw [words, List.forall_mem_map]
  rfl

theorem Spelled.of_words {d after : Diagram α} (spelled : d.Spelled)
    (kept : ∀ w ∈ after.words, w ∈ d.words) : after.Spelled :=
  spelled_iff.mpr fun w member => spelled_iff.mp spelled w (kept w member)

theorem spelled_parse [Scalar α] (source : String) : ((parse source).diagram : Diagram α).Spelled :=
  fun n member _ => ⟨n.toBlock, (diagram_wellFormed source).blocks_read n member, rfl, rfl⟩

/-- Sizing and placing the blocks changes no word. -/
theorem words_layout [Scalar α] {config : Layout.Config α} {d : Diagram α}
    {a : Layout.Arrangement α}
    (laid : Layout.layout config (Scene.ofDiagram d).diagram = .ok a) :
    a.diagram.words = d.words := by
  rw [Layout.layout] at laid
  rw [words_arrange laid, words, Layout.measureAll, List.map_map, Scene.nodes_ofDiagram]
  exact List.map_congr_left fun n _ => Node.word_sizeNode config n

end Diagram

namespace Editor

section Commit
variable [Scalar α]

/-- The token of a block is changed with its label. -/
theorem toBlock_relabelled (config : Layout.Config α) (n : Node α) (text : String) :
    (Editor.relabelled config n (.of n.id n.text text n.token)).toBlock =
      Script.relabelled n.toBlock text := rfl

/-- Either the data stay, or one block is given the label that was typed. -/
inductive Commit (e : Editor α) (o : Outcome α (Option LabelEdit)) : Prop where
  | nothing (result : o.result = none) (shown : o.editor.data = e.data)
  | relabel {edit : TextEdit} {n : Node α} {text : String} (opened : e.textEdit = some edit)
      (found : e.data.node? edit.node = some n) (solid : Text.Solid text.toList)
      (result : o.result = some (.of n.id n.text text n.token))
      (shown : o.editor.data = e.data.updateNode edit.node fun m =>
        Editor.relabelled e.settings.layout m (.of n.id n.text text n.token))

theorem commit_commitText (e : Editor α) : Commit e e.commitText := by
  unfold commitText
  split
  · exact .nothing rfl rfl
  · next edit opened =>
    simp only
    split
    · exact .nothing rfl rfl
    · next changed =>
      split
      · exact .nothing rfl rfl
      · next n found =>
        have solid : Text.Solid (String.ofList (Text.trim edit.buffer.toList)).toList := by
          rw [String.toList_ofList]
          refine ⟨?_, Text.trim_trim _⟩
          rintro empty
          simp [empty] at changed
        exact .relabel opened found solid rfl rfl

/-- A label that is changed is told of. -/
theorem told_commitText {e : Editor α} {change : LabelEdit} :
    .nodeEdited change ∈ e.commitText.events ↔ e.commitText.result = some change := by
  unfold commitText
  split
  · simp
  · simp only
    split
    · simp
    · split
      · simp
      · simp [historyChanged, dataChanged, eq_comm]

variable {e : Editor α} {o : Outcome α (Option LabelEdit)}

theorem Commit.spelled (commit : Commit e o) (spelled : e.data.Spelled)
    (clear : ∀ change, o.result = some change →
      Worded change.oldText.toList ∧ Unquoted change.newText.toList) : o.editor.data.Spelled := by
  cases commit with
  | nothing _ shown => exact shown ▸ spelled
  | @relabel edit n text _ found solid result shown =>
      obtain ⟨worded, unquoted⟩ := clear _ result
      rw [shown, Diagram.updateNode_eq]
      intro m member
      rcases mem_changeFirst member with there | ⟨k, present, rfl⟩
      · exact spelled m there
      · obtain rfl := Option.some.inj (found.symm.trans present)
        rw [toBlock_relabelled]
        exact (spelled n (List.mem_of_find?_eq_some found)).relabel worded solid unquoted

theorem Commit.spelled_iff (commit : Commit e o) (spelled : e.data.Spelled) (live : e.Live)
    {change : LabelEdit} (result : o.result = some change) (worded : Worded change.oldText.toList)
    (plain : Plain change.oldToken.toList) :
    o.editor.data.Spelled ↔ Unquoted change.newText.toList := by
  constructor
  case mpr =>
    intro unquoted
    refine commit.spelled spelled ?_
    intro other same
    obtain rfl := Option.some.inj (result.symm.trans same)
    exact ⟨worded, unquoted⟩
  case mp =>
    intro after
    cases commit with
    | nothing none => exact absurd (none.symm.trans result) nofun
    | @relabel edit n text opened found solid made shown =>
        obtain rfl := Option.some.inj (made.symm.trans result)
        obtain ⟨m, present, editable, -⟩ := live edit opened
        obtain rfl := Option.some.inj (found.symm.trans present)
        have block := spelled n (List.mem_of_find?_eq_some found)
        rw [shown, Diagram.updateNode_eq] at after
        have again := after _ (changed_mem_changeFirst found)
        rw [toBlock_relabelled] at again
        exact (block.relabel_iff editable worded solid plain).mp again

end Commit

theorem data_openText (e : Editor α) (id : Nat) : (e.openText id).editor.data = e.data := by
  unfold openText
  split
  · rfl
  · split <;> rfl

/-- Data that are loaded are spelled, and a label that is changed is more than blanks and quotes and
is not put in quotes. -/
structure Clear (operation : Operation α) (o : Outcome α Unit) : Prop where
  loaded : ∀ d, operation = .load d → d.Spelled
  edited : ∀ change, Event.nodeEdited change ∈ o.events →
    Worded change.oldText.toList ∧ Unquoted change.newText.toList

/-- Where no edit is told of, only loading is to be watched. -/
theorem clear_of_unedited {operation : Operation α} {o : Outcome α Unit}
    (other : ∀ d, operation ≠ .load d)
    (unedited : o.events.any (·.kind == .nodeEdited) = false) : Clear operation o where
  loaded d asked := absurd asked (other d)
  edited change member := by
    have absent := List.any_eq_false.mp unedited _ member
    exact absurd rfl absent

theorem clear_commitText [Scalar α] {e : Editor α} {change : LabelEdit}
    (result : e.commitText.result = some change) (worded : Worded change.oldText.toList)
    (unquoted : Unquoted change.newText.toList) : Clear .commitText e.commitText.unit where
  loaded _ asked := nomatch asked
  edited other member := by
    obtain rfl := Option.some.inj (result.symm.trans (told_commitText.mp member))
    exact ⟨worded, unquoted⟩

section Run
variable [Metric α] {e first now : Editor α} {operation : Operation α} {o : Outcome α Unit}

theorem Writes.spelled (writes : Writes e operation o) (plain : operation.Plain)
    (spelled : e.data.Spelled) (clear : Clear operation o) : o.editor.data.Spelled := by
  have commit := commit_commitText e
  cases writes with
  | keep keeps => exact spelled.of_words fun w member => keeps.words ▸ member
  | type made => exact made ▸ spelled
  | cancel made => exact made ▸ spelled
  | commit made =>
      subst made
      exact commit.spelled spelled fun change result =>
        clear.edited change (told_commitText.mpr result)
  | @start id made =>
      subst made
      have shown : (e.beginText id).editor.data = e.commitText.editor.data := data_openText _ id
      refine (congrArg Diagram.Spelled shown).mpr (commit.spelled spelled ?_)
      intro change result
      exact clear.edited change (List.mem_append_left _ (told_commitText.mpr result))
  | take _ words =>
      refine spelled.of_words fun w member => ?_
      rw [words] at member
      exact List.mem_of_mem_eraseP member
  | replace other => exact absurd plain other

theorem perform_spelled (performed : operation.perform e = .ok o)
    (spelled : e.Throughout Diagram.Spelled) (clear : Clear operation o) :
    o.editor.Throughout Diagram.Spelled := by
  refine throughout_of_perform performed spelled ?_ ?_ ?_
  · exact fun plain => (writes_of_perform performed).spelled plain spelled.shown clear
  · intro id x y
    have same : (e.scene.updateNode id fun n => n.moveTo x y).diagram.words = e.data.words :=
      Diagram.words_updateNode fun _ _ => rfl
    exact spelled.shown.of_words fun w member => same ▸ member
  · intro d a loads laid
    have shown : d.Spelled := by
      cases operation with
      | load other => exact clear.loaded d (congrArg _ loads.symm)
      | loadSource source => exact loads ▸ Diagram.spelled_parse source
      | _ => exact loads.elim
    exact shown.of_words fun w member => Diagram.words_layout laid ▸ member

end Run

/-- Every block that can be relabelled has a token that declares it with its label, in the data shown
and in those of the history, as long as only labels with more than blanks and quotes are changed, and
none into one in quotes. Where there are no quotes in the token, it is just such labels that spoil
it. -/
theorem run_spelled [Metric α] {first now : Editor α} (new : New first)
    (run : Run (fun _ operation o => Clear operation o) first now) :
    now.Throughout Diagram.Spelled ∧ (now.Live → ∀ change, now.commitText.result = some change →
      Worded change.oldText.toList → Plain change.oldToken.toList →
        (now.commitText.editor.data.Spelled ↔ Unquoted change.newText.toList)) := by
  have spelled : now.Throughout Diagram.Spelled := by
    induction run with
    | start => exact new.throughout (List.forall_mem_nil _)
    | step _ clear performed ih => exact perform_spelled performed ih clear
  refine ⟨spelled, ?_⟩
  intro live change result worded plain
  exact (commit_commitText now).spelled_iff spelled.shown live result worded plain

/-- A label is changed, and then put in quotes. -/
theorem run_spelled_again :
    New (ofViewport .standard : Editor Float) ∧
      ∃ now, Run (fun _ operation o => Clear operation o) (ofViewport .standard : Editor Float) now ∧
        now.data.nodes.map (·.token) = ["p[Again]"] ∧ now.Throughout Diagram.Spelled ∧ now.Live ∧
        now.commitText.result = some (.of 0 "Again" "\"Go\"" "p[Again]") ∧
        ¬ now.commitText.editor.data.Spelled := by
  obtain ⟨o, loaded, shown, begun, changed, again, quotes, tokens⟩ := @exists_of_decide _ _
    ((ofViewport .standard : Editor Float).loadSource "p[Ask]")
    (fun o =>
      let typed := (o.editor.beginText 0).editor.typeText "Again"
      let quoted := (typed.commitText.editor.beginText 0).editor.typeText "\"Go\""
      o.events.any (·.kind == .nodeEdited) = false ∧
        (o.editor.beginText 0).events.any (·.kind == .nodeEdited) = false ∧
        typed.commitText.result = some (.of 0 "Ask" "Again" "p[Ask]") ∧
        (typed.commitText.editor.beginText 0).events.any (·.kind == .nodeEdited) = false ∧
        quoted.commitText.result = some (.of 0 "Again" "\"Go\"" "p[Again]") ∧
        quoted.data.nodes.map (·.token) = ["p[Again]"])
    _ (by decide +kernel)
  let typed := (o.editor.beginText 0).editor.typeText "Again"
  have new : New (ofViewport .standard : Editor Float) := new_ofViewport _
  have ready : Run (fun _ operation o => Clear operation o) (ofViewport .standard : Editor Float)
      o.editor :=
    run_loadSource loaded (clear_of_unedited nofun shown)
  have filled : Run (fun _ operation o => Clear operation o) (ofViewport .standard : Editor Float)
      typed :=
    ready.typed (clear_of_unedited nofun begun) (clear_of_unedited nofun rfl)
  have clear : Clear .commitText typed.commitText.unit :=
    clear_commitText changed ⟨'A', by decide⟩ (by decide)
  have applied : Run (fun _ operation o => Clear operation o)
      (ofViewport .standard : Editor Float) typed.commitText.editor :=
    @Run.step Float _ _ _ _ .commitText typed.commitText.unit filled clear rfl
  have run : Run (fun _ operation o => Clear operation o) (ofViewport .standard : Editor Float)
      ((typed.commitText.editor.beginText 0).editor.typeText "\"Go\"") :=
    applied.typed (clear_of_unedited nofun again) (clear_of_unedited nofun rfl)
  obtain ⟨spelled, exactly⟩ := run_spelled new run
  have live := live_typeText (live_beginText typed.commitText.editor 0) "\"Go\""
  have spoils := (exactly live _ quotes ⟨'A', by decide⟩ (by decide)).not.mpr (by decide)
  exact ⟨new, _, run, tokens, spelled, live, quotes, spoils⟩

/-- A label is typed in quotes, and read back without them. -/
theorem run_not_spelled_quotes :
    ∃ o, (ofViewport .standard : Editor Float).loadSource "p[Ask]" = .ok o ∧
      ∃ now, Run (fun _ _ _ => True) o.editor now ∧
        now.data.nodes.map (fun n => (n.text, n.token)) = [("\"Go\"", "p[\"Go\"]")] ∧
        ¬ now.data.Spelled := by
  obtain ⟨o, loaded, written, spoiled⟩ := @exists_of_decide _ _
    ((ofViewport .standard : Editor Float).loadSource "p[Ask]")
    (fun o =>
      let now := ((o.editor.beginText 0).editor.typeText "\"Go\"").commitText.editor
      now.data.nodes.map (fun n => (n.text, n.token)) = [("\"Go\"", "p[\"Go\"]")] ∧
        ¬ now.data.Spelled)
    _ (by decide +kernel)
  have typed : Run (fun _ _ _ => True) o.editor
      ((o.editor.beginText 0).editor.typeText "\"Go\"") :=
    Run.start.typed trivial trivial
  exact ⟨o, loaded, _, @Run.step Float _ _ _ _ .commitText
    ((o.editor.beginText 0).editor.typeText "\"Go\"").commitText.unit typed trivial rfl, written,
    spoiled⟩

end Editor
end Flowchart
