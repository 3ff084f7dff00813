import Flowchart.Proofs.Script.LabelEdit
import Flowchart.Proofs.Script.Redeclare
import Flowchart.Proofs.Script.Retrace
/-! Reloading a script after a label has been edited in it. Where the script spells the token of the
block exactly, the edited script says the same of the relabelled block. -/
namespace Flowchart.Script
open Flowchart.Text

/-- A block with another label, in its token too. -/
def relabelled (b : Block) (text : String) : Block :=
  { b with
    text
    token := String.ofList (relabelToken b.token.toList b.text.toList text.toList) }

/-- Wherever a script means block `a`, it writes its token and nothing else, and nothing in it could
mean `b` in its place. The token stands nowhere else either, not in the label of an arrow and not
inside the token of another block, where a replacement would change what is said there. -/
structure ExactlyNamed (source : String) (i : Nat) (a b : Block) : Prop where
  declared : ∀ d ∈ declarations (phases (lines source.toList)).1,
    d.token = a.token.toList ∨ ¬ a.token.toList <:+: d.token ∧ strip d.token ≠ key a
  structural : SpelledLines i a.token.toList b.token.toList (parse source).blocks
    ((parse source).blocks.set i b) (phases (lines source.toList)).2
  fresh : ∀ c ∈ (parse source).blocks.eraseIdx i, key c ≠ key b

namespace LabelEdit

theorem apply_unchanged {e : LabelEdit} (same : e.oldToken = e.newToken) (source : String) :
    e.apply source = source := by
  rw [apply, same, beq_self_eq_true, Bool.or_true, if_pos rfl]

theorem toList_apply {e : LabelEdit} (solid : e.oldToken.toList ≠ [])
    (other : e.oldToken ≠ e.newToken) (source : String) :
    (e.apply source).toList =
      replaceAll e.oldToken.toList e.newToken.toList source.toList := by
  have some : e.oldToken.isEmpty = false := by
    rw [← Bool.not_eq_true, String.isEmpty_iff]
    exact fun empty => solid (by rw [empty]; rfl)
  rw [apply, some, Bool.false_or, if_neg (by simpa using other), String.toList_ofList]

end LabelEdit

theorem parse_edges (source : String) : (parse source).edges =
    (Walk.run (parse source).blocks {} (phases (lines source.toList)).2).edges := rfl

section Apply
variable {source : String} {i : Nat} {a b : Block}

/-- Replacing the token of a block throughout a script replaces the block in the chart. -/
theorem parse_replaceAll (present : (parse source).blocks[i]? = some a)
    (read : readBlock? b.token.toList = some b) (whole : '\n' ∉ b.token.toList)
    (plain : a.kind ≠ .subBlock ∧ b.kind ≠ .subBlock) (exact : ExactlyNamed source i a b)
    {changed : String}
    (replaced : changed.toList = replaceAll a.token.toList b.token.toList source.toList) :
    (parse changed).blocks = (parse source).blocks.set i b ∧
      (parse changed).edges = (parse source).edges := by
  have member := List.mem_of_getElem? present
  have sound : (parse source).blocks.Sound := declaredBlocks_sound _
  have oldShaped := sound.shaped member
  have newShaped := shaped_of_readBlock? read
  have texts := texts_replaceAll oldShaped.solid newShaped.solid (not_mem_newline_token member)
    whole source.toList
  rw [← replaced] at texts
  obtain ⟨declared, structural⟩ :=
    texts_phases_replaceAll oldShaped.exists_ne_dot newShaped.exists_ne_dot texts
  have blocks : (parse changed).blocks = (parse source).blocks.set i b :=
    declaredBlocks_replaceAll present exact.declared exact.fresh declared read plain
  have renamed : Renamed i a.token.toList b.token.toList (parse source).blocks
      ((parse source).blocks.set i b) := by
    have inside := (List.getElem?_eq_some_iff.mp present).1
    constructor
    case before_sound => exact sound
    case after_sound => exact blocks ▸ declaredBlocks_sound _
    case old_token => exact ⟨a, present, rfl⟩
    case new_token => exact ⟨b, List.getElem?_set_self inside, rfl⟩
    case others => exact fun j other => List.getElem?_set_ne (Ne.symm other)
  have start : Walk.Same {} {} := ⟨rfl, rfl, rfl⟩
  have walks := Walk.Same.run renamed structural exact.structural start
  refine ⟨blocks, ?_⟩
  rw [parse_edges, parse_edges, blocks, walks.edges]

variable {text : String}

/-- The relabelled block is what its own token says. -/
theorem read_relabelled (read : readBlock? b.token.toList = some b)
    (editable : b.kind.hasEditableText = true) (worded : Worded b.text.toList)
    (solid : Solid text.toList) (plain : Plain text.toList) :
    readBlock? (relabelled b text).token.toList = some (relabelled b text) ∧
      ∀ c ∈ (relabelled b text).token.toList, c ∈ b.token.toList ∨ c ∈ text.toList := by
  obtain ⟨front, back, split, changed, made⟩ :=
    exists_relabelled read editable worded solid plain.unquoted
  have token : (relabelled b text).token.toList = front ++ (text.toList ++ back) := by
    rw [relabelled, String.toList_ofList, changed]
  constructor
  · rw [token, made, String.ofList_toList, relabelled, changed]
  · intro c member
    rw [token] at member
    rw [split]
    simp only [List.mem_append] at member ⊢
    tauto

/-- Reloading after an edit keeps the chart, but for the label and the token of the edited block. -/
theorem parse_apply (present : (parse source).blocks[i]? = some b)
    (editable : b.kind.hasEditableText = true) (worded : Worded b.text.toList)
    (solid : Solid text.toList) (plain : Plain text.toList) (whole : '\n' ∉ text.toList)
    (exact : ExactlyNamed source i b (relabelled b text)) :
    (parse ((LabelEdit.of i b.text text b.token).apply source)).blocks =
        (parse source).blocks.set i (relabelled b text) ∧
      (parse ((LabelEdit.of i b.text text b.token).apply source)).edges = (parse source).edges := by
  have member := List.mem_of_getElem? present
  have sound : (parse source).blocks.Sound := declaredBlocks_sound _
  have readOld := sound.read b member
  obtain ⟨read, characters⟩ := read_relabelled readOld editable worded solid plain
  by_cases unchanged : b.token = (relabelled b text).token
  · -- the new label is the old one, and so are the token, the script and the block
    have same : relabelled b text = b := by
      rw [← unchanged, readOld] at read
      exact (Option.some.inj read).symm
    obtain ⟨inside, here⟩ := List.getElem?_eq_some_iff.mp present
    rw [LabelEdit.apply_unchanged unchanged, same, ← here, List.set_getElem_self]
    exact ⟨rfl, rfl⟩
  · have wholeToken : '\n' ∉ (relabelled b text).token.toList := fun inside =>
      (characters _ inside).elim (not_mem_newline_token member) whole
    have simple : b.kind ≠ .subBlock := by
      intro composite
      rw [composite] at editable
      cases editable
    exact parse_replaceAll present read wholeToken ⟨simple, simple⟩ exact
      (LabelEdit.toList_apply (sound.shaped member).ne_nil unchanged source)

/-- A question that is asked again: its token stands on a line, as a target and in a group. -/
theorem parse_apply_question :
    let source := "ts()\np[\"Ask\"]\nd<ok?>\n...\nts()\na>\np[\"Ask\"]\na>\nd<ok?>\n" ++
      "a*no*>!p[\"Ask\"]\nts() ma*or*>[\np[\"Ask\"]\n]\n"
    let b : Block := { kind := .process, text := "Ask", token := "p[\"Ask\"]" }
    (parse source).blocks[1]? = some b ∧ ExactlyNamed source 1 b (relabelled b "Again") ∧
      (parse ((LabelEdit.of 1 "Ask" "Again" b.token).apply source)).blocks =
          (parse source).blocks.set 1 (relabelled b "Again") ∧
        (parse ((LabelEdit.of 1 "Ask" "Again" b.token).apply source)).edges =
          (parse source).edges := by
  intro source b
  have blocks : (parse source).blocks =
      [{ kind := .terminatorStart, text := "Start", token := "ts()" }, b,
        { kind := .decision, text := "ok?", token := "d<ok?>" }] := by decide +kernel
  have present : (parse source).blocks[1]? = some b := by rw [blocks]; rfl
  have token : (relabelled b "Again").token = "p[\"Again\"]" := by decide +kernel
  have exact : ExactlyNamed source 1 b (relabelled b "Again") := by
    constructor
    case declared => decide +kernel
    case fresh =>
      rw [blocks, key, token]
      decide +kernel
    case structural =>
      have lines : (phases (lines source.toList)).2 = [⟨"ts()".toList, 25⟩, ⟨"a>".toList, 30⟩,
        ⟨b.token.toList, 33⟩, ⟨"a>".toList, 42⟩, ⟨"d<ok?>".toList, 45⟩,
        ⟨"a*no*>".toList ++ '!' :: b.token.toList, 52⟩, ⟨"ts() ma*or*>[".toList, 68⟩,
        ⟨b.token.toList, 82⟩, ⟨"]".toList, 91⟩] := by decide +kernel
      have old : Shaped b.token.toList :=
        ⟨⟨'p', by decide, by decide +kernel⟩, ⟨']', by decide, by decide +kernel⟩⟩
      have new : Shaped "p[\"Again\"]".toList :=
        ⟨⟨'p', by decide, by decide +kernel⟩, ⟨']', by decide, by decide +kernel⟩⟩
      have read : arrow? "a*no*>".toList = some ⟨some "no", .forward⟩ := by decide +kernel
      have once : ¬ b.token.toList <:+: ("a*no*>".toList ++ '!' :: b.token.toList).dropLast := by
        decide +kernel
      have left : (groupBody [⟨b.token.toList, 82⟩, ⟨"]".toList, 91⟩]).2 = [] := by decide +kernel
      rw [blocks, lines, token]
      refine .line (.clear (by decide +kernel)) (by decide +kernel) ?_
      refine .line (.clear (by decide +kernel)) (by decide +kernel) ?_
      refine .line (.token old new) (by decide +kernel) ?_
      refine .line (.clear (by decide +kernel)) (by decide +kernel) ?_
      refine .line (.clear (by decide +kernel)) (by decide +kernel) ?_
      refine .line (.returns read (by decide +kernel) once) (by decide +kernel) ?_
      refine .group (.clear (by decide +kernel)) (by decide +kernel) (by decide +kernel) ?_
      rw [left]
      exact .nil
  refine ⟨present, exact, ?_⟩
  have worded : Worded b.text.toList := ⟨'A', by decide +kernel, by decide, by decide⟩
  have solid : Solid "Again".toList := ⟨by decide +kernel, by decide +kernel⟩
  exact parse_apply present rfl worded solid (by decide +kernel) (by decide +kernel) exact

/-- A reference with a blank in it names the block, but it is not written anew, so the connection is
lost. -/
theorem parse_apply_spaced_reference :
    let source := "ts()\np[\"Ask\"]\n...\nts()\na>\np[ \"Ask\" ]\n"
    let edit := LabelEdit.of 1 "Ask" "Again" "p[\"Ask\"]"
    (parse source).blocks =
        [{ kind := .terminatorStart, text := "Start", token := "ts()" },
          { kind := .process, text := "Ask", token := "p[\"Ask\"]" }] ∧
      (parse (edit.apply source)).blocks =
        [{ kind := .terminatorStart, text := "Start", token := "ts()" },
          { kind := .process, text := "Again", token := edit.newToken }] ∧
      Solid "Again".toList ∧ Plain "Again".toList ∧ '\n' ∉ "Again".toList ∧
      (parse source).edges = [⟨0, 1, none, false⟩] ∧ (parse (edit.apply source)).edges = [] := by
  have solid : Solid "Again".toList := ⟨by decide +kernel, by decide +kernel⟩
  exact ⟨by decide +kernel, by decide +kernel, solid, by decide +kernel, by decide +kernel,
    by decide +kernel⟩

end Apply
end Flowchart.Script
