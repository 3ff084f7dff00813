import Flowchart.Editor.Basic
import Flowchart.Layout.Measure
import Flowchart.Text.Blank
/-! Typing a new label into a block. -/
namespace Flowchart

inductive EditKey where
  | enter (shift : Bool)
  | escape
  deriving DecidableEq, Repr

namespace Editor

variable {α : Type} [Scalar α]

def relabelled (config : Layout.Config α) (n : Node α) (change : Script.LabelEdit) : Node α :=
  Layout.sizeNode config { n with text := change.newText, token := change.newToken }

/-- Close the open text and apply it, unless nothing is left of it or nothing was changed. -/
def commitText (e : Editor α) : Outcome α (Option Script.LabelEdit) :=
  match e.textEdit with
  | none => ⟨none, e, []⟩
  | some edit =>
    let closed := { e with textEdit := none }
    let text := String.ofList (Text.trim edit.buffer.toList)
    if text.isEmpty || text == edit.before then ⟨none, closed, []⟩
    else
      match e.data.node? edit.node with
      | none => ⟨none, closed, []⟩
      | some n =>
        let change := Script.LabelEdit.of n.id n.text text n.token
        let after := closed.commit
          (e.scene.updateNode edit.node fun n => relabelled e.settings.layout n change)
        ⟨some change, after, [.nodeEdited change, after.historyChanged, after.dataChanged]⟩

def cancelText (e : Editor α) : Editor α := { e with textEdit := none }

def openText (e : Editor α) (id : Nat) : Outcome α Bool :=
  match e.data.node? id with
  | none => ⟨false, e, []⟩
  | some n =>
    if n.kind.hasEditableText then ⟨true, { e with textEdit := some ⟨id, n.text, n.text⟩ }, []⟩
    else ⟨false, e, []⟩

/-- Open the label of a block; one that is open already is committed first. -/
def beginText (e : Editor α) (id : Nat) : Outcome α Bool :=
  e.commitText.andThen fun e => e.openText id

def typeText (e : Editor α) (buffer : String) : Editor α :=
  { e with textEdit := e.textEdit.map fun edit => { edit with buffer } }

def key (e : Editor α) (k : EditKey) : Outcome α Bool :=
  if e.textEdit.isNone then ⟨false, e, []⟩
  else
    match k with
    | .enter true => ⟨false, e, []⟩
    | .enter false => e.commitText.map fun _ => true
    | .escape => ⟨true, e.cancelText, []⟩

end Editor
end Flowchart
