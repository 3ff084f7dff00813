import Flowchart.Text.Replace
/-! Changing the label of a block, in its token and wherever the token is written. -/
namespace Flowchart.Script
open Flowchart.Text

def closing? : Char → Option Char
  | '(' => some ')'
  | '[' => some ']'
  | '<' => some '>'
  | _ => none

/-- A token up to its first opening delimiter, the payload up to the last closing one that belongs
to it, and the rest. -/
structure TokenParts where
  front : List Char
  payload : List Char
  back : List Char
  deriving DecidableEq, Repr

def splitLast? (c : Char) : List Char → Option (List Char × List Char)
  | [] => none
  | d :: ds =>
    match splitLast? c ds with
    | some (before, after) => some (d :: before, after)
    | none => if d = c then some ([], d :: ds) else none

def tokenParts? : List Char → Option TokenParts
  | [] => none
  | c :: cs =>
    match closing? c with
    | some close =>
      (splitLast? close cs).map fun (payload, back) => ⟨[c], payload, back⟩
    | none => (tokenParts? cs).map fun parts => { parts with front := c :: parts.front }

/-- A token with a new label in place of the old one, at its first place in the payload. The token
stays as it is where the old label is not to be found. -/
def relabelToken (token old new : List Char) : List Char :=
  if old.isEmpty then token
  else
    match tokenParts? token with
    | some parts =>
      match replaceFirst? old new parts.payload with
      | some payload => parts.front ++ payload ++ parts.back
      | none => token
    | none => token

structure LabelEdit where
  node : Nat
  oldText : String
  newText : String
  oldToken : String
  newToken : String
  deriving DecidableEq, Repr

namespace LabelEdit

def of (node : Nat) (oldText newText oldToken : String) : LabelEdit where
  node
  oldText
  newText
  oldToken
  newToken := String.ofList (relabelToken oldToken.toList oldText.toList newText.toList)

def apply (e : LabelEdit) (source : String) : String :=
  if e.oldToken.isEmpty || e.oldToken == e.newToken then source
  else String.ofList (replaceAll e.oldToken.toList e.newToken.toList source.toList)

end LabelEdit
end Flowchart.Script
