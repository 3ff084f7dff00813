/-! Replacing parts of a text, from left to right. -/
namespace Flowchart.Text

/-- Replace the first place where `old` stands; `none` when it stands nowhere. -/
def replaceFirst? (old new : List Char) : List Char → Option (List Char)
  | [] => if old.isEmpty then some new else none
  | c :: cs =>
    if old.isPrefixOf (c :: cs) then some (new ++ (c :: cs).drop old.length)
    else (replaceFirst? old new cs).map (c :: ·)

/-- Pass over `skip` characters that are replaced already, then replace wherever `old` stands. -/
def replaceFrom (old new : List Char) : (skip : Nat) → List Char → List Char
  | _, [] => []
  | skip + 1, _ :: cs => replaceFrom old new skip cs
  | 0, c :: cs =>
    if old.isPrefixOf (c :: cs) then new ++ replaceFrom old new (old.length - 1) cs
    else c :: replaceFrom old new 0 cs

/-- Replace every place of a text that is not empty; places do not overlap. -/
def replaceAll (old new text : List Char) : List Char := replaceFrom old new 0 text

end Flowchart.Text
