import Flowchart.Script.Line
/-! What was skipped or dropped while a script was read, with the place in the source. -/
namespace Flowchart.Script

inductive Diagnostic where
  | unrecognizedBlock (text : String) (span : Span)
  | unrecognizedStatement (text : String) (span : Span)
  /-- Suggestions are declared tokens a small edit away. -/
  | unresolvedReference (token : String) (span : Span) (suggestions : List String)
  | missingSource (span : Span)
  | unclosedGroup (span : Span)
  deriving DecidableEq, Repr

namespace Diagnostic

def span : Diagnostic → Span
  | .unrecognizedBlock _ span => span
  | .unrecognizedStatement _ span => span
  | .unresolvedReference _ span _ => span
  | .missingSource span => span
  | .unclosedGroup span => span

def message : Diagnostic → String
  | .unrecognizedBlock text _ => "unrecognized block notation '" ++ text ++ "'"
  | .unrecognizedStatement text _ => "unrecognized statement '" ++ text ++ "'"
  | .unresolvedReference token _ _ => "reference to undeclared block '" ++ token ++ "'"
  | .missingSource _ => "connection has no preceding block to start from"
  | .unclosedGroup _ => "group is never closed with ']'"

def hint : Diagnostic → String
  | .unrecognizedBlock _ _ => "this line is skipped"
  | .unrecognizedStatement _ _ => "this statement is skipped"
  | .unresolvedReference _ _ [] => "no block with this notation is declared"
  | .unresolvedReference _ _ suggestions =>
    "did you mean " ++ String.intercalate " or " suggestions ++ "?"
  | .missingSource _ => "no connection is created"
  | .unclosedGroup _ => "the group runs to the end of the input"

end Diagnostic
end Flowchart.Script
