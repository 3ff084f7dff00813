/-! Text inside markup: the five characters with a meaning of their own become references. -/
namespace Flowchart.Text

def escapeChar : Char → List Char
  | '&' => "&amp;".toList
  | '<' => "&lt;".toList
  | '>' => "&gt;".toList
  | '"' => "&quot;".toList
  | '\'' => "&apos;".toList
  | c => [c]

def escape (cs : List Char) : List Char := cs.flatMap escapeChar

def escaped (s : String) : String := String.ofList (escape s.toList)

end Flowchart.Text
