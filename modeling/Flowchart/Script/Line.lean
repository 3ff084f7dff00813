import Flowchart.Text.Blank
/-! Lines of a script: trimmed, never empty, each with the place of its first byte. -/
namespace Flowchart.Script
open Flowchart.Text

structure Span where
  start : Nat
  stop : Nat
  deriving DecidableEq, Repr

structure Line where
  text : List Char
  start : Nat
  deriving DecidableEq, Repr

namespace Line

def stop (l : Line) : Nat := l.start + byteSize l.text

def span (l : Line) : Span := ⟨l.start, l.stop⟩

def isSeparator (l : Line) : Bool := l.text.all (· == '.')

end Line

def rawLines : List Char → List (List Char)
  | [] => []
  | c :: cs =>
    if c = '\n' then [c] :: rawLines cs
    else match rawLines cs with
      | [] => [[c]]
      | l :: ls => (c :: l) :: ls

def trimLines (offset : Nat) : List (List Char) → List Line
  | [] => []
  | raw :: rest =>
    let text := trim raw
    let later := trimLines (offset + byteSize raw) rest
    if text.isEmpty then later
    else ⟨text, offset + byteSize (raw.takeWhile isBlank)⟩ :: later

def lines (source : List Char) : List Line := trimLines 0 (rawLines source)

/-- The declarations and the structure, without the first separator between them. -/
def phases (ls : List Line) : List Line × List Line :=
  (ls.takeWhile (!·.isSeparator), (ls.dropWhile (!·.isSeparator)).drop 1)

theorem flatten_rawLines (cs : List Char) : (rawLines cs).flatten = cs := by
  induction cs with
  | nil => rfl
  | cons c cs ih =>
    unfold rawLines
    split
    · simp [ih]
    · split <;> simp_all

end Flowchart.Script
