import Flowchart.Script.Diagnostic
import Flowchart.Text.Glyph
/-! Reports: a diagnostic with its place in the source, the lines it is about, and a label that
points at them. A label within one line is underlined; one over several lines is bracketed at the
margin, where all lines between its first and its last are left out. -/
namespace Flowchart.Report
open Script (Diagnostic)

inductive Paint where
  | plain
  | label
  | margin
  | skippedMargin
  | unimportant
  deriving DecidableEq, Repr

def Paint.code? : Paint → Option String
  | .plain => none
  | .label => some "33"
  | .margin => some "38;5;246"
  | .skippedMargin => some "38;5;240"
  | .unimportant => some "38;5;249"

def painted (color : Bool) (paint : Paint) (text : String) : String :=
  match color, paint.code? with
  | true, some code => "\x1b[" ++ code ++ "m" ++ text ++ "\x1b[0m"
  | _, _ => text

def isLineEnd (c : Char) : Bool :=
  c == '\n' || c == '\r' || c == '\x0b' || c == '\x0c' || c == '\u0085' || c == '\u2028'
    || c == '\u2029'

/-- Cut a text behind each line end. A carriage return and a line feed end one line together. -/
def cutLines : List Char → List (List Char)
  | [] => []
  | '\r' :: '\n' :: cs => ['\r', '\n'] :: cutLines cs
  | c :: cs =>
    if isLineEnd c then [c] :: cutLines cs
    else
      match cutLines cs with
      | [] => [[c]]
      | l :: ls => (c :: l) :: ls

/-- A line of the source; `offset` counts the characters in front of it. -/
structure SourceLine where
  number : Nat
  offset : Nat
  chars : List Char
  deriving DecidableEq, Repr

def numberLines (number offset : Nat) : List (List Char) → List SourceLine
  | [] => []
  | l :: ls => ⟨number, offset, l⟩ :: numberLines (number + 1) (offset + l.length) ls

def SourceLine.stop (l : SourceLine) : Nat := l.offset + l.chars.length

def SourceLine.text (l : SourceLine) : List Char := Text.trimEnd l.chars

/-- How a character is shown in a column, and how wide. Tabs go to the next multiple of four. -/
def shown (column : Nat) (c : Char) : Char × Nat :=
  if c = '\t' then (' ', 4 - column % 4)
  else if Text.isBlank c then (' ', 1)
  else (c, Text.glyphColumns c)

def repeated (count : Nat) (c : Char) : String := String.ofList (List.replicate count c)

structure Label where
  start : Nat
  stop : Nat
  message : String
  deriving DecidableEq, Repr

/-- How a report is laid out. `digits` is the width of line numbers. -/
structure Layout where
  color : Bool
  digits : Nat

namespace Layout

variable (r : Layout)

def ink (paint : Paint) (c : Char) : String := painted r.color paint c.toString

def numbered (l : SourceLine) : String :=
  let number := toString l.number
  " " ++ painted r.color .margin (repeated (r.digits - number.length) ' ' ++ number ++ " │") ++ " "

def unnumbered (bar : Char) : String :=
  " " ++ painted r.color .skippedMargin (repeated (r.digits + 1) ' ' ++ bar.toString) ++ " "

def sourceText (label : Label) (l : SourceLine) : String :=
  String.join (l.text.mapIdx fun column c =>
    let place := l.offset + column
    let paint := if label.start ≤ place && place < label.stop then .label else .unimportant
    let (c, width) := shown column c
    if c = ' ' then String.join (List.replicate width (r.ink paint c)) else r.ink paint c)

/-- One mark for each of `count` columns, as wide as the character above. The first place of a
column takes one mark, the others another. -/
def marks (l : SourceLine) (count : Nat) (mark : Nat → Paint × Char × Char) : String :=
  String.join ((List.range count).map fun column =>
    let width := match l.text[column]? with
      | some c => (shown column c).2
      | none => 1
    let (paint, first, other) := mark column
    match width with
    | 0 => ""
    | width + 1 =>
      r.ink paint first ++ String.join (List.replicate width (r.ink paint other)))

/-- A label within a line: underlined, with a hook from its middle to the message. -/
def inlineRows (label : Label) (l : SourceLine) : List String :=
  let middle := (label.start + label.stop) / 2 - l.offset
  let count := label.stop - l.offset + 2
  let underline (column : Nat) : Paint × Char × Char :=
    let place := l.offset + column
    if column = middle then (.label, '┬', '─')
    else if label.start ≤ place && place < label.stop then (.label, '─', '─')
    else (.plain, ' ', ' ')
  let hook (column : Nat) : Paint × Char × Char :=
    if column = middle then (.label, '╰', '─')
    else if middle < column then (.label, '─', '─')
    else (.plain, ' ', ' ')
  [r.numbered l ++ r.sourceText label l,
    r.unnumbered '│' ++ r.marks l count underline,
    r.unnumbered '│' ++ r.marks l count hook ++ " " ++ label.message]

def bracket (corner : Char) : String :=
  r.ink .label corner ++ r.ink .label '─' ++ r.ink .label '▶' ++ r.ink .label ' '

def bracketRows (label : Label) (first last : SourceLine) : List String :=
  let between := if first.number + 1 < last.number then
      [r.unnumbered '┆' ++ r.ink .label '┆' ++ "   "]
    else []
  let count := last.chars.length + 2
  [r.numbered first ++ r.bracket '╭' ++ r.sourceText label first] ++ between ++
    [r.numbered last ++ r.bracket '├' ++ r.sourceText label last,
      r.unnumbered '│' ++ r.ink .label '│' ++ "   "
        ++ r.marks last count fun _ => (.plain, ' ', ' '),
      r.unnumbered '│' ++ r.ink .label '╰' ++ r.ink .label '─' ++ r.ink .label '─'
        ++ r.ink .label '─' ++ (r.marks last count fun _ => (.label, '─', '─')) ++ " "
        ++ label.message]

end Layout

/-- How many characters take up so many bytes at the beginning of a text; none where a character
does not end there. -/
def charCount? : (bytes : Nat) → List Char → Option Nat
  | 0, _ => some 0
  | _ + 1, [] => none
  | bytes + 1, c :: cs =>
    if c.utf8Size ≤ bytes + 1 then (charCount? (bytes + 1 - c.utf8Size) cs).map (· + 1) else none

/-- A place in bytes, told in characters. One that is not between characters stays as it is. -/
def charsBefore (bytes : Nat) (source : List Char) : Nat :=
  (charCount? bytes source).getD bytes

def rows (color : Bool) (fileName : String) (source : List Char) (d : Diagnostic) : List String :=
  let label : Label :=
    ⟨charsBefore d.span.start source, charsBefore d.span.stop source, d.hint⟩
  let headline := painted color .label "Warning:" ++ " " ++ d.message
  let about := (numberLines 1 0 (cutLines source)).filter fun l =>
    l.offset < label.stop && label.start < l.stop
  match about.head?, about.getLast? with
  | some first, some last =>
    let r : Layout := ⟨color, (toString last.number).length⟩
    let pad := repeated (r.digits + 2) ' '
    let place := fileName ++ ":" ++ toString first.number ++ ":"
      ++ toString (label.start - first.offset + 1)
    [headline,
      pad ++ r.ink .margin '╭' ++ r.ink .margin '─' ++ r.ink .margin '[' ++ place
        ++ r.ink .margin ']',
      pad ++ r.ink .margin '│']
      ++ (if first.number = last.number then r.inlineRows label first
        else r.bracketRows label first last)
      ++ [painted color .margin (repeated (r.digits + 2) '─' ++ "╯")]
  | _, _ => [headline]

def text (color : Bool) (fileName source : String) (d : Diagnostic) : String :=
  String.join ((rows color fileName source.toList d).map (· ++ "\n"))

end Flowchart.Report
