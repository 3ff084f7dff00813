import Flowchart.Proofs.Script.Program
/-! What a statement does, whatever it names and wherever the walk stands. Where it leads, which
connections it makes and what it complains about hang on the block and the arrow that are left from
the lines before, and on nothing else of the walk. -/
namespace Flowchart.Script
open Flowchart.Text
open Walk (edgeOf)

section Meaning
variable (blocks : Registry)

/-- The connections from an anchor that the lines of a group mean; the label waits for the next
member. -/
def bodyMade (anchor : Nat) (group : Arrow) : Option String → List Line → List Edge
  | _, [] => []
  | label, l :: ls =>
    match arrow? l.text with
    | some arrow => bodyMade anchor group arrow.label ls
    | none =>
      match blocks.resolve? l.text with
      | some block =>
        edgeOf anchor block ⟨label.or group.label, group.direction⟩ false ::
          bodyMade anchor group none ls
      | none => bodyMade anchor group none ls

/-- Without an anchor a group makes no connections. -/
def groupMade (anchor : Option Nat) (group : Arrow) (label : Option String) (body : List Line) :
    List Edge :=
  match anchor with
  | some anchor => bodyMade blocks anchor group label body
  | none => []

/-- What there is to complain about when a token on a line should name a block. -/
def stranger (token : List Char) (l : Line) : List Diagnostic :=
  if (blocks.resolve? token).isNone then
    [.unresolvedReference (String.ofList token) l.span (blocks.suggest token)]
  else []

def memberComplaints (l : Line) : List Diagnostic :=
  if (arrow? l.text).isSome then [] else stranger blocks l.text l

/-- A group that is opened at line `l`, with the lines `ls` behind it. -/
def groupComplaints (l : Line) (ls : List Line) : List Diagnostic :=
  (if isClosed ls then [] else [.unclosedGroup l.span]) ++
    (groupBody ls).1.flatMap (memberComplaints blocks)

namespace Statement

/-- Where a statement leads. -/
def next (c : Cursor) : Statement → Cursor
  | .inlineBack _ _ _ | .back _ _ => {}
  | .group _ | .unknown => c
  | .merge reference _ =>
    match blocks.resolve? reference with
    | some anchor => { previous := some anchor }
    | none => c
  | .arrow a => { c with pending := some a }
  | .visit block => { previous := some block }

/-- The connections that a statement makes, with the lines `ls` behind it. -/
def made (c : Cursor) (ls : List Line) : Statement → List Edge
  | .inlineBack source a target =>
    c.completed source ++ ((blocks.resolve? target).map (edgeOf source · a true)).toList
  | .back a target =>
    match c.previous, blocks.resolve? target with
    | some source, some target => [edgeOf source target a true]
    | _, _ => []
  | .group a => groupMade blocks c.previous a none (groupBody ls).1
  | .merge reference a =>
    match blocks.resolve? reference with
    | some anchor =>
      c.completed anchor ++ groupMade blocks (some anchor) a none (groupBody ls).1
    | none => groupMade blocks c.previous a none (groupBody ls).1
  | .arrow _ | .unknown => []
  | .visit block => c.completed block

/-- What there is to complain about in a statement at line `l`, with the lines `ls` behind it. -/
def complaints (c : Cursor) (l : Line) (ls : List Line) : Statement → List Diagnostic
  | .inlineBack _ _ target => stranger blocks target l
  | .back _ target =>
    if c.previous.isNone then [.missingSource l.span] else stranger blocks target l
  | .group _ =>
    (if c.previous.isNone then [.missingSource l.span] else []) ++ groupComplaints blocks l ls
  | .merge reference _ => stranger blocks reference l ++ groupComplaints blocks l ls
  | .arrow _ | .visit _ => []
  | .unknown => [.unrecognizedStatement (String.ofList l.text) l.span]

end Statement
end Meaning

namespace Walk

/-- A walk that is led on, with connections and complaints added to those it has. -/
def extend (w : Walk) (c : Cursor) (made : List Edge) (complaints : List Diagnostic) : Walk where
  previous := c.previous
  pending := c.pending
  edges := made.foldl insertEdge w.edges
  diagnostics := w.diagnostics ++ complaints

theorem extend_extend (w : Walk) (c d : Cursor) (made later : List Edge)
    (complaints others : List Diagnostic) :
    (w.extend c made complaints).extend d later others =
      w.extend d (made ++ later) (complaints ++ others) := by
  simp only [extend, List.foldl_append, List.append_assoc]

theorem extend_nil (w : Walk) : w.extend w.cursor [] [] = w := by
  rw [extend, List.append_nil]
  rfl

theorem warn_eq (w : Walk) (d : Diagnostic) : w.warn d = w.extend w.cursor [] [d] := rfl

theorem link_eq_extend (w : Walk) (anchor other : Nat) (arrow : Arrow) (back : Bool) :
    w.link anchor other arrow back = w.extend w.cursor [edgeOf anchor other arrow back] [] := by
  rw [link_insert, extend, List.append_nil]
  rfl

theorem arrive_eq_extend (w : Walk) (block : Nat) :
    w.arrive block = w.extend { previous := some block } (w.cursor.completed block) [] := by
  rw [arrive_eq, extend, List.append_nil]

section Group
variable (blocks : Registry)

/-- What the lines of a group do, one after another. -/
theorem foldl_member_eq (anchor : Option Nat) (group : Arrow) (w : Walk) (label : Option String)
    (body : List Line) :
    (body.foldl (member blocks anchor group) (w, label)).1 =
      w.extend w.cursor (groupMade blocks anchor group label body)
        (body.flatMap (memberComplaints blocks)) := by
  induction body generalizing w label with
  | nil => cases anchor <;> exact w.extend_nil.symm
  | cons l body ih =>
      rw [List.foldl_cons, List.flatMap_cons, memberComplaints, member]
      cases said : arrow? l.text with
      | some arrow =>
          have made : groupMade blocks anchor group label (l :: body) =
              groupMade blocks anchor group arrow.label body := by
            cases anchor <;> simp [groupMade, bodyMade, said]
          simp only [ih, made, Option.isSome_some, if_true, List.nil_append]
      | none =>
          rw [stranger]
          cases named : blocks.resolve? l.text with
          | none =>
              have made : groupMade blocks anchor group label (l :: body) =
                  groupMade blocks anchor group none body := by
                cases anchor <;> simp [groupMade, bodyMade, said, named]
              simp only [ih, unresolved, warn_eq, extend_extend, made, Option.isSome_none,
                Option.isNone_none, Bool.false_eq_true, if_false, if_true]
              rfl
          | some block =>
              cases anchor with
              | none => simp [ih, groupMade]
              | some anchor =>
                  simp only [ih, link_eq_extend, extend_extend, groupMade, bodyMade, said, named]
                  rfl

theorem group_eq (w : Walk) (anchor : Option Nat) (arrow : Arrow) (l : Line) (ls : List Line) :
    w.group blocks anchor arrow l ls =
      w.extend w.cursor (groupMade blocks anchor arrow none (groupBody ls).1)
        (groupComplaints blocks l ls) := by
  rw [group, foldl_member_eq, groupComplaints]
  cases isClosed ls with
  | true => rfl
  | false => exact extend_extend w w.cursor w.cursor [] _ [.unclosedGroup l.span] _

end Group

/-- Everything that one step does. -/
theorem step_eq (blocks : Registry) (w : Walk) (l : Line) (ls : List Line) :
    (w.step blocks l ls).1 =
      w.extend ((statement blocks l.text).next blocks w.cursor)
        ((statement blocks l.text).made blocks w.cursor ls)
        ((statement blocks l.text).complaints blocks w.cursor l ls) := by
  unfold step
  cases statement blocks l.text with
  | inlineBack source arrow target =>
      simp only [Statement.next, Statement.made, Statement.complaints, stranger]
      cases blocks.resolve? target with
      | some block => simp [arrive_eq_extend, link_eq_extend, extend_extend]; rfl
      | none => simp [arrive_eq_extend, unresolved, warn_eq, extend_extend]; rfl
  | back arrow target =>
      simp only [Statement.next, Statement.made, Statement.complaints, stranger]
      have left : ({ w with previous := none, pending := none } : Walk) = w.extend {} [] [] := by
        rw [extend, List.append_nil]
        rfl
      cases previous : w.previous with
      | none => simp [left, warn_eq, extend_extend, cursor, previous]; rfl
      | some source =>
          cases blocks.resolve? target with
          | some block => simp [left, link_eq_extend, extend_extend, cursor, previous]; rfl
          | none => simp [left, unresolved, warn_eq, extend_extend, cursor, previous]; rfl
  | group arrow =>
      simp only [Statement.next, Statement.made, Statement.complaints, group_eq]
      cases previous : w.previous with
      | none => simp [warn_eq, extend_extend, cursor, previous]; rfl
      | some source => simp [cursor, previous]
  | merge reference arrow =>
      simp only [Statement.next, Statement.made, Statement.complaints, stranger]
      cases blocks.resolve? reference with
      | some anchor => simp [group_eq, arrive_eq_extend, extend_extend]; rfl
      | none => simp [group_eq, unresolved, warn_eq, extend_extend]; rfl
  | arrow arrow => simp [Statement.next, Statement.made, Statement.complaints, extend, cursor]
  | visit block =>
      simp [Statement.next, Statement.made, Statement.complaints, arrive_eq_extend]
  | unknown =>
      simp [Statement.next, Statement.made, Statement.complaints, warn_eq]

end Walk
end Flowchart.Script
