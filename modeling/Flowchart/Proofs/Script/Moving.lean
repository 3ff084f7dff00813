import Flowchart.Proofs.Script.Removal
/-! Statements that move. At another place a statement does the same, and what there is to complain
about it moves along. -/
namespace Flowchart.Script
open Flowchart.Text

def Span.moved (f : Nat → Nat) (s : Span) : Span := ⟨f s.start, f s.stop⟩

namespace Diagnostic

def isUnrecognized : Diagnostic → Bool
  | .unrecognizedBlock _ _ | .unrecognizedStatement _ _ => true
  | .unresolvedReference _ _ _ | .missingSource _ | .unclosedGroup _ => false

/-- The same diagnostic at another place. -/
def moved (f : Nat → Nat) : Diagnostic → Diagnostic
  | .unrecognizedBlock text span => .unrecognizedBlock text (span.moved f)
  | .unrecognizedStatement text span => .unrecognizedStatement text (span.moved f)
  | .unresolvedReference token span suggestions =>
    .unresolvedReference token (span.moved f) suggestions
  | .missingSource span => .missingSource (span.moved f)
  | .unclosedGroup span => .unclosedGroup (span.moved f)

theorem isUnrecognized_moved (f : Nat → Nat) (d : Diagnostic) :
    (d.moved f).isUnrecognized = d.isUnrecognized := by
  cases d <;> rfl

end Diagnostic

section Moved
variable {blocks : Registry} {f : Nat → Nat}

/-- A line that is as long at its new place. -/
def Line.Rigid (f : Nat → Nat) (l : Line) : Prop := (l.moved f).stop = f l.stop

theorem Line.Rigid.span {l : Line} (rigid : l.Rigid f) : (l.moved f).span = l.span.moved f :=
  congrArg (Span.mk (f l.start)) rigid

theorem groupBody_moved (f : Nat → Nat) (ls : List Line) :
    groupBody (ls.map (·.moved f)) =
      ((groupBody ls).1.map (·.moved f), (groupBody ls).2.map (·.moved f)) := by
  rw [groupBody, groupBody, List.takeWhile_map, List.dropWhile_map, ← List.map_drop]
  rfl

theorem isClosed_moved (f : Nat → Nat) (ls : List Line) :
    isClosed (ls.map (·.moved f)) = isClosed ls := by
  rw [isClosed, List.any_map]
  rfl

theorem bodyMade_moved (anchor : Nat) (group : Arrow) (label : Option String) (body : List Line) :
    bodyMade blocks anchor group label (body.map (·.moved f)) =
      bodyMade blocks anchor group label body := by
  induction body generalizing label with
  | nil => rfl
  | cons l body ih => simp only [List.map_cons, bodyMade, Line.text_moved, ih]

theorem groupMade_moved (anchor : Option Nat) (group : Arrow) (ls : List Line) :
    groupMade blocks anchor group none (groupBody (ls.map (·.moved f))).1 =
      groupMade blocks anchor group none (groupBody ls).1 := by
  rw [groupBody_moved]
  cases anchor with
  | none => rfl
  | some anchor => exact bodyMade_moved anchor group none _

theorem stranger_moved (token : List Char) {l : Line} (rigid : l.Rigid f) :
    stranger blocks token (l.moved f) = (stranger blocks token l).map (·.moved f) := by
  rw [stranger, stranger, rigid.span]
  split <;> rfl

theorem memberComplaints_moved {l : Line} (rigid : l.Rigid f) :
    memberComplaints blocks (l.moved f) = (memberComplaints blocks l).map (·.moved f) := by
  rw [memberComplaints, memberComplaints, Line.text_moved]
  split
  · rfl
  · exact stranger_moved l.text rigid

theorem groupComplaints_moved {l : Line} (rigid : l.Rigid f) {ls : List Line}
    (others : ∀ m ∈ ls, m.Rigid f) :
    groupComplaints blocks (l.moved f) (ls.map (·.moved f)) =
      (groupComplaints blocks l ls).map (·.moved f) := by
  have members : ((groupBody ls).1.map (·.moved f)).flatMap (memberComplaints blocks) =
      ((groupBody ls).1.flatMap (memberComplaints blocks)).map (·.moved f) := by
    rw [List.flatMap_map, List.map_flatMap]
    refine List.flatMap_congr fun m member => memberComplaints_moved (others m ?_)
    exact (List.takeWhile_sublist _).subset member
  rw [groupComplaints, groupComplaints, groupBody_moved, isClosed_moved, members, rigid.span,
    List.map_append]
  split <;> rfl

namespace Statement
variable (said : Statement) (c : Cursor)

theorem made_moved (ls : List Line) :
    said.made blocks c (ls.map (·.moved f)) = said.made blocks c ls := by
  cases said with
  | group arrow => exact groupMade_moved c.previous arrow ls
  | merge reference arrow => simp only [made, groupMade_moved]
  | inlineBack source arrow target => rfl
  | back arrow target => rfl
  | arrow arrow => rfl
  | visit block => rfl
  | unknown => rfl

theorem complaints_moved {l : Line} (rigid : l.Rigid f) {ls : List Line}
    (others : ∀ m ∈ ls, m.Rigid f) :
    said.complaints blocks c (l.moved f) (ls.map (·.moved f)) =
      (said.complaints blocks c l ls).map (·.moved f) := by
  have missing : [Diagnostic.missingSource (l.moved f).span] =
      [Diagnostic.missingSource l.span].map (·.moved f) := by
    rw [rigid.span]
    rfl
  cases said with
  | inlineBack source arrow target => exact stranger_moved target rigid
  | back arrow target =>
      simp only [complaints]
      split
      · exact missing
      · exact stranger_moved target rigid
  | group arrow =>
      simp only [complaints, groupComplaints_moved rigid others, List.map_append]
      split
      · rw [missing]
      · rfl
  | merge reference arrow =>
      simp only [complaints, groupComplaints_moved rigid others, stranger_moved reference rigid,
        List.map_append]
  | arrow arrow => rfl
  | visit block => rfl
  | unknown =>
      simp only [complaints, rigid.span]
      rfl

end Statement
end Moved

section Recognized
variable (blocks : Registry)

theorem recognized_stranger (token : List Char) (l : Line) :
    ∀ d ∈ stranger blocks token l, d.isUnrecognized = false := by
  rw [stranger]
  split
  · exact List.forall_mem_singleton.mpr rfl
  · exact List.forall_mem_nil _

theorem recognized_group (l : Line) (ls : List Line) :
    ∀ d ∈ groupComplaints blocks l ls, d.isUnrecognized = false := by
  refine List.forall_mem_append.mpr ⟨?_, ?_⟩
  · split
    · exact List.forall_mem_nil _
    · exact List.forall_mem_singleton.mpr rfl
  · intro d member
    obtain ⟨m, -, about⟩ := List.mem_flatMap.mp member
    rw [memberComplaints] at about
    split at about
    · cases about
    · exact recognized_stranger blocks m.text m d about

/-- What is complained about a known statement is not that it is unrecognized. -/
theorem recognized_complaints {said : Statement} (known : said ≠ .unknown) (c : Cursor) (l : Line)
    (ls : List Line) : ∀ d ∈ said.complaints blocks c l ls, d.isUnrecognized = false := by
  cases said with
  | inlineBack source arrow target => exact recognized_stranger blocks target l
  | back arrow target =>
      simp only [Statement.complaints]
      split
      · exact List.forall_mem_singleton.mpr rfl
      · exact recognized_stranger blocks target l
  | group arrow =>
      refine List.forall_mem_append.mpr ⟨?_, recognized_group blocks l ls⟩
      split
      · exact List.forall_mem_singleton.mpr rfl
      · exact List.forall_mem_nil _
  | merge reference arrow =>
      exact List.forall_mem_append.mpr
        ⟨recognized_stranger blocks reference l, recognized_group blocks l ls⟩
  | arrow arrow => exact List.forall_mem_nil _
  | visit block => exact List.forall_mem_nil _
  | unknown => exact absurd rfl known

end Recognized

end Flowchart.Script
