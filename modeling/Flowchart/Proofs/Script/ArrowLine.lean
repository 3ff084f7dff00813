import Flowchart.Proofs.Script.Effect
import Flowchart.Proofs.Script.Notation
/-! Lines that are an arrow with a label, and what a walk makes of them. Such a line points ahead
and does nothing else, if there is no exclamation mark in its label. A back-reference is looked for
before an arrow is, and with a mark in the label there always is one. -/
namespace Flowchart.Script
open Flowchart.Text

section Statement
variable {blocks : Registry} (sound : blocks.Sound) {label : String} (direction : Direction)
include sound

theorem statement_labelled (solid : Solid label.toList) (unmarked : '!' ∉ label.toList) :
    statement blocks (Arrow.text ⟨some label, direction⟩) = .arrow ⟨some label, direction⟩ := by
  refine statement_text sound ?_ ?_
  · rintro _ ⟨⟩
    exact ⟨by simpa using solid.ne_nil, solid.trimmed⟩
  · rintro _ ⟨⟩
    exact unmarked

/-- With an exclamation mark in its label a line refers back to what stands behind the first one,
and the end of the arrow is taken for a part of that. -/
theorem statement_marked {front behind : List Char}
    (marked : label.toList = front ++ '!' :: behind) (first : '!' ∉ front) :
    ∃ a, arrow? ('a' :: '*' :: front) = some a ∧
      statement blocks (Arrow.text ⟨some label, direction⟩) =
        .back a (trim (behind ++ ['*', direction.mark])) := by
  have split : Arrow.text ⟨some label, direction⟩ =
      ('a' :: '*' :: front) ++ '!' :: (behind ++ ['*', direction.mark]) := by
    simp [Arrow.text, starred, marked]
  have reference : backReference? (Arrow.text ⟨some label, direction⟩) =
      some (endedArrow front, trim (behind ++ ['*', direction.mark])) := by
    rw [split, backReference?_mark (by simpa using first) (by simp), arrow?_star, Option.map_some]
  refine ⟨endedArrow front, arrow?_star front, ?_⟩
  rw [statement_of_arrow sound rfl (Arrow.unopened_text _), reference]

end Statement

namespace Walk

/-- A line that is an arrow with a label leaves it pending, and leaves all else as it is, if there
is no exclamation mark in the label and not otherwise. -/
theorem step_labelled_iff (ds : List Declaration) (w : Walk) {l : Line} (ls : List Line)
    {label : String} {direction : Direction} (solid : Solid label.toList)
    (written : l.text = Arrow.text ⟨some label, direction⟩) :
    w.step (declaredBlocks ds) l ls = ({ w with pending := some ⟨some label, direction⟩ }, ls) ↔
      '!' ∉ label.toList := by
  have sound := declaredBlocks_sound ds
  constructor
  · intro pointed mark
    obtain ⟨front, behind, marked, first⟩ := List.eq_append_cons_of_mem mark
    obtain ⟨a, -, said⟩ := statement_marked sound direction marked first
    -- a back-reference leaves no arrow pending
    have none : (w.step (declaredBlocks ds) l ls).1.pending = none := by
      rw [step_eq, written, said]
      rfl
    rw [pointed] at none
    cases none
  · intro unmarked
    rw [step, written, statement_labelled sound direction solid unmarked]

/-- Tokens and the opening of a group in a label are nothing but its text. -/
theorem step_labelled_iff_group :
    let blocks := declaredBlocks [⟨"ts()".toList, ⟨0, 4⟩⟩, ⟨"te()".toList, ⟨5, 9⟩⟩]
    let w : Walk := { previous := some 0 }
    w.step blocks ⟨"a*te() ma*>[*<".toList, 19⟩ [] =
      ({ w with pending := some ⟨some "te() ma*>[", .backward⟩ }, []) :=
  (step_labelled_iff [⟨"ts()".toList, ⟨0, 4⟩⟩, ⟨"te()".toList, ⟨5, 9⟩⟩] { previous := some 0 } []
    ⟨by decide, by decide⟩ (by decide)).mpr (by decide)

/-- The walk leaves its block for a target that is not there, and the label is lost. -/
theorem step_labelled_exclaimed :
    let blocks := declaredBlocks [⟨"ts()".toList, ⟨0, 4⟩⟩, ⟨"te()".toList, ⟨5, 9⟩⟩]
    let w : Walk := { previous := some 0 }
    let label := "Stop!Now"
    let l : Line := ⟨Arrow.text ⟨some label, .forward⟩, 19⟩
    Solid label.toList ∧ '\n' ∉ label.toList ∧
      w.step blocks l [] ≠ ({ w with pending := some ⟨some label, .forward⟩ }, []) ∧
      (w.step blocks l []).1.previous = none ∧ (w.step blocks l []).1.pending = none ∧
      (w.step blocks l []).1.diagnostics.length = 1 := by
  refine ⟨⟨by decide, by decide⟩, ?_⟩
  decide +kernel

end Walk
end Flowchart.Script
