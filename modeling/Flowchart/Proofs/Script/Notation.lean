import Flowchart.Proofs.Script.Language
import Flowchart.Proofs.Script.Spelling
/-! How arrows and the openings of groups are written, alone or behind a token, and what lines say
that are written so. A label stands between stars, so only an exclamation mark in it can mislead. -/
namespace Flowchart.Script
open Flowchart.Text

def starred : Option String → List Char
  | none => []
  | some label => '*' :: (label.toList ++ ['*'])

namespace Arrow

def text (a : Arrow) : List Char := 'a' :: (starred a.label ++ [a.direction.mark])

/-- The arrow of a group, and the bracket behind it. -/
def opening (a : Arrow) : List Char := 'm' :: (a.text ++ ['['])

end Arrow

/-- A label that is written between stars is read as it is. -/
theorem arrowLabel_starred {text : String} (clean : CleanLabel (some text)) :
    arrowLabel (dropStar (text.toList ++ ['*'])) = some text := by
  obtain ⟨solid, trimmed⟩ := clean text rfl
  have kept : trim text.toList = text.toList := trimmed
  have some : text.toList ≠ [] := by simpa using solid
  rw [dropStar, if_pos List.getLast?_concat, List.dropLast_concat, arrowLabel, kept]
  simp [some]

theorem arrow?_text {a : Arrow} (clean : CleanLabel a.label) : arrow? a.text = some a := by
  obtain ⟨label, direction⟩ := a
  cases label with
  | none => cases direction <;> rfl
  | some text =>
      have split : Arrow.text ⟨some text, direction⟩ =
          'a' :: '*' :: ((text.toList ++ ['*']) ++ [direction.mark]) := rfl
      have ended : splitDirection ((text.toList ++ ['*']) ++ [direction.mark]) =
          (text.toList ++ ['*'], direction) := by
        rw [splitDirection, List.getLast?_concat, List.dropLast_concat]
        cases direction <;> rfl
      rw [split, arrow?_star, endedArrow, ended, arrowLabel_starred clean]

theorem groupOpen?_opening {a : Arrow} (clean : CleanLabel a.label) :
    groupOpen? a.opening = some a := by
  obtain ⟨label, direction⟩ := a
  cases label with
  | none => cases direction <;> rfl
  | some text =>
      have split : Arrow.opening ⟨some text, direction⟩ =
          'm' :: 'a' :: '*' :: ((text.toList ++ ['*']) ++ [direction.mark, '[']) := by
        simp [Arrow.opening, Arrow.text, starred]
      rw [split, groupOpen?_star, arrowLabel_starred clean]

namespace Arrow
variable (a : Arrow)

theorem getLast?_text : a.text.getLast? = some a.direction.mark := by
  rw [text, ← List.cons_append, List.getLast?_concat]

theorem unopened_text : a.text.getLast? ≠ some '[' := by
  rw [a.getLast?_text]
  cases a.direction <;> decide

theorem getLast?_opening : a.opening.getLast? = some '[' := by
  rw [opening, ← List.cons_append, List.getLast?_concat]

variable {a}

theorem not_mem_text {c : Char} (other : c ∉ ['a', '*', '>', '<'])
    (absent : ∀ text ∈ a.label, c ∉ text.toList) : c ∉ a.text := by
  obtain ⟨label, direction⟩ := a
  have mark : c ≠ direction.mark := by
    cases direction <;> (rintro rfl; exact absurd other (by decide))
  cases label with
  | none => simp_all [text, starred]
  | some label =>
      have absent := absent label rfl
      simp_all [text, starred]

theorem not_mem_opening {c : Char} (other : c ∉ ['m', 'a', '*', '>', '<', '['])
    (absent : ∀ text ∈ a.label, c ∉ text.toList) : c ∉ a.opening := by
  have inside : c ∉ a.text := not_mem_text (by simp_all) absent
  simp_all [opening]

theorem solid_text : Solid a.text := by
  refine ⟨List.cons_ne_nil _ _, trimmed_iff.mpr ⟨?_, ?_⟩⟩
  · rintro c ⟨⟩
    decide
  · rw [getLast?_text]
    rintro c ⟨⟩
    cases a.direction <;> decide

theorem solid_opening : Solid a.opening := by
  refine ⟨List.cons_ne_nil _ _, trimmed_iff.mpr ⟨?_, ?_⟩⟩
  · rintro c ⟨⟩
    decide
  · rw [getLast?_opening]
    rintro c ⟨⟩
    decide

theorem solid_reference {target : List Char} (shaped : Shaped target) :
    Solid (a.text ++ '!' :: target) := solid_text.append ['!'] shaped.solid

end Arrow

section Statement
variable {blocks : Registry} (sound : blocks.Sound) {a : Arrow}
include sound

theorem statement_text (clean : CleanLabel a.label)
    (unmarked : ∀ text ∈ a.label, '!' ∉ text.toList) : statement blocks a.text = .arrow a := by
  rw [statement_of_arrow sound rfl a.unopened_text,
    backReference?_unmarked (Arrow.not_mem_text (by decide) unmarked), arrow?_text clean]

theorem statement_back (clean : CleanLabel a.label)
    (unmarked : ∀ text ∈ a.label, '!' ∉ text.toList) {target : List Char} (shaped : Shaped target) :
    statement blocks (a.text ++ '!' :: target) = .back a target := by
  have last : (a.text ++ '!' :: target).getLast? ≠ some '[' := by
    rw [List.getLast?_append_of_ne_nil _ (List.cons_ne_nil _ _),
      List.getLast?_cons_of_ne_nil shaped.ne_nil]
    exact shaped.getLast?_ne (by decide)
  rw [statement_of_arrow sound rfl last,
    backReference?_token shaped (arrow?_text clean) (Arrow.not_mem_text (by decide) unmarked)]

theorem statement_opening (clean : CleanLabel a.label) : statement blocks a.opening = .group a := by
  have keyless : blocks.longestPrefix? a.opening = none :=
    sound.longestPrefix?_eq_none rfl (by decide) (by decide)
  have other : backReference? a.opening = none := backReference?_eq_none (by simp [Arrow.opening])
  unfold statement inlineBack?
  simp only [keyless, other, groupOpen?_opening clean]

end Statement

end Flowchart.Script
