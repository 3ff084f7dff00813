import Flowchart.Proofs.Script.Place
/-! Lines between others. What stands between two line breaks is read by itself, and the blanks
around a text, further breaks among them, do not show. -/
namespace Flowchart.Script
open Flowchart.Text

instance (cs : List Char) : Decidable (AllBlank cs) :=
  List.decidableBAll (fun c => isBlank c = true) cs

instance (cs : List Char) : Decidable (Solid cs) :=
  decidable_of_iff (cs ≠ [] ∧ Trimmed cs)
    ⟨fun both => ⟨both.1, both.2⟩, fun solid => ⟨solid.ne_nil, solid.trimmed⟩⟩

theorem texts_lines_break (front back : List Char) :
    texts (lines (front ++ '\n' :: back)) = texts (lines front) ++ texts (lines back) := by
  rw [lines_append, texts_lines back, ← texts_trimLines (byteSize front + 1), texts,
    List.map_append]
  rfl

/-- Behind a line break a new line begins. -/
theorem texts_lines_behind {front : List Char} (ended : ∀ c ∈ front.getLast?, c = '\n')
    (cs : List Char) : texts (lines (front ++ cs)) = texts (lines front) ++ texts (lines cs) := by
  rcases front.eq_nil_or_concat' with rfl | ⟨front, c, rfl⟩
  · rfl
  · obtain rfl := ended c List.getLast?_concat
    rw [List.append_assoc, List.singleton_append, texts_lines_break, texts_lines_break]
    exact congrArg (· ++ texts (lines cs)) (List.append_nil _).symm

/-- In front of a line break a line ends. -/
theorem texts_lines_before {back : List Char} (broken : ∀ c ∈ back.head?, c = '\n')
    (cs : List Char) : texts (lines (cs ++ back)) = texts (lines cs) ++ texts (lines back) := by
  cases back with
  | nil => rw [List.append_nil]; exact (List.append_nil _).symm
  | cons c back =>
      obtain rfl := broken c rfl
      exact (texts_lines_break cs back).trans
        (congrArg (texts (lines cs) ++ ·) (texts_lines_break [] back).symm)

section Blanks
variable {bs cs ds : List Char}

theorem texts_lines_blank (blank : AllBlank bs) : texts (lines bs) = [] := by
  rw [texts_lines, List.filter_eq_nil_iff]
  intro text member
  obtain ⟨raw, inside, rfl⟩ := List.mem_map.mp member
  have nothing : AllBlank raw := by
    intro c here
    refine blank c ?_
    rw [← flatten_rawLines bs]
    exact List.mem_flatten_of_mem inside here
  have gone := nothing.trim_append []
  rw [List.append_nil] at gone
  rw [gone]
  exact Bool.false_ne_true

/-- A text with nothing but blanks around it is all there is to read. -/
theorem texts_lines_solid (solid : Solid cs) (whole : '\n' ∉ cs) (before : AllBlank bs)
    (behind : AllBlank ds) : texts (lines (bs ++ (cs ++ ds))) = [cs] := by
  induction bs using line_induction with
  | whole bs unbroken =>
      by_cases broken : '\n' ∈ ds
      · obtain ⟨near, far, rfl, first⟩ := List.eq_append_cons_of_mem broken
        have blanks := List.forall_mem_append.mp behind
        have line : '\n' ∉ bs ++ (cs ++ near) := by simp [unbroken, whole, first]
        rw [← List.append_assoc, ← List.append_assoc, texts_lines_break, List.append_assoc,
          texts_lines_blank (List.forall_mem_cons.mp blanks.2).2, texts_lines,
          rawLines_of_whole line (by simp [solid.ne_nil]), List.map_singleton,
          trim_solid solid before blanks.1]
        simp [solid.ne_nil]
      · have line : '\n' ∉ bs ++ (cs ++ ds) := by simp [unbroken, whole, broken]
        rw [texts_lines, rawLines_of_whole line (by simp [solid.ne_nil]), List.map_singleton,
          trim_solid solid before behind]
        simp [solid.ne_nil]
  | line l rest unbroken ih =>
      have blanks := List.forall_mem_append.mp before
      rw [List.append_assoc, List.cons_append, texts_lines_break, texts_lines_blank blanks.1]
      exact ih (List.forall_mem_cons.mp blanks.2).2

end Blanks
end Flowchart.Script
