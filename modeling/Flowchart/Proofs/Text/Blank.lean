import Flowchart.Text.Blank
import Mathlib.Data.List.DropRight
/-! Trimming and stripping. A text is trimmed when no blank stands at either end of it, and what
trimming leaves is the same text when blanks do not count. -/
namespace Flowchart.Text

/-- Every character is a blank. -/
def AllBlank (cs : List Char) : Prop := ∀ c ∈ cs, isBlank c = true

/-- No blank stands at the beginning or at the end. -/
def Trimmed (cs : List Char) : Prop := trim cs = cs

instance (cs : List Char) : Decidable (Trimmed cs) := inferInstanceAs (Decidable (trim cs = cs))

theorem trimEnd_eq_rdropWhile (cs : List Char) : trimEnd cs = cs.rdropWhile isBlank := rfl

theorem trimStart_eq_self_iff {cs : List Char} :
    trimStart cs = cs ↔ ∀ c, cs.head? = some c → isBlank c = false := by
  cases cs with
  | nil => simp [trimStart]
  | cons c cs =>
      cases blank : isBlank c with
      | false => simp [trimStart, blank]
      | true =>
          have shorter : (cs.dropWhile isBlank).length ≤ cs.length := List.length_dropWhile_le _ _
          simp only [trimStart, List.dropWhile_cons, blank, if_true, List.head?_cons,
            Option.some.injEq, forall_eq', Bool.true_eq_false, iff_false]
          intro same
          have long := congrArg List.length same
          simp only [List.length_cons] at long
          omega

theorem trimEnd_eq_self_iff {cs : List Char} :
    trimEnd cs = cs ↔ ∀ c, cs.getLast? = some c → isBlank c = false := by
  rw [trimEnd, List.reverse_eq_iff, ← List.head?_reverse]
  exact trimStart_eq_self_iff

theorem trimmed_iff {cs : List Char} :
    Trimmed cs ↔ (∀ c, cs.head? = some c → isBlank c = false) ∧
      ∀ c, cs.getLast? = some c → isBlank c = false := by
  rw [← trimStart_eq_self_iff, ← trimEnd_eq_self_iff]
  constructor
  · intro same
    have front : (trimStart cs).length ≤ cs.length := List.length_dropWhile_le _ _
    obtain ⟨rest, split⟩ := List.rdropWhile_prefix isBlank (trimStart cs)
    have whole : trimStart cs = cs := by
      refine (List.dropWhile_suffix isBlank).eq_of_length_le ?_
      have long := congrArg List.length split
      rw [← trimEnd_eq_rdropWhile] at long
      rw [show trimEnd (trimStart cs) = cs from same] at long
      simp only [List.length_append] at long
      exact Nat.le_trans (Nat.le_add_right _ _) long.le
    exact ⟨whole, by rw [Trimmed, trim, whole] at same; exact same⟩
  · rintro ⟨front, back⟩
    rw [Trimmed, trim, front, back]

theorem trim_trim (cs : List Char) : Trimmed (trim cs) := by
  refine trimmed_iff.mpr ⟨?_, ?_⟩
  · intro c head
    obtain ⟨rest, split⟩ := List.rdropWhile_prefix isBlank (trimStart cs)
    rw [← trimEnd_eq_rdropWhile, ← trim] at split
    have settled : trimStart (trimStart cs) = trimStart cs := List.dropWhile_idempotent isBlank cs
    refine trimStart_eq_self_iff.mp settled c ?_
    rw [← split, List.head?_append, head, Option.some_or]
  · exact trimEnd_eq_self_iff.mp (List.rdropWhile_idempotent isBlank (trimStart cs))

/-- What trimming takes away are blanks in front and behind. -/
theorem exists_trim (cs : List Char) : ∃ before behind, cs = before ++ (trim cs ++ behind) ∧
    AllBlank before ∧ AllBlank behind := by
  refine ⟨cs.takeWhile isBlank, (trimStart cs).rtakeWhile isBlank, ?_, ?_, ?_⟩
  · rw [trim, trimEnd_eq_rdropWhile, List.rdropWhile_append_rtakeWhile]
    exact List.takeWhile_append_dropWhile.symm
  · exact fun c member => List.mem_takeWhile_imp member
  · exact fun c member => List.mem_rtakeWhile_imp member

theorem trim_part (cs : List Char) : trim cs <:+: cs := by
  obtain ⟨before, behind, split, -, -⟩ := exists_trim cs
  exact ⟨before, behind, by rw [List.append_assoc]; exact split.symm⟩

theorem AllBlank.trim_append {bs : List Char} (blank : AllBlank bs) (cs : List Char) :
    trim (bs ++ cs) = trim cs := by
  rw [trim, trim, trimStart, List.dropWhile_append, List.dropWhile_eq_nil_iff.mpr blank]
  rfl

theorem trim_append_blank (cs : List Char) {bs : List Char} (blank : AllBlank bs) :
    trim (cs ++ bs) = trim cs := by
  rw [trim, trim, trimStart, List.dropWhile_append]
  cases left : cs.dropWhile isBlank with
  | nil => rw [trimStart, left]; exact congrArg trimEnd (List.dropWhile_eq_nil_iff.mpr blank)
  | cons c rest =>
      rw [trimStart, left, List.isEmpty_cons, if_neg Bool.false_ne_true, trimEnd, trimEnd,
        List.reverse_append, List.dropWhile_append,
        List.dropWhile_eq_nil_iff.mpr fun d member => blank d (List.mem_reverse.mp member)]
      rfl

theorem strip_cons (c : Char) (cs : List Char) :
    strip (c :: cs) = if isBlank c then strip cs else c :: strip cs := by
  rw [strip, List.filter_cons]
  cases isBlank c <;> rfl

theorem strip_append (cs ds : List Char) : strip (cs ++ ds) = strip cs ++ strip ds :=
  List.filter_append ..

theorem strip_eq_nil_iff {cs : List Char} : strip cs = [] ↔ AllBlank cs := by
  simp [strip, AllBlank, List.filter_eq_nil_iff]

theorem strip_trim (cs : List Char) : strip (trim cs) = strip cs := by
  obtain ⟨before, behind, split, front, back⟩ := exists_trim cs
  conv => rhs; rw [split, strip_append, strip_append, strip_eq_nil_iff.mpr front,
    strip_eq_nil_iff.mpr back]
  rw [List.nil_append, List.append_nil]

/-- Stripping leaves the ends of a trimmed text as they are. -/
theorem Trimmed.strip_ends {cs : List Char} (trimmed : Trimmed cs) :
    (strip cs).head? = cs.head? ∧ (strip cs).getLast? = cs.getLast? := by
  obtain ⟨front, back⟩ := trimmed_iff.mp trimmed
  constructor
  · cases cs with
    | nil => rfl
    | cons c cs =>
        rw [strip_cons, front c rfl, if_neg Bool.false_ne_true]
        rfl
  · rcases cs.eq_nil_or_concat' with rfl | ⟨cs, c, rfl⟩
    · rfl
    · have mark : strip [c] = [c] := by
        rw [strip_cons, back c List.getLast?_concat, if_neg Bool.false_ne_true]
        rfl
      rw [strip_append, mark, List.getLast?_concat, List.getLast?_concat]

end Flowchart.Text
