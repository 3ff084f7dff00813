import Flowchart.Decimal.Shortest
/-! The characters of printed floating point numbers. -/
namespace Flowchart.Decimal

/-- A digit, the point, the sign or a letter from the name of a value that is no number. -/
def isNumeral (c : Char) : Bool := c.isDigit || ['.', '-', 'N', 'a', 'i', 'n', 'f'].contains c

theorem all_repr (n : Nat) : n.repr.toList.all isNumeral = true := by
  rw [Nat.repr, String.toList_ofList, List.all_eq_true]
  intro c inside
  have digit : c.isDigit = true := Nat.isDigit_of_mem_toDigits (by decide) (by decide) inside
  rw [isNumeral, digit, Bool.true_or]

theorem all_zeros (count : Nat) : (List.replicate count '0').all isNumeral = true := by
  rw [List.all_eq_true]
  intro c inside
  rw [List.eq_of_mem_replicate inside]
  decide

theorem all_positional (d : Digits) : d.positional.toList.all isNumeral = true := by
  have digits := all_repr d.value
  have marks : isNumeral '0' = true ∧ isNumeral '.' = true := by decide
  unfold Digits.positional
  simp only
  split
  · split
    · rw [String.toList_ofList, List.all_append, List.all_cons, marks.2, Bool.true_and,
        ← List.all_append, List.take_append_drop, digits]
    · rw [String.toList_ofList, List.all_cons, List.all_cons, List.all_append, marks.1, marks.2,
        all_zeros, digits]
      rfl
  · rw [String.toList_ofList, List.all_append, digits, all_zeros, Bool.and_self]

theorem all_plain (x : Float) : (plain x).toList.all isNumeral = true := by
  unfold plain
  split
  · decide
  · next negative _ => cases negative <;> decide
  · next b _ =>
    have digits := all_positional (shortest .up b.mantissa b.exponent)
    dsimp only
    split
    · rw [String.toList_append, List.all_append, digits, Bool.and_true]
      decide
    · exact digits

end Flowchart.Decimal
