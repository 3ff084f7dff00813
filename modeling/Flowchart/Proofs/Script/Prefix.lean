import Flowchart.Proofs.Script.Pointing
import Flowchart.Proofs.Script.Registry
import Flowchart.Proofs.Script.Token
/-! The longest key that a line starts with, and the cut behind it. A key is measured in bytes and
the line is cut where as many bytes of marks are passed, with any blanks between them. Of two
beginnings of one text the one with more characters has more bytes, so counting marks comes to the
same. -/
namespace Flowchart.Script
open Flowchart.Text

section Size
variable {front back whole : List Char}

theorem byteSize_le_iff (left : front <+: whole) (right : back <+: whole) :
    byteSize front ≤ byteSize back ↔ front.length ≤ back.length := by
  constructor
  · intro small
    by_contra longer
    obtain ⟨rest, rfl⟩ := List.prefix_of_prefix_length_le right left (Nat.le_of_not_le longer)
    have some : rest ≠ [] := by
      rintro rfl
      rw [List.append_nil] at longer
      exact longer le_rfl
    have positive := byteSize_pos some
    rw [byteSize_append] at small
    omega
  · intro short
    obtain ⟨rest, rfl⟩ := List.prefix_of_prefix_length_le left right short
    rw [byteSize_append]
    exact Nat.le_add_right _ _

end Size

namespace Registry
variable {blocks : Registry} {line found : List Char} {i : Nat}

/-- Keep the key of more bytes, the earlier one where they are as many. -/
def heavier (best : Option (Nat × Nat)) (entry : Nat × List Char) : Option (Nat × Nat) :=
  match best with
  | some kept => if byteSize entry.2 ≤ kept.2 then best else some (entry.1, byteSize entry.2)
  | none => some (entry.1, byteSize entry.2)

/-- The block with the key of the most bytes that a line starts with, and how many these are. -/
def heaviestPrefix? (blocks : Registry) (line : List Char) : Option (Nat × Nat) :=
  (blocks.candidates line).foldl heavier none

def sized (entry : Nat × List Char) : Nat × Nat := (entry.1, byteSize entry.2)

theorem longer_cases (best : Option (Nat × List Char)) (entry : Nat × List Char) :
    longer best entry = best ∨ longer best entry = some entry := by
  unfold longer
  split
  · split
    · exact .inl rfl
    · exact .inr rfl
  · exact .inr rfl

theorem heavier_sized {best : Option (Nat × List Char)} {entry : Nat × List Char}
    {whole : List Char} (others : ∀ kept ∈ best, kept.2 <+: whole) (begins : entry.2 <+: whole) :
    heavier (best.map sized) entry = (longer best entry).map sized := by
  cases best with
  | none => rfl
  | some kept =>
    simp only [heavier, longer, Option.map_some, sized, byteSize_le_iff begins (others kept rfl)]
    split <;> rfl

/-- Among beginnings of one text the fold by bytes keeps what the fold by characters keeps. -/
theorem foldl_heavier {entries : List (Nat × List Char)} (whole : List Char)
    (begins : ∀ entry ∈ entries, entry.2 <+: whole) (best : Option (Nat × List Char))
    (others : ∀ kept ∈ best, kept.2 <+: whole) :
    entries.foldl heavier (best.map sized) = (entries.foldl longer best).map sized := by
  induction entries generalizing best with
  | nil => rfl
  | cons entry entries ih =>
    obtain ⟨first, later⟩ := List.forall_mem_cons.mp begins
    rw [List.foldl_cons, List.foldl_cons, heavier_sized others first]
    refine ih later _ ?_
    intro kept member
    rcases longer_cases best entry with same | same
    · exact others kept (same ▸ member)
    · rw [same, Option.mem_some_iff] at member
      exact member ▸ first

theorem heaviestPrefix?_eq (blocks : Registry) (line : List Char) :
    blocks.heaviestPrefix? line = (blocks.longestPrefix? line).map sized := by
  refine foldl_heavier (strip line) ?_ none nofun
  rintro ⟨i, found⟩ member
  obtain ⟨b, -, -, -, begins⟩ := mem_candidates.mp member
  exact begins

/-- A block whose key the line starts with, and that all other such keys are shorter than. -/
structure IsLongest (blocks : Registry) (line : List Char) (i : Nat) (found : List Char) :
    Prop where
  block : ∃ b, blocks[i]? = some b ∧ key b = found
  solid : found ≠ []
  begins : found <+: strip line
  longest : ∀ j c, blocks[j]? = some c → j ≠ i → key c <+: strip line →
    byteSize (key c) < byteSize found

theorem longestPrefix?_eq_some_iff (distinct : (blocks.map key).Nodup) :
    blocks.longestPrefix? line = some (i, found) ↔ IsLongest blocks line i found := by
  constructor
  · intro longest
    obtain ⟨⟨b, present, same, solid, begins⟩, most⟩ := exists_of_longestPrefix? longest
    refine ⟨⟨b, present, same⟩, solid, begins, ?_⟩
    intro j c other apart front
    have short := most c (List.mem_of_getElem? other) front
    refine Nat.lt_of_not_le fun long => apart ?_
    have equal : key c = found := (List.prefix_of_prefix_length_le front begins short).eq_of_length
      (Nat.le_antisymm short ((byteSize_le_iff begins front).mp long))
    exact index_unique distinct other present (equal.trans same.symm)
  · rintro ⟨⟨b, present, rfl⟩, solid, begins, longest⟩
    refine longestPrefix?_of_key distinct present solid begins ?_
    intro c member front
    obtain ⟨j, other⟩ := List.getElem?_of_mem member
    by_cases same : j = i
    · rw [same, present] at other
      rw [Option.some.inj other]
    · exact (byteSize_le_iff front begins).mp (longest j c other same front).le

end Registry

section Cut
variable {line key : List Char}

/-- What is left of a line behind its first `size` bytes of marks, when `seen` are passed. -/
def skipBytes (size : Nat) : (seen : Nat) → (line : List Char) → List Char
  | _, [] => []
  | seen, c :: cs =>
    if size ≤ seen then c :: cs
    else skipBytes size (if isBlank c then seen else seen + c.utf8Size) cs

/-- Each mark that is passed is the next one of the key, and brings its bytes. -/
theorem skipBytes_append {passed key line : List Char} (begins : key <+: strip line) :
    skipBytes (byteSize (passed ++ key)) (byteSize passed) line = skipMarks key.length line := by
  induction line generalizing passed key with
  | nil =>
    have none : key = [] := List.prefix_nil.mp begins
    rw [none]
    rfl
  | cons c line ih =>
    cases key with
    | nil =>
      rw [List.append_nil, skipBytes, if_pos le_rfl]
      rfl
    | cons d key =>
      have more : ¬ byteSize (passed ++ d :: key) ≤ byteSize passed := by
        have positive := byteSize_pos (List.cons_ne_nil d key)
        rw [byteSize_append]
        omega
      rw [strip_cons] at begins
      rw [skipBytes, if_neg more, List.length_cons, skipMarks]
      cases blank : isBlank c with
      | true =>
        rw [blank, if_pos rfl] at begins
        exact ih begins
      | false =>
        rw [blank, if_neg Bool.false_ne_true] at begins
        obtain ⟨rfl, later⟩ := List.cons_prefix_cons.mp begins
        have next := @ih (passed ++ [d]) key later
        rw [List.append_assoc, List.singleton_append, byteSize_append passed [d]] at next
        exact next

/-- A line is cut right behind the last mark of a key that it starts with. -/
structure CutBehind (key line rest : List Char) : Prop where
  front : ∃ front, line = front ++ rest ∧ strip front = key ∧ front.getLast? = key.getLast? ∧
    Report.charCount? (byteSize front) line = some front.length
  rest : strip line = key ++ strip rest

theorem exists_front (begins : key <+: strip line) : ∃ front rest, line = front ++ rest ∧
    strip front = key ∧ front.getLast? = key.getLast? := by
  induction line generalizing key with
  | nil => exact ⟨[], [], rfl, (List.prefix_nil.mp begins).symm, by rw [List.prefix_nil.mp begins]⟩
  | cons c line ih =>
    cases key with
    | nil => exact ⟨[], c :: line, rfl, rfl, rfl⟩
    | cons d key =>
      rw [strip_cons] at begins
      cases blank : isBlank c with
      | true =>
        rw [blank, if_pos rfl] at begins
        obtain ⟨front, rest, rfl, same, last⟩ := ih begins
        refine ⟨c :: front, rest, rfl, ?_, ?_⟩
        · rw [strip_cons, blank, if_pos rfl, same]
        · rw [List.getLast?_cons, last, List.getLast?_cons, Option.getD_some]
      | false =>
        rw [blank, if_neg Bool.false_ne_true] at begins
        obtain ⟨rfl, later⟩ := List.cons_prefix_cons.mp begins
        obtain ⟨front, rest, rfl, same, last⟩ := ih later
        refine ⟨d :: front, rest, rfl, ?_, ?_⟩
        · rw [strip_cons, blank, if_neg Bool.false_ne_true, same]
        · rw [List.getLast?_cons, last, List.getLast?_cons]

theorem cutBehind_skipMarks (begins : key <+: strip line) :
    CutBehind key line (skipMarks key.length line) := by
  obtain ⟨front, rest, rfl, rfl, last⟩ := exists_front begins
  have mark : ∀ c, front.getLast? = some c → isBlank c = false := by
    intro c final
    have member := List.mem_of_getLast? (last.symm.trans final)
    simpa using (List.mem_filter.mp member).2
  rw [skipMarks_append mark]
  exact ⟨⟨front, rfl, rfl, last, charCount?_append front rest⟩, strip_append front rest⟩

end Cut

/-- A line that begins with keys has one longest key, of one block. Measured in bytes it is the same
one, and the line is cut right behind it: what is taken off is the key when blanks do not count, and
what is left is the rest of the line. -/
theorem longestPrefix?_cut {blocks : Registry} (distinct : (blocks.map key).Nodup)
    (line : List Char) :
    (blocks.longestPrefix? line = none ↔ ∀ b ∈ blocks, key b ≠ [] → ¬ key b <+: strip line) ∧
      (∀ i found, blocks.longestPrefix? line = some (i, found) ↔
        Registry.IsLongest blocks line i found) ∧
      blocks.heaviestPrefix? line = (blocks.longestPrefix? line).map Registry.sized ∧
      ∀ i found, blocks.longestPrefix? line = some (i, found) →
        skipBytes (byteSize found) 0 line = skipMarks found.length line ∧
          CutBehind found line (skipMarks found.length line) := by
  refine ⟨?_, fun i found => Registry.longestPrefix?_eq_some_iff distinct,
    Registry.heaviestPrefix?_eq blocks line, ?_⟩
  · rw [Registry.longestPrefix?_eq_none_iff]
    exact forall₂_congr fun b _ => not_imp_not.symm
  · intro i found longest
    have begins := ((Registry.longestPrefix?_eq_some_iff distinct).mp longest).begins
    exact ⟨@skipBytes_append [] found line begins, cutBehind_skipMarks begins⟩

/-- A key that goes on where another one ends, with a wide blank and a letter of two bytes. -/
theorem longestPrefix?_cut_longer :
    let blocks : Registry := [⟨.process, "ä", "p[ä]", none⟩, ⟨.terminatorEnd, "End", "te()", none⟩,
      ⟨.process, "ä", "p[ ä ]a>!te()", none⟩]
    let line := "p[\u3000ä]  a>! te() te()".toList
    (blocks.map key).Nodup ∧ blocks.heaviestPrefix? line = some (2, 12) ∧
      skipBytes 12 0 line = " te()".toList ∧
      (blocks.longestPrefix? line = none ↔ ∀ b ∈ blocks, key b ≠ [] → ¬ key b <+: strip line) ∧
      (∀ i found, blocks.longestPrefix? line = some (i, found) ↔
        Registry.IsLongest blocks line i found) ∧
      blocks.heaviestPrefix? line = (blocks.longestPrefix? line).map Registry.sized ∧
      ∀ i found, blocks.longestPrefix? line = some (i, found) →
        skipBytes (byteSize found) 0 line = skipMarks found.length line ∧
          CutBehind found line (skipMarks found.length line) := by
  intro blocks line
  have distinct : (blocks.map key).Nodup := by decide +kernel
  exact ⟨distinct, by decide +kernel, by decide +kernel, longestPrefix?_cut distinct line⟩

end Flowchart.Script
