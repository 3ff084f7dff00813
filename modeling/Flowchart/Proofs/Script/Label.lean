import Flowchart.Script.Label
import Flowchart.Proofs.Text.Replace
/-! Labels in their payload. Blanks, one kind of quotes and blanks again stand around a label, and
any other label that is not in quotes itself can take its place. -/
namespace Flowchart.Script
open Flowchart.Text

def isQuote (c : Char) : Bool := c == '"' || c == '\''

/-- A label that no quotes have to be told apart from. -/
def Plain (text : List Char) : Prop := ∀ c ∈ text, isQuote c = false

instance (text : List Char) : Decidable (Plain text) :=
  List.decidableBAll (fun c => isQuote c = false) text

theorem unquote?_eq_some_iff {mark text inner : List Char} :
    unquote? mark text = some inner ↔ text = mark ++ (inner ++ mark) ∧ inner ≠ [] := by
  constructor
  · intro read
    unfold unquote? at read
    split at read
    · next front =>
      obtain ⟨rest, rfl⟩ := List.isPrefixOf_iff_prefix.mp front
      simp only [List.drop_left, Option.ite_none_right_eq_some, Bool.and_eq_true,
        decide_eq_true_eq, Option.some.injEq] at read
      obtain ⟨⟨back, long⟩, rfl⟩ := read
      obtain ⟨inner, rfl⟩ := List.isSuffixOf_iff_suffix.mp back
      rw [List.length_append] at long
      rw [List.length_append, Nat.add_sub_cancel, List.take_left]
      exact ⟨rfl, List.ne_nil_of_length_pos (by omega)⟩
    · cases read
  · rintro ⟨rfl, solid⟩
    have long := List.length_pos_of_ne_nil solid
    unfold unquote?
    rw [if_pos (List.isPrefixOf_iff_prefix.mpr ⟨_, rfl⟩)]
    simp [long]

theorem labelText_eq (payload : List Char) : labelText payload =
    trim ((quoteMarks.findSome? (unquote? · (trim payload))).getD (trim payload)) := rfl

theorem unquote?_eq_none {mark text : List Char} (apart : ¬ mark <+: text) :
    unquote? mark text = none := by
  unfold unquote?
  rw [if_neg (mt List.isPrefixOf_iff_prefix.mp apart)]

/-- No quotes enclose the text, so it is not taken for a quoted one. -/
def Unquoted (text : List Char) : Prop := quoteMarks.findSome? (unquote? · text) = none

instance (text : List Char) : Decidable (Unquoted text) :=
  inferInstanceAs (Decidable (quoteMarks.findSome? (unquote? · text) = none))

theorem unquoted_iff {text : List Char} :
    Unquoted text ↔ ∀ mark ∈ quoteMarks, ∀ inner, unquote? mark text ≠ some inner := by
  rw [Unquoted, List.findSome?_eq_none_iff]
  exact forall₂_congr fun _ _ => Option.eq_none_iff_forall_ne_some

theorem exists_isQuote {mark : List Char} (member : mark ∈ quoteMarks) :
    ∃ c ∈ mark, isQuote c = true := by
  revert mark
  simp [quoteMarks, isQuote]

theorem Plain.unquoted {text : List Char} (plain : Plain text) : Unquoted text := by
  refine unquoted_iff.mpr ?_
  intro mark member inner read
  obtain ⟨c, inside, quote⟩ := exists_isQuote member
  obtain ⟨rfl, -⟩ := unquote?_eq_some_iff.mp read
  rw [plain c (List.mem_append_left _ inside)] at quote
  cases quote

/-- One quote on each side is not read as a part of three. -/
theorem unquote?_three {q : Char} {inner : List Char} (unquoted : unquote? [q] inner = none) :
    unquote? [q, q, q] ([q] ++ (inner ++ [q])) = none := by
  refine Option.eq_none_iff_forall_ne_some.mpr ?_
  intro core read
  obtain ⟨whole, -⟩ := unquote?_eq_some_iff.mp read
  have inside : inner = [q] ++ ((q :: (core ++ [q])) ++ [q]) := by
    have same : [q] ++ (inner ++ [q]) = [q] ++ (([q] ++ ((q :: (core ++ [q])) ++ [q])) ++ [q]) :=
      whole.trans (by simp)
    exact List.append_cancel_right (List.append_cancel_left same)
  rw [unquote?_eq_some_iff.mpr ⟨inside, List.cons_ne_nil _ _⟩] at unquoted
  cases unquoted

/-- A text in quotes is read without them, and with no other quotes taken for them. -/
theorem unquote?_quoted {mark inner : List Char} (member : mark ∈ quoteMarks)
    (unquoted : Unquoted inner) (solid : inner ≠ []) :
    quoteMarks.findSome? (unquote? · (mark ++ (inner ++ mark))) = some inner := by
  have whole : unquote? mark (mark ++ (inner ++ mark)) = some inner :=
    unquote?_eq_some_iff.mpr ⟨rfl, solid⟩
  -- the marks that are tried before the right one do not enclose the text
  have pass {earlier later : List (List Char)} (marks : quoteMarks = earlier ++ mark :: later)
      (apart : ∀ m ∈ earlier, unquote? m (mark ++ (inner ++ mark)) = none) :
      quoteMarks.findSome? (unquote? · (mark ++ (inner ++ mark))) = some inner :=
    List.findSome?_eq_some_iff.mpr ⟨earlier, mark, later, marks, whole, apart⟩
  have alone : ∀ m ∈ quoteMarks, unquote? m inner = none := List.findSome?_eq_none_iff.mp unquoted
  have other {m : List Char} (apart : ¬ m <+: mark ++ (inner ++ mark)) :
      unquote? m (mark ++ (inner ++ mark)) = none := unquote?_eq_none apart
  simp only [quoteMarks, List.mem_cons, List.not_mem_nil, or_false] at member
  rcases member with rfl | rfl | rfl | rfl
  · exact pass (List.nil_append _).symm (List.forall_mem_nil _)
  · exact @pass [_] _ rfl (List.forall_mem_singleton.mpr (other (by simp)))
  · have three := unquote?_three (alone ['"'] (by decide))
    exact @pass [_, _] _ rfl
      (List.forall_mem_cons.mpr ⟨three, List.forall_mem_singleton.mpr (other (by simp))⟩)
  · have three := unquote?_three (alone ['\''] (by decide))
    exact @pass [_, _, _] _ rfl (List.forall_mem_cons.mpr ⟨other (by simp),
      List.forall_mem_cons.mpr ⟨three, List.forall_mem_singleton.mpr (other (by simp))⟩⟩)

theorem trimmed_quoted {mark : List Char} (member : mark ∈ quoteMarks) (inner : List Char) :
    Trimmed (mark ++ (inner ++ mark)) := by
  have solid : ∀ m ∈ quoteMarks, m ≠ [] ∧ Trimmed m := by decide
  obtain ⟨some, trimmed⟩ := solid mark member
  refine trimmed_iff.mpr ⟨?_, ?_⟩
  · rw [List.head?_append_of_ne_nil _ some]
    exact (trimmed_iff.mp trimmed).1
  · rw [← List.append_assoc, List.getLast?_append_of_ne_nil _ some]
    exact (trimmed_iff.mp trimmed).2

theorem trim_solid {front text back : List Char} (solid : Solid text) (blankFront : AllBlank front)
    (blankBack : AllBlank back) : trim (front ++ (text ++ back)) = text := by
  rw [blankFront.trim_append, trim_append_blank text blankBack]
  exact solid.trimmed

/-- Blanks around a text do not enclose it in quotes. -/
theorem Unquoted.pad {left text right : List Char} (unquoted : Unquoted text) (solid : Solid text)
    (blankLeft : AllBlank left) (blankRight : AllBlank right) :
    Unquoted (left ++ (text ++ right)) := by
  refine unquoted_iff.mpr ?_
  intro mark member inner read
  obtain ⟨whole, some⟩ := unquote?_eq_some_iff.mp read
  have quoted : text = mark ++ (inner ++ mark) := by
    rw [← trim_solid solid blankLeft blankRight, whole]
    exact trimmed_quoted member inner
  exact unquoted_iff.mp unquoted mark member inner (unquote?_eq_some_iff.mpr ⟨quoted, some⟩)

/-- With only blanks around it, a text in quotes is read as another. -/
theorem unquoted_of_labelText {front text back : List Char} (solid : Solid text)
    (blankFront : AllBlank front) (blankBack : AllBlank back)
    (read : labelText (front ++ (text ++ back)) = text) : Unquoted text := by
  rw [labelText_eq, trim_solid solid blankFront blankBack] at read
  cases found : quoteMarks.findSome? (unquote? · text) with
  | none => exact found
  | some inner =>
      obtain ⟨mark, member, quoted⟩ := List.exists_of_findSome?_eq_some found
      have whole := congrArg List.length (unquote?_eq_some_iff.mp quoted).1
      have marked : mark ≠ [] := by rintro rfl; exact absurd member (by decide)
      have long := List.length_pos_of_ne_nil marked
      have short := (trim_part inner).length_le
      rw [found, Option.getD_some] at read
      rw [read, whole] at short
      simp only [List.length_append] at short
      omega

/-- What may stand in front of a label and behind it. -/
structure Framed (mark front back : List Char) : Prop where
  mark_mem : mark ∈ [] :: quoteMarks
  front_eq : ∃ before left, front = before ++ (mark ++ left) ∧ AllBlank before ∧ AllBlank left
  back_eq : ∃ right behind, back = right ++ (mark ++ behind) ∧ AllBlank right ∧ AllBlank behind

theorem exists_framed (payload : List Char) :
    ∃ mark front back, Framed mark front back ∧ payload = front ++ (labelText payload ++ back) := by
  obtain ⟨before, behind, split, blankBefore, blankBehind⟩ := exists_trim payload
  cases found : quoteMarks.findSome? (unquote? · (trim payload)) with
  | none =>
      have label : labelText payload = trim payload := by
        rw [labelText_eq, found]
        exact trim_trim payload
      refine ⟨[], before, behind, ?_, by rw [label]; exact split⟩
      constructor
      case mark_mem => exact List.mem_cons_self
      case front_eq => exact ⟨before, [], by simp, blankBefore, List.forall_mem_nil _⟩
      case back_eq => exact ⟨[], behind, rfl, List.forall_mem_nil _, blankBehind⟩
  | some inner =>
      have label : labelText payload = trim inner := by
        rw [labelText_eq, found]
        rfl
      obtain ⟨mark, member, quoted⟩ := List.exists_of_findSome?_eq_some found
      obtain ⟨whole, -⟩ := unquote?_eq_some_iff.mp quoted
      obtain ⟨left, right, inside, blankLeft, blankRight⟩ := exists_trim inner
      refine ⟨mark, before ++ (mark ++ left), right ++ (mark ++ behind), ?_, ?_⟩
      · constructor
        case mark_mem => exact List.mem_cons_of_mem _ member
        case front_eq => exact ⟨before, left, rfl, blankBefore, blankLeft⟩
        case back_eq => exact ⟨right, behind, rfl, blankRight, blankBehind⟩
      · conv => lhs; rw [split, whole, inside]
        rw [label]
        simp only [List.append_assoc]

namespace Framed
variable {mark front back text : List Char}

theorem margins (framed : Framed mark front back) :
    ∀ c ∈ front, isBlank c = true ∨ isQuote c = true := by
  obtain ⟨before, left, rfl, blankBefore, blankLeft⟩ := framed.front_eq
  have quotes : ∀ m ∈ [] :: quoteMarks, ∀ c ∈ m, isQuote c = true := by
    simp [quoteMarks, isQuote]
  intro c member
  simp only [List.mem_append] at member
  rcases member with blank | quote | blank
  · exact .inl (blankBefore c blank)
  · exact .inr (quotes mark framed.mark_mem c quote)
  · exact .inl (blankLeft c blank)

/-- Another label between the same blanks and quotes is read as it is. -/
theorem labelText (framed : Framed mark front back) (solid : Solid text)
    (unquoted : Unquoted text) : labelText (front ++ (text ++ back)) = text := by
  obtain ⟨before, left, rfl, blankBefore, blankLeft⟩ := framed.front_eq
  obtain ⟨right, behind, rfl, blankRight, blankBehind⟩ := framed.back_eq
  let inner := left ++ (text ++ right)
  have innerSolid : inner ≠ [] := by
    intro empty
    exact solid.ne_nil (List.append_eq_nil_iff.mp (List.append_eq_nil_iff.mp empty).2).1
  have innerTrim : trim inner = text := trim_solid solid blankLeft blankRight
  have split : (before ++ (mark ++ left)) ++ (text ++ (right ++ (mark ++ behind))) =
      before ++ ((mark ++ (inner ++ mark)) ++ behind) := by
    simp only [inner, List.append_assoc]
  rw [split, labelText_eq, blankBefore.trim_append, trim_append_blank _ blankBehind]
  rcases List.mem_cons.mp framed.mark_mem with rfl | member
  · have unread : quoteMarks.findSome? (unquote? · text) = none := unquoted
    rw [List.nil_append, List.append_nil, innerTrim, unread]
    exact solid.trimmed
  · have kept : trim (mark ++ (inner ++ mark)) = mark ++ (inner ++ mark) :=
      trimmed_quoted member inner
    have innerUnquoted : Unquoted inner := unquoted.pad solid blankLeft blankRight
    rw [kept, unquote?_quoted member innerUnquoted innerSolid]
    exact innerTrim

/-- Where no quotes stand beside a label, there are only blanks. -/
theorem blank (framed : Framed mark front back) (plain : Plain front) :
    AllBlank front ∧ AllBlank back := by
  obtain ⟨before, left, rfl, blankBefore, blankLeft⟩ := framed.front_eq
  obtain ⟨right, behind, rfl, blankRight, blankBehind⟩ := framed.back_eq
  rcases List.mem_cons.mp framed.mark_mem with rfl | member
  · exact ⟨List.forall_mem_append.mpr ⟨blankBefore, blankLeft⟩,
      List.forall_mem_append.mpr ⟨blankRight, blankBehind⟩⟩
  · obtain ⟨c, inside, quote⟩ := exists_isQuote member
    have other := plain c (List.mem_append_right _ (List.mem_append_left _ inside))
    exact absurd (quote.symm.trans other) nofun

end Framed
end Flowchart.Script
