import Flowchart.Script.Structure
import Flowchart.Proofs.Script.Arrow
import Flowchart.Proofs.Script.Declaration
import Flowchart.Proofs.Text.Replace
/-! Tokens of blocks. A token begins with the letter of its form and ends with a closing delimiter,
so a line that is a token cannot be read as anything else in the structure. -/
namespace Flowchart.Script
open Flowchart.Text

/-- The letters that the forms of blocks begin with. -/
def formLetters : List Char := ['t', 'p', 'l', 'd', 'c', 'B']

/-- The delimiters that the forms of blocks end with. -/
def closingMarks : List Char := [')', ']', '>', '\x7d']

theorem isBlank_of_mem_formLetters : ∀ c ∈ formLetters, isBlank c = false := by
  simp [formLetters, isBlank]

theorem isBlank_of_mem_closingMarks : ∀ c ∈ closingMarks, isBlank c = false := by
  simp [closingMarks, isBlank]

structure Shaped (token : List Char) : Prop where
  head : ∃ c ∈ formLetters, token.head? = some c
  last : ∃ c ∈ closingMarks, token.getLast? = some c

namespace Enclosure

/-- The scan finds no place but the last character. -/
theorem upTo?_end? (e : Enclosure) (cs : List Char) :
    upTo? e.end? cs = if cs.getLast? = some e.closing then some (cs.dropLast, ()) else none := by
  split
  · next last =>
    obtain ⟨front, rfl⟩ := List.getLast?_eq_some_iff.mp last
    rw [List.dropLast_concat]
    refine upTo?_eq_some (if_pos rfl) ?_
    intro p q _ solid
    refine if_neg fun same => solid ?_
    exact List.append_left_eq_self.mp same
  · next other =>
    refine Option.eq_none_iff_forall_ne_some.mpr ?_
    rintro ⟨before, _⟩ found
    obtain ⟨rest, rfl, fits⟩ := exists_of_upTo? found
    obtain ⟨rfl, -⟩ := Option.ite_none_right_eq_some.mp fits
    exact other List.getLast?_concat

/-- The scan comes to the same as a look at the last character. -/
theorem payload?_eq (e : Enclosure) (line : List Char) : e.payload? line =
    if e.opening.isPrefixOf line then
      let rest := line.drop e.opening.length
      if rest.getLast? = some e.closing ∧ 1 < rest.length then some rest.dropLast else none
    else none := by
  unfold payload?
  rw [upTo?_end?]
  refine if_congr Iff.rfl ?_ rfl
  generalize line.drop e.opening.length = rest
  by_cases last : rest.getLast? = some e.closing
  · have short : rest.dropLast.isEmpty = true ↔ ¬1 < rest.length := by
      rw [List.isEmpty_iff, ← List.length_eq_zero_iff, List.length_dropLast]
      omega
    simp only [last, true_and, if_true, short]
    exact ite_not _ _ _
  · simp only [last, false_and, if_false]

theorem payload?_eq_some_iff {e : Enclosure} {line payload : List Char} :
    e.payload? line = some payload ↔
      line = e.opening ++ (payload ++ [e.closing]) ∧ payload ≠ [] := by
  rw [payload?_eq]
  constructor
  · intro read
    split at read
    · next front =>
      obtain ⟨rest, rfl⟩ := List.isPrefixOf_iff_prefix.mp front
      simp only [List.drop_left, Option.ite_none_right_eq_some, Option.some.injEq] at read
      obtain ⟨⟨last, long⟩, rfl⟩ := read
      have solid : rest ≠ [] := List.ne_nil_of_length_pos (Nat.zero_lt_of_lt long)
      rw [List.getLast?_eq_some_getLast solid, Option.some.injEq] at last
      rw [← last, List.dropLast_concat_getLast solid]
      refine ⟨rfl, List.ne_nil_of_length_pos ?_⟩
      rw [List.length_dropLast]
      omega
    · cases read
  · rintro ⟨rfl, solid⟩
    have long := List.length_pos_of_ne_nil solid
    rw [if_pos (List.isPrefixOf_iff_prefix.mpr ⟨_, rfl⟩)]
    simp [solid]

theorem opening_closing {e : Enclosure} (member : e ∈ enclosures) :
    (∃ c ∈ formLetters, e.opening.head? = some c) ∧ e.closing ∈ closingMarks := by
  revert e
  simp [enclosures, formLetters, closingMarks]

end Enclosure

/-- A declaring line is one of three fixed ones, or a payload in an enclosure. -/
theorem exists_of_form? {line payload : List Char} {kind : BlockKind}
    (read : form? line = some (kind, payload)) :
    (line ∈ [['t', 's', '(', ')'], ['t', 'e', '(', ')'], ['c', '[', ')']] ∧
        kind.hasEditableText = false) ∨
      ∃ e ∈ enclosures, e.kind = kind ∧ line = e.opening ++ (payload ++ [e.closing]) ∧
        payload ≠ [] := by
  unfold form? at read
  split at read
  · next same => cases read; exact .inl ⟨by simp [same], rfl⟩
  · split at read
    · next same => cases read; exact .inl ⟨by simp [same], rfl⟩
    · split at read
      · next same => cases read; exact .inl ⟨by simp [same], rfl⟩
      · obtain ⟨e, member, found⟩ := List.exists_of_findSome?_eq_some read
        obtain ⟨inner, taken, same⟩ := Option.map_eq_some_iff.mp found
        cases same
        exact .inr ⟨e, member, rfl, Enclosure.payload?_eq_some_iff.mp taken⟩

theorem shaped_of_form? {line payload : List Char} {kind : BlockKind}
    (read : form? line = some (kind, payload)) : Shaped line := by
  rcases exists_of_form? read with ⟨fixed, -⟩ | ⟨e, member, -, rfl, -⟩
  · have letters : ∀ l ∈ [['t', 's', '(', ')'], ['t', 'e', '(', ')'], ['c', '[', ')']],
        (∃ c ∈ formLetters, l.head? = some c) ∧ ∃ c ∈ closingMarks, l.getLast? = some c := by
      simp [formLetters, closingMarks]
    exact ⟨(letters line fixed).1, (letters line fixed).2⟩
  · obtain ⟨⟨c, letter, head⟩, closing⟩ := Enclosure.opening_closing member
    refine ⟨⟨c, letter, ?_⟩, ⟨e.closing, closing, ?_⟩⟩
    · rw [List.head?_append, head, Option.some_or]
    · rw [← List.append_assoc, List.getLast?_concat]

theorem shaped_of_readBlock? {token : List Char} {b : Block} (read : readBlock? token = some b) :
    Shaped token := by
  obtain ⟨kind, payload, found, -⟩ := exists_of_readBlock? read
  exact shaped_of_form? found

theorem kind_blockOf (kind : BlockKind) (payload token : List Char) :
    (blockOf kind payload token).kind = kind := by
  cases kind <;> rfl

/-- A token that opens a brace is that of a composite block. -/
theorem kind_of_brace {token : List Char} {b : Block} (read : readBlock? token = some b)
    (brace : ['B', '\x7b'] <+: token) : b.kind = .subBlock := by
  obtain ⟨kind, payload, found, rfl⟩ := exists_of_readBlock? read
  rw [kind_blockOf]
  rcases exists_of_form? found with ⟨fixed, -⟩ | ⟨e, member, rfl, rfl, -⟩
  · have other : ∀ l ∈ [['t', 's', '(', ')'], ['t', 'e', '(', ')'], ['c', '[', ')']],
        ¬ ['B', '\x7b'] <+: l := by decide
    exact absurd brace (other token fixed)
  · revert e
    simp [enclosures]

namespace Shaped

variable {token : List Char}

theorem ne_nil (shaped : Shaped token) : token ≠ [] := by
  obtain ⟨c, -, head⟩ := shaped.head
  exact List.ne_nil_of_mem (List.mem_of_head? head)

theorem trimmed (shaped : Shaped token) : Trimmed token := by
  obtain ⟨c, letter, head⟩ := shaped.head
  obtain ⟨d, closing, last⟩ := shaped.last
  refine trimmed_iff.mpr ⟨?_, ?_⟩
  · intro e same
    obtain rfl := Option.some.inj (head.symm.trans same)
    exact isBlank_of_mem_formLetters c letter
  · intro e same
    obtain rfl := Option.some.inj (last.symm.trans same)
    exact isBlank_of_mem_closingMarks d closing

theorem solid (shaped : Shaped token) : Solid token := ⟨shaped.ne_nil, shaped.trimmed⟩

theorem head_strip (shaped : Shaped token) : ∃ c ∈ formLetters, (strip token).head? = some c := by
  obtain ⟨c, letter, head⟩ := shaped.head
  obtain ⟨rest, rfl⟩ := List.head?_eq_some_iff.mp head
  refine ⟨c, letter, ?_⟩
  rw [strip_cons, isBlank_of_mem_formLetters c letter]
  rfl

theorem head?_ne (shaped : Shaped token) {c : Char} (other : c ∉ formLetters) :
    token.head? ≠ some c := by
  obtain ⟨d, letter, head⟩ := shaped.head
  rw [head]
  exact fun same => other (Option.some.inj same ▸ letter)

theorem getLast?_ne (shaped : Shaped token) {c : Char} (other : c ∉ closingMarks) :
    token.getLast? ≠ some c := by
  obtain ⟨d, closing, last⟩ := shaped.last
  rw [last]
  exact fun same => other (Option.some.inj same ▸ closing)

theorem exists_ne_dot (shaped : Shaped token) : ∃ c ∈ token, c ≠ '.' := by
  obtain ⟨c, letter, head⟩ := shaped.head
  have other : ∀ c ∈ formLetters, c ≠ '.' := by simp [formLetters]
  exact ⟨c, List.mem_of_head? head, other c letter⟩

theorem not_separator (shaped : Shaped token) (start : Nat) :
    Line.isSeparator ⟨token, start⟩ = false := by
  obtain ⟨c, member, other⟩ := shaped.exists_ne_dot
  exact List.all_eq_false.mpr ⟨c, member, by simpa using other⟩

end Shaped

/-- Behind all the marks of a text that ends with one lies what follows the text. -/
theorem skipMarks_append {text : List Char} (last : ∀ c, text.getLast? = some c → isBlank c = false)
    (rest : List Char) : skipMarks (strip text).length (text ++ rest) = rest := by
  induction text with
  | nil => cases rest <;> rfl
  | cons c text ih =>
      have later : ∀ d, text.getLast? = some d → isBlank d = false := by
        intro d same
        refine last d ?_
        rw [List.getLast?_cons, same, Option.getD_some]
      rw [strip_cons]
      cases blank : isBlank c with
      | false =>
          rw [if_neg Bool.false_ne_true, List.length_cons, List.cons_append, skipMarks, blank,
            if_neg Bool.false_ne_true]
          exact ih later
      | true =>
          rw [if_pos rfl, List.cons_append]
          cases count : (strip text).length with
          | succ n =>
              rw [skipMarks, if_pos blank, ← count]
              exact ih later
          | zero =>
              -- then all of the text is blank, but its last character is not
              exfalso
              have rest := strip_eq_nil_iff.mp (List.eq_nil_of_length_eq_zero count)
              have all : AllBlank (c :: text) := List.forall_mem_cons.mpr ⟨blank, rest⟩
              have final := last _ (List.getLast?_eq_some_getLast (List.cons_ne_nil c text))
              rw [all _ (List.getLast_mem _)] at final
              cases final

namespace Registry
variable {blocks : Registry}

theorem Sound.shaped (sound : blocks.Sound) {b : Block} (member : b ∈ blocks) :
    Shaped b.token.toList :=
  shaped_of_readBlock? (sound.read b member)

theorem Sound.key_ne_nil (sound : blocks.Sound) {b : Block} (member : b ∈ blocks) : key b ≠ [] := by
  obtain ⟨c, -, head⟩ := (sound.shaped member).head_strip
  exact List.ne_nil_of_mem (List.mem_of_head? head)

/-- A line that does not begin with the letter of a form begins with no key. -/
theorem Sound.longestPrefix?_eq_none (sound : blocks.Sound) {line : List Char} {c : Char}
    (head : line.head? = some c) (solid : isBlank c = false) (other : c ∉ formLetters) :
    blocks.longestPrefix? line = none := by
  refine Registry.longestPrefix?_eq_none_iff.mpr ?_
  intro b member front
  obtain ⟨d, letter, first⟩ := (sound.shaped member).head_strip
  obtain ⟨line, rfl⟩ := List.head?_eq_some_iff.mp head
  obtain ⟨rest, split⟩ := front
  rw [strip_cons, solid, if_neg Bool.false_ne_true] at split
  have same := congrArg List.head? split
  rw [List.head?_append, key, first, Option.some_or, List.head?_cons, Option.some.injEq] at same
  exact absurd (same ▸ letter) other

end Registry

/-- No key goes on behind a token into the text after it. -/
def Alone (blocks : Registry) (token rest : List Char) : Prop :=
  ∀ b ∈ blocks, key b <+: strip (token ++ rest) → (key b).length ≤ (strip token).length

instance (blocks : Registry) (token rest : List Char) : Decidable (Alone blocks token rest) :=
  inferInstanceAs (Decidable (∀ b ∈ blocks, key b <+: strip (token ++ rest) →
    (key b).length ≤ (strip token).length))

theorem Alone.nil (blocks : Registry) (token : List Char) : Alone blocks token [] := by
  intro b _ front
  rw [List.append_nil] at front
  exact front.length_le

section Statement
variable {blocks : Registry}

/-- What a line says that begins with the token of a block. -/
theorem statement_of_token (sound : blocks.Sound) {i : Nat} {b : Block}
    (present : blocks[i]? = some b) {token rest : List Char} (shaped : Shaped token)
    (same : strip token = key b) (alone : Alone blocks token rest) :
    statement blocks (token ++ rest) =
      match backReference? (trim rest), mergeOpen? (token ++ rest) with
      | some (arrow, target), _ => .inlineBack i arrow target
      | none, some (reference, arrow) => .merge reference arrow
      | none, none => .visit i := by
  have front : key b <+: strip (token ++ rest) := by
    rw [strip_append, same]
    exact List.prefix_append _ _
  have whole : blocks.longestPrefix? (token ++ rest) = some (i, key b) :=
    Registry.longestPrefix?_of_key sound.distinct present
      (sound.key_ne_nil (List.mem_of_getElem? present)) front (same ▸ alone)
  have left : skipMarks (key b).length (token ++ rest) = rest := by
    rw [← same]
    exact skipMarks_append (trimmed_iff.mp shaped.trimmed).2 rest
  have head {c : Char} (other : c ∉ formLetters) : (token ++ rest).head? ≠ some c := by
    rw [List.head?_append_of_ne_nil _ shaped.ne_nil]
    exact shaped.head?_ne other
  unfold statement inlineBack?
  simp only [whole, left]
  cases backReference? (trim rest) with
  | some found => rfl
  | none =>
      rw [backReference?_eq_none (head (by decide)), groupOpen?_eq_none (head (by decide))]
      cases mergeOpen? (token ++ rest) with
      | some found => rfl
      | none =>
          rw [arrow?_eq_none (head (by decide))]
          rfl

/-- A line that is the token of a block visits the block. -/
theorem statement_token (sound : blocks.Sound) {i : Nat} {b : Block}
    (present : blocks[i]? = some b) {line : List Char} (shaped : Shaped line)
    (same : strip line = key b) : statement blocks line = .visit i := by
  have said := statement_of_token sound present shaped same (.nil blocks line)
  rw [List.append_nil, mergeOpen?_eq_none (shaped.getLast?_ne (by decide))] at said
  exact said

/-- What a line says that begins like an arrow and ends like a token or an arrow. -/
theorem statement_of_arrow (sound : blocks.Sound) {line : List Char}
    (head : line.head? = some 'a') (last : line.getLast? ≠ some '[') :
    statement blocks line =
      match backReference? line, arrow? line with
      | some (arrow, target), _ => .back arrow target
      | none, some arrow => .arrow arrow
      | none, none => .unknown := by
  have none : blocks.longestPrefix? line = none :=
    sound.longestPrefix?_eq_none head (by decide) (by decide)
  unfold statement inlineBack?
  simp only [none]
  cases backReference? line with
  | some found => rfl
  | none =>
      rw [groupOpen?_eq_none (by simp [head]), mergeOpen?_eq_none last]
      cases arrow? line <;> rfl

end Statement
end Flowchart.Script
