import Flowchart.Proofs.Script.Line
import Flowchart.Proofs.Script.Token
import Flowchart.Proofs.Script.Walk
import Mathlib.Data.List.Infix
/-! Renaming a block throughout a structure. Where the lines spell its token exactly, or do not
mention it at all, the renamed lines make the same connections of the renamed blocks. -/
namespace Flowchart.Script
open Flowchart.Text

/-- The block at one place has another token, and all others are the same. -/
structure Renamed (i : Nat) (old new : List Char) (before after : Registry) : Prop where
  before_sound : before.Sound
  after_sound : after.Sound
  old_token : ∃ b, before[i]? = some b ∧ b.token.toList = old
  new_token : ∃ b, after[i]? = some b ∧ b.token.toList = new
  others : ∀ j, j ≠ i → after[j]? = before[j]?

/-- Neither token stands anywhere in the text, also when blanks do not count. -/
structure Clear (old new text : List Char) : Prop where
  old_absent : ¬ strip old <:+: strip text
  new_absent : ¬ strip new <:+: strip text

instance (old new text : List Char) : Decidable (Clear old new text) :=
  decidable_of_iff (¬ strip old <:+: strip text ∧ ¬ strip new <:+: strip text)
    ⟨fun both => ⟨both.1, both.2⟩, fun clear => ⟨clear.old_absent, clear.new_absent⟩⟩

section Clear
variable {old new text part : List Char}

theorem infix_strip (inside : part <:+: text) : strip part <:+: strip text :=
  inside.filter fun c => !isBlank c

theorem Clear.of_infix (clear : Clear old new text) (inside : part <:+: text) :
    Clear old new part :=
  ⟨fun found => clear.old_absent (found.trans (infix_strip inside)),
    fun found => clear.new_absent (found.trans (infix_strip inside))⟩

theorem Clear.replaceAll_eq (clear : Clear old new text) : replaceAll old new text = text :=
  replaceAll_eq_self fun found => clear.old_absent (infix_strip found)

end Clear

namespace Renamed
variable {i : Nat} {old new text : List Char} {before after : Registry}
  (renamed : Renamed i old new before after)
include renamed

theorem resolve?_old : before.resolve? old = some i := by
  obtain ⟨b, present, token⟩ := renamed.old_token
  exact Registry.resolve?_of_key renamed.before_sound.distinct present (by rw [key, token])

theorem resolve?_new : after.resolve? new = some i := by
  obtain ⟨b, present, token⟩ := renamed.new_token
  exact Registry.resolve?_of_key renamed.after_sound.distinct present (by rw [key, token])

/-- A block whose key stands in a clear text is one of the others. -/
theorem other_of_before (clear : Clear old new text) {j : Nat} {b : Block}
    (present : before[j]? = some b) (inside : key b <:+: strip text) : after[j]? = some b := by
  rw [renamed.others j]
  · exact present
  · rintro rfl
    obtain ⟨c, same, token⟩ := renamed.old_token
    obtain rfl := Option.some.inj (present.symm.trans same)
    exact clear.old_absent (token ▸ inside)

theorem other_of_after (clear : Clear old new text) {j : Nat} {b : Block}
    (present : after[j]? = some b) (inside : key b <:+: strip text) : before[j]? = some b := by
  rw [← renamed.others j]
  · exact present
  · rintro rfl
    obtain ⟨c, same, token⟩ := renamed.new_token
    obtain rfl := Option.some.inj (present.symm.trans same)
    exact clear.new_absent (token ▸ inside)

theorem resolve?_clear (clear : Clear old new text) :
    after.resolve? text = before.resolve? text := by
  cases found : before.resolve? text with
  | some j =>
      obtain ⟨b, present, same⟩ := Registry.exists_of_resolve? found
      exact Registry.resolve?_of_key renamed.after_sound.distinct
        (renamed.other_of_before clear present (same ▸ List.infix_rfl)) same
  | none =>
      refine Registry.resolve?_eq_none_iff.mpr ?_
      intro b member same
      obtain ⟨j, present⟩ := List.getElem?_of_mem member
      have other := renamed.other_of_after clear present (same ▸ List.infix_rfl)
      exact Registry.resolve?_eq_none_iff.mp found b (List.mem_of_getElem? other) same

theorem longestPrefix?_clear (clear : Clear old new text) :
    after.longestPrefix? text = before.longestPrefix? text := by
  cases found : before.longestPrefix? text with
  | some entry =>
      obtain ⟨j, name⟩ := entry
      obtain ⟨⟨b, present, rfl, solid, front⟩, longest⟩ := Registry.exists_of_longestPrefix? found
      refine Registry.longestPrefix?_of_key renamed.after_sound.distinct
        (renamed.other_of_before clear present front.isInfix) solid front ?_
      intro c member begins
      obtain ⟨m, here⟩ := List.getElem?_of_mem member
      have other := renamed.other_of_after clear here begins.isInfix
      exact longest c (List.mem_of_getElem? other) begins
  | none =>
      refine Registry.longestPrefix?_eq_none_iff.mpr ?_
      intro b member begins
      obtain ⟨j, here⟩ := List.getElem?_of_mem member
      have other := renamed.other_of_after clear here begins.isInfix
      exact Registry.longestPrefix?_eq_none_iff.mp found b (List.mem_of_getElem? other) begins

theorem statement_clear (clear : Clear old new text) :
    statement after text = statement before text := by
  unfold statement inlineBack?
  rw [renamed.longestPrefix?_clear clear]

end Renamed

section Named

/-- The text by which a statement names its target, or the anchor of its group. -/
def Statement.named? : Statement → Option (List Char)
  | .inlineBack _ _ name | .back _ name | .merge name _ => some name
  | .group _ | .arrow _ | .visit _ | .unknown => none

def Statement.rename (f : List Char → List Char) : Statement → Statement
  | .inlineBack source a name => .inlineBack source a (f name)
  | .back a name => .back a (f name)
  | .merge name a => .merge (f name) a
  | said => said

theorem Statement.rename_eq_self {f : List Char → List Char} {said : Statement}
    (kept : ∀ name ∈ said.named?, f name = name) : said.rename f = said := by
  cases said with
  | inlineBack source a name => rw [rename, kept name rfl]
  | back a name => rw [rename, kept name rfl]
  | merge name a => rw [rename, kept name rfl]
  | group a => rfl
  | arrow a => rfl
  | visit block => rfl
  | unknown => rfl

variable {line target reference : List Char} {arrow : Arrow}

theorem target_part (read : backReference? line = some (arrow, target)) : target <:+: line := by
  unfold backReference? at read
  split at read
  · split at read
    · next found =>
      split at read
      · cases read
      · cases read
        obtain ⟨tail, inside, fits⟩ := exists_of_labelled? found
        exact (trim_part _).trans
          (((suffix_of_referenceTail? fits).trans inside).trans (List.suffix_cons _ _)).isInfix
    · cases read
  · cases read

/-- The reference of a group is what lies before its opening, trimmed. -/
theorem exists_of_mergeFrom? {before : List Char}
    (read : mergeFrom? before line = some (reference, arrow)) :
    ∃ front, front <+: line ∧ reference = trim (before.reverse ++ front) := by
  induction line generalizing before with
  | nil => cases read
  | cons c line ih =>
      have later (opened : mergeFrom? (c :: before) line = some (reference, arrow)) :
          ∃ front, front <+: c :: line ∧ reference = trim (before.reverse ++ front) := by
        obtain ⟨front, begins, same⟩ := ih opened
        refine ⟨c :: front, List.cons_prefix_cons.mpr ⟨rfl, begins⟩, ?_⟩
        rw [same, List.reverse_cons, List.append_assoc, List.singleton_append]
      simp only [mergeFrom?] at read
      split at read
      · split at read
        · exact later read
        · cases read
          exact ⟨[], List.nil_prefix, by rw [List.append_nil]⟩
      · exact later read

theorem skipMarks_suffix (count : Nat) (cs : List Char) : skipMarks count cs <:+ cs := by
  induction cs generalizing count with
  | nil => cases count <;> exact List.suffix_rfl
  | cons c cs ih =>
      cases count with
      | zero => exact List.suffix_rfl
      | succ count =>
          rw [skipMarks]
          split
          · exact (ih _).trans (List.suffix_cons c cs)
          · exact (ih _).trans (List.suffix_cons c cs)

/-- What a line names stands in the line. -/
theorem named_part (blocks : Registry) (line : List Char) :
    ∀ name ∈ (statement blocks line).named?, name <:+: line := by
  intro name named
  unfold statement at named
  split at named
  · next source arrow target read =>
    cases named
    simp only [inlineBack?] at read
    split at read
    · next found =>
      obtain ⟨back, inner, made⟩ := Option.map_eq_some_iff.mp read
      cases made
      exact ((target_part inner).trans (trim_part _)).trans (skipMarks_suffix _ line).isInfix
    · cases read
  · split at named
    · next read =>
      cases named
      exact target_part read
    · split at named
      · cases named
      · split at named
        · next read =>
          cases named
          obtain ⟨front, begins, rfl⟩ := exists_of_mergeFrom? read
          exact (trim_part front).trans begins.isInfix
        · split at named
          · cases named
          · split at named <;> cases named

end Named
end Flowchart.Script
