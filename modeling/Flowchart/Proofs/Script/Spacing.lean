import Flowchart.Proofs.Script.Effect
import Flowchart.Proofs.Script.Retrace
/-! Spacing of references. A token can be written with other blanks in it, or with none, wherever it
names a block: on a line of its own, as a member of a group and behind an exclamation mark. A walk
does the same over either spelling, step by step and to its end. -/
namespace Flowchart.Script
open Flowchart.Text
open Walk (edgeOf)

/-- A text that is a token but for the blanks within it. -/
structure Respaced (token text : List Char) : Prop where
  trimmed : Trimmed text
  same : strip text = strip token

/-- Blanks within a text are not at its ends, so it begins and ends like the token. -/
theorem Respaced.shaped {token text : List Char} (respaced : Respaced token text)
    (original : Shaped token) : Shaped text := by
  obtain ⟨head, last⟩ := respaced.trimmed.strip_ends
  obtain ⟨first, final⟩ := original.trimmed.strip_ends
  rw [respaced.same, first] at head
  rw [respaced.same, final] at last
  exact ⟨head ▸ original.head, last ▸ original.last⟩

section Lines
variable (blocks : Registry)

/-- A text that names a block, whether it is a statement, a member or a target. -/
structure Names (i : Nat) (text : List Char) : Prop where
  shaped : Shaped text
  visits : statement blocks text = .visit i
  resolves : blocks.resolve? text = some i

/-- Lines that are the same, or name the same block. -/
def Exchangeable (l m : Line) : Prop :=
  l = m ∨ ∃ i, Names blocks i l.text ∧ Names blocks i m.text

variable {blocks} {l m : Line}

theorem names_respaced (sound : blocks.Sound) {i : Nat} {b : Block} (present : blocks[i]? = some b)
    {text : List Char} (respaced : Respaced b.token.toList text) : Names blocks i text := by
  have shaped := respaced.shaped (sound.shaped (List.mem_of_getElem? present))
  exact ⟨shaped, statement_token sound present shaped respaced.same,
    Registry.resolve?_of_key sound.distinct present respaced.same.symm⟩

theorem Names.ne_bracket {i : Nat} {text : List Char} (names : Names blocks i text) :
    text ≠ [']'] := by
  rintro rfl
  exact names.shaped.head?_ne (c := ']') (by decide) rfl

namespace Exchangeable

theorem refl (l : Line) : Exchangeable blocks l l := .inl rfl

theorem closes (alike : Exchangeable blocks l m) : l.text = [']'] ↔ m.text = [']'] := by
  rcases alike with rfl | ⟨i, left, right⟩
  · exact Iff.rfl
  · exact iff_of_false left.ne_bracket right.ne_bracket

end Exchangeable

variable {ls ms : List Line} (alike : List.Forall₂ (Exchangeable blocks) ls ms)
include alike

theorem groupBody_exchanged :
    List.Forall₂ (Exchangeable blocks) (groupBody ls).1 (groupBody ms).1 ∧
      List.Forall₂ (Exchangeable blocks) (groupBody ls).2 (groupBody ms).2 := by
  induction alike with
  | nil => exact ⟨.nil, .nil⟩
  | @cons l m ls ms first rest ih =>
      by_cases closing : m.text = [']']
      · have bracket := first.closes.mpr closing
        simp only [groupBody, List.takeWhile_cons, List.dropWhile_cons, bracket, closing,
          bne_self_eq_false, Bool.false_eq_true, if_false, List.drop_one, List.tail_cons]
        exact ⟨.nil, rest⟩
      · have other := mt first.closes.mp closing
        simp only [groupBody, List.takeWhile_cons, List.dropWhile_cons, bne_iff_ne, ne_eq, other,
          closing, not_false_eq_true, if_true]
        exact ⟨.cons first ih.1, ih.2⟩

theorem isClosed_exchanged : isClosed ls = isClosed ms := by
  induction alike with
  | nil => rfl
  | @cons l m ls ms first rest ih =>
      have closes : (l.text == [']']) = (m.text == [']']) :=
        Bool.eq_iff_iff.mpr (by simpa using first.closes)
      simp only [isClosed, List.any_cons, closes]
      exact congrArg _ ih

end Lines

namespace Walk
variable {blocks : Registry} {l m : Line}

/-- A member that names a block is connected to the anchor of its group, and nothing else. -/
theorem member_names {i : Nat} (names : Names blocks i l.text) (anchor : Option Nat) (group : Arrow)
    (w : Walk) (label : Option String) :
    let made := anchor.map (edgeOf · i ⟨label.or group.label, group.direction⟩ false)
    member blocks anchor group (w, label) l = (w.extend w.cursor made.toList [], none) := by
  unfold member
  simp only [arrow?_eq_none (names.shaped.head?_ne (by decide)), names.resolves]
  cases anchor with
  | none => exact Prod.ext w.extend_nil.symm rfl
  | some anchor => exact Prod.ext (w.link_eq_extend anchor i _ false) rfl

theorem member_exchanged (alike : Exchangeable blocks l m) (anchor : Option Nat) (group : Arrow)
    (state : Walk × Option String) :
    member blocks anchor group state l = member blocks anchor group state m := by
  rcases alike with rfl | ⟨i, left, right⟩
  · rfl
  · rw [member_names left, member_names right]

variable {ls ms : List Line} (alike : List.Forall₂ (Exchangeable blocks) ls ms)
include alike

theorem foldl_member_exchanged (anchor : Option Nat) (group : Arrow)
    (state : Walk × Option String) :
    ls.foldl (member blocks anchor group) state = ms.foldl (member blocks anchor group) state := by
  induction alike generalizing state with
  | nil => rfl
  | cons first rest ih => rw [List.foldl_cons, List.foldl_cons, member_exchanged first, ih]

theorem group_exchanged (w : Walk) (anchor : Option Nat) (arrow : Arrow) (l : Line) :
    w.group blocks anchor arrow l ls = w.group blocks anchor arrow l ms := by
  rw [group, group, isClosed_exchanged alike,
    foldl_member_exchanged (groupBody_exchanged alike).1]

/-- One step does the same, and leaves lines behind that can be exchanged. -/
theorem step_exchanged (first : Exchangeable blocks l m) (w : Walk) :
    (w.step blocks l ls).1 = (w.step blocks m ms).1 ∧
      List.Forall₂ (Exchangeable blocks) (w.step blocks l ls).2 (w.step blocks m ms).2 := by
  rcases first with rfl | ⟨i, left, right⟩
  case inr =>
    rw [step, step, left.visits, right.visits]
    exact ⟨rfl, alike⟩
  constructor
  · unfold step
    cases statement blocks l.text with
    | group arrow => simp only [group_exchanged alike]
    | merge reference arrow =>
        simp only [group_exchanged alike]
        split <;> rfl
    | inlineBack source arrow target => rfl
    | back arrow target =>
        simp only
        split <;> rfl
    | arrow arrow => rfl
    | visit block => rfl
    | unknown => rfl
  · rw [step_left, step_left]
    split
    · exact (groupBody_exchanged alike).2
    · exact alike

/-- Over lines in which some references are written otherwise, a walk ends the same. -/
theorem run_exchanged (w : Walk) : w.run blocks ls = w.run blocks ms := by
  induction w, ls using Walk.run.induct blocks generalizing ms with
  | case1 w =>
      cases alike
      rfl
  | case2 w l ls ih =>
      cases alike with
      | cons first rest =>
          obtain ⟨walked, left⟩ := step_exchanged rest first w
          rw [Walk.run, Walk.run, ih left, walked]

omit alike

theorem step_names {i : Nat} (names : Names blocks i l.text) (w : Walk) (ls : List Line) :
    w.step blocks l ls = (w.extend { previous := some i } (w.cursor.completed i) [], ls) := by
  rw [step, names.visits]
  exact Prod.ext (w.arrive_eq_extend i) rfl

theorem step_back_names (sound : blocks.Sound) {i : Nat} {text : List Char}
    (names : Names blocks i text) {w : Walk} {source : Nat} (previous : w.previous = some source)
    (start : Nat) (ls : List Line) :
    w.step blocks ⟨'a' :: '>' :: '!' :: text, start⟩ ls =
      (w.extend {} [edgeOf source i ⟨none, .forward⟩ true] [], ls) := by
  have said : statement blocks ('a' :: '>' :: '!' :: text) = .back ⟨none, .forward⟩ text :=
    statement_back (a := ⟨none, .forward⟩) sound .none (by simp) names.shaped
  refine Prod.ext ?_ ?_
  · rw [step_eq, said]
    simp [Statement.next, Statement.made, Statement.complaints, stranger, cursor, previous,
      names.resolves]
  · rw [step_left, said]
    rfl

/-- References do not depend on spacing. A token of a declared block, however it is spaced, leads to
the block and completes the arrow that is left from before; it is a member of a group that the
anchor is connected to; and behind an exclamation mark it is what the block that a walk stands on
refers back to. There is nothing to complain about, and the lines around it mean what they meant. -/
theorem step_respaced (ds : List Declaration) {b : Block} (declared : b ∈ declaredBlocks ds)
    {text : List Char} (respaced : Respaced b.token.toList text) :
    let blocks := declaredBlocks ds
    let token := b.token.toList
    ∃ i, blocks[i]? = some b ∧
      (∀ w start place ls,
        step blocks w ⟨text, start⟩ ls = step blocks w ⟨token, place⟩ ls ∧
        step blocks w ⟨token, place⟩ ls =
          (w.extend { previous := some i } (w.cursor.completed i) [], ls)) ∧
      (∀ anchor group w label start place,
        let made := anchor.map (edgeOf · i ⟨label.or group.label, group.direction⟩ false)
        member blocks anchor group (w, label) ⟨text, start⟩ =
          member blocks anchor group (w, label) ⟨token, place⟩ ∧
        member blocks anchor group (w, label) ⟨token, place⟩ =
          (w.extend w.cursor made.toList [], none)) ∧
      (∀ w source, w.previous = some source → ∀ start place ls,
        step blocks w ⟨'a' :: '>' :: '!' :: text, start⟩ ls =
          step blocks w ⟨'a' :: '>' :: '!' :: token, place⟩ ls ∧
        step blocks w ⟨'a' :: '>' :: '!' :: token, place⟩ ls =
          (w.extend {} [edgeOf source i ⟨none, .forward⟩ true] [], ls)) ∧
      ∀ w before after start place,
        run blocks w (before ++ ⟨text, start⟩ :: after) =
          run blocks w (before ++ ⟨token, place⟩ :: after) := by
  intro blocks token
  have sound : blocks.Sound := declaredBlocks_sound ds
  obtain ⟨i, present⟩ := List.getElem?_of_mem declared
  have spaced : Names blocks i text := names_respaced sound present respaced
  have plain : Names blocks i token :=
    names_respaced sound present ⟨(sound.shaped declared).trimmed, rfl⟩
  refine ⟨i, present, ?step, ?member, ?back, ?run⟩
  case step =>
    intro w start place ls
    rw [step_names spaced, step_names plain]
    exact ⟨rfl, rfl⟩
  case member =>
    intro anchor group w label start place made
    rw [member_names spaced, member_names plain]
    exact ⟨rfl, rfl⟩
  case back =>
    intro w source previous start place ls
    rw [step_back_names sound spaced previous, step_back_names sound plain previous]
    exact ⟨rfl, rfl⟩
  case run =>
    intro w before after start place
    refine run_exchanged ?_ w
    have same (ls : List Line) : List.Forall₂ (Exchangeable blocks) ls ls :=
      List.forall₂_same.mpr fun l _ => .refl l
    exact List.rel_append (same before) (.cons (.inr ⟨i, spaced, plain⟩) (same after))

/-- One token begins another one, which goes on like a reference back from it. -/
theorem step_respaced_nested :
    let ds : List Declaration := [⟨"d<a>".toList, ⟨0, 4⟩⟩, ⟨"te()".toList, ⟨5, 9⟩⟩,
      ⟨"d<a> a>!te()>".toList, ⟨10, 23⟩⟩]
    let b : Block :=
      { kind := .decision, text := "a> a>!te()", token := "d<a> a>!te()>" }
    let text := "d < a >a > ! te( )>".toList
    b ∈ declaredBlocks ds ∧ Respaced b.token.toList text ∧
      ∀ w start ls, step (declaredBlocks ds) w ⟨text, start⟩ ls =
        step (declaredBlocks ds) w ⟨b.token.toList, start⟩ ls := by
  intro ds b text
  have declared : b ∈ declaredBlocks ds := by decide +kernel
  have respaced : Respaced b.token.toList text := ⟨by decide, by decide⟩
  obtain ⟨i, -, steps, -⟩ := step_respaced ds declared respaced
  exact ⟨declared, respaced, fun w start ls => (steps w start start ls).1⟩

end Walk
end Flowchart.Script
