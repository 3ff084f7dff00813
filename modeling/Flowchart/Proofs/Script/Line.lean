import Flowchart.Script.Line
import Flowchart.Proofs.Text.Replace
/-! The texts of lines. They are the pieces between line breaks, trimmed, without the empty ones,
and what is replaced in a source is replaced line by line. -/
namespace Flowchart.Script
open Flowchart.Text

def texts (ls : List Line) : List (List Char) := ls.map (·.text)

theorem texts_trimLines (offset : Nat) (raws : List (List Char)) :
    texts (trimLines offset raws) = (raws.map trim).filter (!·.isEmpty) := by
  induction raws generalizing offset with
  | nil => rfl
  | cons raw raws ih =>
      rw [List.map_cons, trimLines]
      cases trim raw with
      | nil => exact ih _
      | cons c text => exact congrArg ((c :: text) :: ·) (ih _)

theorem texts_lines (source : List Char) :
    texts (lines source) = ((rawLines source).map trim).filter (!·.isEmpty) :=
  texts_trimLines 0 (rawLines source)

theorem rawLines_cons {line : List Char} (whole : '\n' ∉ line) (rest : List Char) :
    rawLines (line ++ '\n' :: rest) = (line ++ ['\n']) :: rawLines rest := by
  induction line with
  | nil => rfl
  | cons c line ih =>
      have other : c ≠ '\n' := fun same => whole (same ▸ List.mem_cons_self)
      rw [List.cons_append, rawLines, if_neg other,
        ih fun member => whole (List.mem_cons_of_mem c member)]
      rfl

/-- Lines with a line break behind each of them. -/
def joinLines (ls : List (List Char)) : List Char := ls.flatMap (· ++ ['\n'])

theorem rawLines_joinLines {ls : List (List Char)} (whole : ∀ l ∈ ls, '\n' ∉ l) :
    rawLines (joinLines ls) = ls.map (· ++ ['\n']) := by
  induction ls with
  | nil => rfl
  | cons l ls ih =>
      obtain ⟨first, others⟩ := List.forall_mem_cons.mp whole
      rw [joinLines, List.flatMap_cons, List.append_assoc, List.singleton_append,
        rawLines_cons first, ← joinLines, ih others]
      rfl

theorem rawLines_of_whole {cs : List Char} (whole : '\n' ∉ cs) (solid : cs ≠ []) :
    rawLines cs = [cs] := by
  induction cs with
  | nil => exact absurd rfl solid
  | cons c cs ih =>
      have other : c ≠ '\n' := fun same => whole (same ▸ List.mem_cons_self)
      rw [rawLines, if_neg other]
      cases cs with
      | nil => rfl
      | cons d cs => rw [ih (fun member => whole (List.mem_cons_of_mem c member)) (by simp)]

theorem trimLines_of_whole {cs : List Char} (whole : '\n' ∉ cs) (offset : Nat) :
    trimLines offset (rawLines cs) = trimLines offset [cs] := by
  by_cases empty : cs = []
  · subst empty
    rfl
  · rw [rawLines_of_whole whole empty]

theorem allBlank_newline : AllBlank ['\n'] := by simp [AllBlank, isBlank]

/-- A text is one line without a break, or a first line, a break and the rest. -/
theorem line_induction {P : List Char → Prop} (whole : ∀ cs, '\n' ∉ cs → P cs)
    (line : ∀ l rest, '\n' ∉ l → P rest → P (l ++ '\n' :: rest)) (cs : List Char) : P cs := by
  by_cases broken : '\n' ∈ cs
  · obtain ⟨l, rest, rfl, first⟩ := List.eq_append_cons_of_mem broken
    exact line l rest first (line_induction whole line rest)
  · exact whole cs broken
termination_by cs.length

theorem not_mem_newline_trim {cs : List Char} : ∀ raw ∈ rawLines cs, '\n' ∉ trim raw := by
  induction cs using line_induction with
  | whole cs whole =>
      intro raw member
      by_cases empty : cs = []
      · subst empty
        cases member
      · rw [rawLines_of_whole whole empty] at member
        obtain rfl := List.mem_singleton.mp member
        exact fun inside => whole ((trim_part raw).mem inside)
  | line l rest whole ih =>
      rw [rawLines_cons whole]
      refine List.forall_mem_cons.mpr ⟨?_, ih⟩
      rw [trim_append_blank l allBlank_newline]
      exact fun inside => whole ((trim_part l).mem inside)

theorem not_mem_newline_lines (source : List Char) : ∀ l ∈ lines source, '\n' ∉ l.text := by
  intro l member
  have inside : l.text ∈ texts (lines source) := List.mem_map_of_mem member
  rw [texts_lines] at inside
  obtain ⟨raw, here, same⟩ := List.mem_map.mp (List.mem_filter.mp inside).1
  exact same ▸ not_mem_newline_trim raw here

section Located

/-- Lines that follow each other, from an offset on. -/
def located (offset : Nat) : List (List Char) → List Line
  | [] => []
  | l :: ls => ⟨l, offset⟩ :: located (offset + byteSize l + 1) ls

theorem byteSize_joinLines (l : List Char) (ls : List (List Char)) :
    byteSize (joinLines (l :: ls)) = byteSize l + 1 + byteSize (joinLines ls) := by
  rw [joinLines, List.flatMap_cons, byteSize_append, byteSize_append]
  rfl

theorem located_append (offset : Nat) (ls ms : List (List Char)) :
    located offset (ls ++ ms) =
      located offset ls ++ located (offset + byteSize (joinLines ls)) ms := by
  induction ls generalizing offset with
  | nil => rfl
  | cons l ls ih =>
      rw [List.cons_append, located, located, List.cons_append, ih, byteSize_joinLines]
      simp only [Nat.add_assoc]

theorem texts_located (offset : Nat) (ls : List (List Char)) : texts (located offset ls) = ls := by
  induction ls generalizing offset with
  | nil => rfl
  | cons l ls ih => exact congrArg (l :: ·) (ih _)

theorem trimLines_cons (offset : Nat) (raw : List Char) (raws : List (List Char)) :
    trimLines offset (raw :: raws) =
      trimLines offset [raw] ++ trimLines (offset + byteSize raw) raws := by
  simp only [trimLines]
  split <;> rfl

/-- The break at its end is not part of a line. -/
theorem trimLines_newline (offset : Nat) (raw : List Char) :
    trimLines offset [raw ++ ['\n']] = trimLines offset [raw] := by
  simp only [trimLines, trim_append_blank raw allBlank_newline]
  by_cases empty : trim raw = []
  · simp [empty]
  · have front : (raw ++ ['\n']).takeWhile isBlank = raw.takeWhile isBlank := by
      rw [List.takeWhile_append, if_neg]
      intro all
      have blank : AllBlank raw := List.takeWhile_eq_self_iff.mp
        ((List.takeWhile_prefix isBlank).eq_of_length all)
      have gone := blank.trim_append []
      rw [List.append_nil] at gone
      exact empty gone
    rw [front]

theorem trimLines_joinLines (offset : Nat) {ls : List (List Char)}
    (written : ∀ l ∈ ls, l ≠ [] ∧ Trimmed l ∧ '\n' ∉ l) :
    trimLines offset (rawLines (joinLines ls)) = located offset ls := by
  rw [rawLines_joinLines fun l member => (written l member).2.2]
  induction ls generalizing offset with
  | nil => rfl
  | cons l ls ih =>
      obtain ⟨⟨solid, trimmed, -⟩, others⟩ := List.forall_mem_cons.mp written
      have here : trimLines offset [l] = [⟨l, offset⟩] := by
        have front : l.takeWhile isBlank = [] := by
          obtain ⟨c, rest, rfl⟩ := List.exists_cons_of_ne_nil solid
          exact List.takeWhile_cons_of_neg (by simp [(trimmed_iff.mp trimmed).1 c rfl])
        have kept : trim l = l := trimmed
        rw [trimLines, kept, front]
        simp [solid, trimLines, byteSize]
      rw [List.map_cons, trimLines_cons, trimLines_newline, here, ih _ others, byteSize_append]
      rfl

/-- What stands before a line break is read on its own. -/
theorem lines_append (front back : List Char) :
    lines (front ++ '\n' :: back) =
      lines front ++ trimLines (byteSize front + 1) (rawLines back) := by
  suffices all : ∀ offset, trimLines offset (rawLines (front ++ '\n' :: back)) =
      trimLines offset (rawLines front) ++
        trimLines (offset + byteSize front + 1) (rawLines back) by
    simpa [lines] using all 0
  induction front using line_induction with
  | whole front whole =>
      intro offset
      rw [rawLines_cons whole, trimLines_cons, trimLines_newline, trimLines_of_whole whole,
        byteSize_append]
      rfl
  | line l rest whole ih =>
      intro offset
      rw [List.append_assoc, List.cons_append, rawLines_cons whole, rawLines_cons whole,
        trimLines_cons, ih, trimLines_cons offset (l ++ ['\n']) (rawLines rest), List.append_assoc,
        byteSize_append, byteSize_append]
      simp only [byteSize, Nat.add_assoc, Nat.zero_add]

end Located

/-- The phases of a script, told by the texts of its lines. -/
theorem texts_phases (ls : List Line) :
    texts (phases ls).1 = (texts ls).takeWhile (fun text => !text.all (· == '.')) ∧
      texts (phases ls).2 = ((texts ls).dropWhile (fun text => !text.all (· == '.'))).drop 1 := by
  constructor
  · rw [texts, texts, List.takeWhile_map]
    rfl
  · rw [texts, texts, List.dropWhile_map, ← List.map_drop]
    rfl

/-- Before the first separator lies what is declared, behind it what is connected. -/
theorem phases_eq {declared connecting : List Line} {separator : Line}
    (dots : separator.isSeparator = true) (solid : ∀ l ∈ declared, l.isSeparator = false) :
    phases (declared ++ separator :: connecting) = (declared, connecting) := by
  have pass : ∀ l ∈ declared, (!l.isSeparator) = true := by simpa using solid
  rw [phases, List.takeWhile_append_of_pos pass, List.dropWhile_append_of_pos pass,
    List.takeWhile_cons_of_neg (by simp [dots]), List.dropWhile_cons_of_neg (by simp [dots]),
    List.append_nil]
  rfl

section Replace
variable {old new : List Char} (oldSolid : Solid old) (newSolid : Solid new)
  (oldWhole : '\n' ∉ old) (newWhole : '\n' ∉ new)
include oldSolid newSolid oldWhole newWhole

theorem rawLines_replaceAll (cs : List Char) :
    rawLines (replaceAll old new cs) = (rawLines cs).map (replaceAll old new) := by
  induction cs using line_induction with
  | whole cs whole =>
      by_cases empty : cs = []
      · subst empty
        rfl
      · rw [rawLines_of_whole whole empty, List.map_singleton, rawLines_of_whole]
        · exact not_mem_replaceAll newWhole whole
        · exact mt (replaceAll_eq_nil_iff newSolid.ne_nil).mp empty
  | line l rest whole ih =>
      have broken (rest : List Char) : replaceAll old new (l ++ '\n' :: rest) =
          replaceAll old new l ++ '\n' :: replaceAll old new rest := by
        have behind : replaceAll old new ('\n' :: rest) = _ :=
          oldSolid.replaceAll_blank allBlank_newline rest
        rw [replaceAll_append (uncut_newline oldWhole), behind]
        rfl
      rw [broken, rawLines_cons (not_mem_replaceAll newWhole whole), rawLines_cons whole,
        List.map_cons, broken, ih]
      rfl

/-- Replacing solid texts within lines is replacing in each line. -/
theorem texts_replaceAll (source : List Char) :
    texts (lines (replaceAll old new source)) =
      (texts (lines source)).map (replaceAll old new) := by
  have trimmed : (rawLines source).map (trim ∘ replaceAll old new) =
      ((rawLines source).map trim).map (replaceAll old new) := by
    rw [List.map_map]
    exact List.map_congr_left fun raw _ => newSolid.trim_replaceAll oldSolid raw
  have same : (fun text : List Char => !(replaceAll old new text).isEmpty) =
      fun text => !text.isEmpty := by
    funext text
    have empty : replaceAll old new text = [] ↔ text = [] := replaceAll_eq_nil_iff newSolid.ne_nil
    rw [Bool.eq_iff_iff]
    simp [empty]
  rw [texts_lines, texts_lines, rawLines_replaceAll oldSolid newSolid oldWhole newWhole,
    List.map_map, trimmed, List.filter_map]
  exact congrArg (fun p => ((rawLines source).map trim |>.filter p).map (replaceAll old new)) same

end Replace

section Separator
variable {old new : List Char}

/-- Replacing a text that is more than dots by another such text keeps the separators. -/
theorem all_dots_replaceAll (oldSolid : ∃ c ∈ old, c ≠ '.') (newSolid : ∃ c ∈ new, c ≠ '.')
    (text : List Char) :
    (replaceAll old new text).all (· == '.') = text.all (· == '.') := by
  by_cases occurs : old <:+: text
  · obtain ⟨c, oldMember, oldOther⟩ := oldSolid
    obtain ⟨d, newMember, newOther⟩ := newSolid
    have before : text.all (· == '.') = false :=
      List.all_eq_false.mpr ⟨c, occurs.mem oldMember, by simpa using oldOther⟩
    have after : (replaceAll old new text).all (· == '.') = false :=
      List.all_eq_false.mpr ⟨d, mem_replaceAll (List.ne_nil_of_mem oldMember) occurs newMember,
        by simpa using newOther⟩
    rw [before, after]
  · rw [replaceAll_eq_self occurs]

theorem texts_phases_replaceAll (oldSolid : ∃ c ∈ old, c ≠ '.') (newSolid : ∃ c ∈ new, c ≠ '.')
    {ls changed : List Line} (same : texts changed = (texts ls).map (replaceAll old new)) :
    texts (phases changed).1 = (texts (phases ls).1).map (replaceAll old new) ∧
      texts (phases changed).2 = (texts (phases ls).2).map (replaceAll old new) := by
  have dots : ((fun text => !text.all (· == '.')) ∘ replaceAll old new) =
      fun text : List Char => !text.all (· == '.') := by
    funext text
    rw [Function.comp_apply, all_dots_replaceAll oldSolid newSolid]
  rw [(texts_phases changed).1, (texts_phases changed).2, (texts_phases ls).1, (texts_phases ls).2,
    same, List.takeWhile_map, List.dropWhile_map, dots, List.map_drop]
  exact ⟨rfl, rfl⟩

end Separator

end Flowchart.Script
