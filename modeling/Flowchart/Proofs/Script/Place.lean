import Flowchart.Proofs.Script.Passage
import Mathlib.Data.List.SplitBy
/-! Places in a source. Lines follow each other with blanks between them, and a passage takes up a
piece of the source: from its first line to its last, where the breaks between its lines count as
spaces. -/
namespace Flowchart.Script
open Flowchart.Text

/-- Lines as they stand in a text that begins at an offset. Blanks are between them, with a line
break in front of each but the first. -/
inductive Laid : Nat → List Char → List Line → Prop
  | blank {offset : Nat} {cs : List Char} (blank : AllBlank cs) : Laid offset cs []
  | line {offset : Nat} {gap rest : List Char} {l : Line} {ls : List Line} (blank : AllBlank gap)
      (broken : 0 < offset → '\n' ∈ gap) (start : l.start = offset + byteSize gap)
      (solid : Solid l.text) (whole : '\n' ∉ l.text) (later : Laid l.stop rest ls) :
      Laid offset (gap ++ (l.text ++ rest)) (l :: ls)

theorem byteSize_pos {cs : List Char} (some : cs ≠ []) : 0 < byteSize cs := by
  obtain ⟨c, rest, rfl⟩ := List.exists_cons_of_ne_nil some
  exact Nat.add_pos_left c.utf8Size_pos _

section Lines

theorem allBlank_append {bs cs : List Char} (front : AllBlank bs) (back : AllBlank cs) :
    AllBlank (bs ++ cs) := by
  intro c member
  exact (List.mem_append.mp member).elim (front c) (back c)

theorem trimLines_of_allBlank {raw : List Char} (blank : AllBlank raw) (offset : Nat) :
    trimLines offset [raw] = [] := by
  have nothing := blank.trim_append []
  rw [List.append_nil] at nothing
  simp only [trimLines, nothing]
  rfl

/-- A piece of a source holds one line, unless it is blank. -/
theorem trimLines_singleton {raw : List Char} (visible : ¬ AllBlank raw) :
    ∃ before behind, raw = before ++ (trim raw ++ behind) ∧ AllBlank before ∧ AllBlank behind ∧
      Solid (trim raw) ∧
      ∀ offset, trimLines offset [raw] = [⟨trim raw, offset + byteSize before⟩] := by
  obtain ⟨before, behind, split, front, back⟩ := exists_trim raw
  have solid : Solid (trim raw) := by
    refine ⟨?_, trim_trim raw⟩
    intro empty
    rw [empty, List.nil_append] at split
    exact visible (split ▸ allBlank_append front back)
  refine ⟨before, behind, split, front, back, solid, fun offset => ?_⟩
  have start : raw.takeWhile isBlank = before := by
    obtain ⟨c, rest, visible⟩ := List.exists_cons_of_ne_nil solid.ne_nil
    have stop := (trimmed_iff.mp solid.trimmed).1 c (by rw [visible]; rfl)
    rw [split, visible, List.takeWhile_append_of_pos front, List.cons_append,
      List.takeWhile_cons_of_neg (by rw [stop]; exact Bool.false_ne_true), List.append_nil]
  have some : (trim raw).isEmpty = false := List.isEmpty_eq_false_iff.mpr solid.ne_nil
  simp only [trimLines, some, start]
  rfl

/-- One more piece in front. Its line is laid down, or the blanks grow by it. -/
theorem laid_piece {offset : Nat} {pre cs tail : List Char} {ls : List Line}
    (blank : AllBlank pre) (broken : 0 < offset → '\n' ∈ pre) (whole : '\n' ∉ cs)
    (later : ∀ {o : Nat} {bs : List Char}, AllBlank bs →
      o + byteSize bs = offset + byteSize pre + byteSize cs → Laid o (bs ++ tail) ls) :
    Laid offset (pre ++ (cs ++ tail)) (trimLines (offset + byteSize pre) [cs] ++ ls) := by
  by_cases nothing : AllBlank cs
  · rw [trimLines_of_allBlank nothing, List.nil_append, ← List.append_assoc]
    refine later (allBlank_append blank nothing) ?_
    rw [byteSize_append, Nat.add_assoc]
  · obtain ⟨before, behind, split, front, back, solid, line⟩ := trimLines_singleton nothing
    have piece : pre ++ (cs ++ tail) = (pre ++ before) ++ (trim cs ++ (behind ++ tail)) := by
      conv => lhs; rw [split]
      simp only [List.append_assoc]
    rw [line, piece, List.singleton_append]
    have start : offset + byteSize pre + byteSize before = offset + byteSize (pre ++ before) := by
      rw [byteSize_append, Nat.add_assoc]
    have size : offset + byteSize pre + byteSize before + byteSize (trim cs) + byteSize behind =
        offset + byteSize pre + byteSize cs := by
      conv => rhs; rw [split]
      simp only [byteSize_append, Nat.add_assoc]
    exact .line (l := ⟨trim cs, _⟩) (allBlank_append blank front)
      (fun positive => List.mem_append_left before (broken positive)) start solid
      (fun inside => whole ((trim_part cs).mem inside)) (later back size)

theorem laid_trimLines (source : List Char) {offset : Nat} {pre : List Char} (blank : AllBlank pre)
    (broken : 0 < offset → '\n' ∈ pre) :
    Laid offset (pre ++ source) (trimLines (offset + byteSize pre) (rawLines source)) := by
  induction source using line_induction generalizing offset pre with
  | whole cs whole =>
      have nothing {o : Nat} {bs : List Char} (blank : AllBlank bs) : Laid o (bs ++ []) [] :=
        .blank (allBlank_append blank (List.forall_mem_nil _))
      have laid := laid_piece blank broken whole fun blank _ => nothing blank
      rwa [List.append_nil, List.append_nil, ← trimLines_of_whole whole] at laid
  | line l rest whole ih =>
      rw [rawLines_cons whole, trimLines_cons, trimLines_newline]
      refine laid_piece blank broken whole fun {o bs} nothing size => ?_
      have blank : AllBlank (bs ++ ['\n']) := allBlank_append nothing allBlank_newline
      have broken : 0 < o → '\n' ∈ bs ++ ['\n'] :=
        fun _ => List.mem_append_right bs List.mem_cons_self
      have laid := ih blank broken
      rw [List.append_assoc, List.singleton_append, byteSize_append, ← Nat.add_assoc, size] at laid
      rwa [byteSize_append, ← Nat.add_assoc]

/-- The lines of a source stand in it. -/
theorem laid_lines (source : List Char) : Laid 0 source (lines source) :=
  laid_trimLines source (List.forall_mem_nil _) nofun

end Lines

/-- The phases are all of a script but the first separator. -/
theorem phases_parts (ls : List Line) :
    ls = (phases ls).1 ++ ((ls.dropWhile (!·.isSeparator)).take 1 ++ (phases ls).2) := by
  rw [phases, List.take_append_drop, List.takeWhile_append_dropWhile]

namespace Laid
variable {offset : Nat} {cs : List Char} {ls : List Line}

/-- Lines follow each other. -/
theorem ordered (laid : Laid offset cs ls) :
    (∀ l ∈ ls, offset ≤ l.start ∧ l.start < l.stop) ∧ ls.Pairwise (·.stop ≤ ·.start) := by
  induction laid with
  | blank => exact ⟨List.forall_mem_nil _, List.Pairwise.nil⟩
  | @line offset gap rest l ls blank broken start solid whole later ih =>
      have inside : offset ≤ l.start ∧ l.start < l.stop := by
        have positive := byteSize_pos solid.ne_nil
        exact ⟨start ▸ Nat.le_add_right _ _, Nat.lt_add_of_pos_right positive⟩
      refine ⟨List.forall_mem_cons.mpr ⟨inside, ?_⟩, List.pairwise_cons.mpr ⟨?_, ih.2⟩⟩
      · intro m member
        exact ⟨(inside.1.trans inside.2.le).trans (ih.1 m member).1, (ih.1 m member).2⟩
      · exact fun m member => (ih.1 m member).1

end Laid

section Unbroken

/-- A text with a space for each line break and the blanks around it. -/
def unbroken (cs : List Char) : List Char :=
  (cs.splitBy fun c d => isBlank c == isBlank d).flatMap fun run =>
    if '\n' ∈ run then [' '] else run

theorem unbroken_of_whole {cs : List Char} (whole : '\n' ∉ cs) : unbroken cs = cs := by
  have runs (run) (member : run ∈ cs.splitBy fun c d => isBlank c == isBlank d) :
      (if '\n' ∈ run then [' '] else run) = run := by
    refine if_neg fun inside => whole ?_
    rw [← List.flatten_splitBy (fun c d => isBlank c == isBlank d) cs]
    exact List.mem_flatten_of_mem member inside
  rw [unbroken, List.flatMap_def, List.map_congr_left runs, List.map_id']
  exact List.flatten_splitBy _ cs

theorem unbroken_gap {bs : List Char} (blank : AllBlank bs) (broken : '\n' ∈ bs) :
    unbroken bs = [' '] := by
  have chain : bs.IsChain fun c d => (isBlank c == isBlank d) = true := by
    refine (List.pairwise_of_forall_mem_list fun c first d second => ?_).isChain
    rw [blank c first, blank d second]
    rfl
  rw [unbroken, List.splitBy_of_isChain (List.ne_nil_of_mem broken) chain, List.flatMap_singleton,
    if_pos broken]

theorem unbroken_append {front bs back : List Char} (first : Solid front) (blank : AllBlank bs)
    (broken : '\n' ∈ bs) (last : Solid back) :
    unbroken (front ++ (bs ++ back)) = unbroken front ++ ' ' :: unbroken back := by
  have gap : unbroken (bs ++ back) = ' ' :: unbroken back := by
    rw [unbroken, List.splitBy_append, List.flatMap_append]
    · exact congrArg (· ++ unbroken back) (unbroken_gap blank broken)
    · intro c final d initial
      rw [blank c (List.mem_of_getLast? final), (trimmed_iff.mp last.trimmed).1 d initial]
      rfl
  rw [← gap, unbroken, List.splitBy_append, List.flatMap_append]
  · rfl
  · intro c final d initial
    obtain ⟨e, rest, rfl⟩ := List.exists_cons_of_ne_nil (List.ne_nil_of_mem broken)
    obtain rfl := Option.some.inj initial
    rw [(trimmed_iff.mp first.trimmed).2 c final, blank e List.mem_cons_self]
    rfl

end Unbroken

/-- A passage takes up a piece of the source, and what it declares is that piece without its
breaks. -/
theorem Laid.passage {offset : Nat} {cs : List Char} {l : Line} {tail behind : List Line}
    (laid : Laid offset cs (l :: (tail ++ behind))) :
    ∃ gap slice rest, cs = gap ++ (slice ++ rest) ∧ AllBlank gap ∧ (0 < offset → '\n' ∈ gap) ∧
      l.start = offset + byteSize gap ∧
      (Passage.mk l tail).last.stop = l.start + byteSize slice ∧ Solid slice ∧
      unbroken slice = (Passage.mk l tail).declaration.token := by
  induction tail generalizing offset cs l with
  | nil =>
      cases laid with
      | @line _ gap rest _ _ blank broken start solid whole later =>
          refine ⟨gap, l.text, rest, rfl, blank, broken, start, rfl, solid, ?_⟩
          rw [unbroken_of_whole whole]
          exact (List.append_nil l.text).symm
  | cons m tail ih =>
      cases laid with
      | @line _ gap rest _ _ blank broken start solid whole later =>
          obtain ⟨between, slice, rest, rfl, blanks, newline, next, stop, more, token⟩ := ih later
          have positive : 0 < l.stop := Nat.add_pos_right _ (byteSize_pos solid.ne_nil)
          refine ⟨gap, l.text ++ (between ++ slice), rest, ?_, blank, broken, start, ?_,
            solid.append between more, ?_⟩
          · simp only [List.append_assoc]
          · rw [byteSize_append, byteSize_append, ← Nat.add_assoc, ← Nat.add_assoc, ← Line.stop,
              ← next, ← stop, Passage.last, List.getLastD_cons, Passage.last]
          · rw [unbroken_append solid blanks (newline positive) more, unbroken_of_whole whole,
              token]
            rfl

theorem Laid.skip {offset : Nat} {cs : List Char} {before ls : List Line}
    (laid : Laid offset cs (before ++ ls)) :
    ∃ front rest, cs = front ++ rest ∧ Laid (offset + byteSize front) rest ls := by
  induction before generalizing offset cs with
  | nil => exact ⟨[], cs, rfl, laid⟩
  | cons l before ih =>
      cases laid with
      | @line _ gap rest _ _ blank broken start solid whole later =>
          obtain ⟨front, rest, rfl, laid⟩ := ih later
          refine ⟨gap ++ (l.text ++ front), rest, by simp only [List.append_assoc], ?_⟩
          rwa [byteSize_append, byteSize_append, ← Nat.add_assoc, ← Nat.add_assoc, ← start,
            ← Line.stop]

end Flowchart.Script
