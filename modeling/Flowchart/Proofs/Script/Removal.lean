import Flowchart.Proofs.Lookup
import Flowchart.Proofs.Script.Place
/-! Taking lines out of a source. The lines that are left are read as before, at the places to which
they move up. -/
namespace Flowchart.Script
open Flowchart.Text

theorem filter_flatMap_of_same {α β : Type} {f : α → List β} {keep : β → Bool} {want : α → Bool}
    {xs : List α} (same : ∀ x ∈ xs, ∀ y ∈ f x, keep y = want x) :
    (xs.flatMap f).filter keep = (xs.filter want).flatMap f := by
  induction xs with
  | nil => rfl
  | cons x xs ih =>
      obtain ⟨first, others⟩ := List.forall_mem_cons.mp same
      rw [List.flatMap_cons, List.filter_append, ih others, List.filter_cons]
      cases wanted : want x with
      | true =>
          have all : ∀ y ∈ f x, keep y = true := fun y member => (first y member).trans wanted
          rw [List.filter_eq_self.mpr all, if_pos rfl, List.flatMap_cons]
      | false =>
          have none : ∀ y ∈ f x, ¬ keep y = true := by
            intro y member
            rw [first y member, wanted]
            exact Bool.false_ne_true
          rw [List.filter_eq_nil_iff.mpr none]
          rfl

section Pieces

/-- The pieces of a source that end at its line breaks, each with its place. -/
def pieces (offset : Nat) : List (List Char) → List Line
  | [] => []
  | raw :: raws => ⟨raw, offset⟩ :: pieces (offset + byteSize raw) raws

/-- The line in a piece, if it is not blank. -/
def Line.trimmed (piece : Line) : List Line := trimLines piece.start [piece.text]

theorem texts_pieces (offset : Nat) (raws : List (List Char)) :
    (pieces offset raws).map (·.text) = raws := by
  induction raws generalizing offset with
  | nil => rfl
  | cons raw raws ih => exact congrArg (raw :: ·) (ih _)

theorem trimLines_eq_flatMap (offset : Nat) (raws : List (List Char)) :
    trimLines offset raws = (pieces offset raws).flatMap (·.trimmed) := by
  induction raws generalizing offset with
  | nil => rfl
  | cons raw raws ih =>
      rw [trimLines_cons, ih]
      rfl

theorem pieces_ordered (offset : Nat) (raws : List (List Char)) :
    (∀ piece ∈ pieces offset raws, offset ≤ piece.start) ∧
      (pieces offset raws).Pairwise (·.stop ≤ ·.start) := by
  induction raws generalizing offset with
  | nil => exact ⟨List.forall_mem_nil _, List.Pairwise.nil⟩
  | cons raw raws ih =>
      obtain ⟨later, order⟩ := ih (offset + byteSize raw)
      refine ⟨List.forall_mem_cons.mpr ⟨Nat.le_refl _, ?_⟩, List.pairwise_cons.mpr ⟨later, order⟩⟩
      exact fun piece member => (Nat.le_add_right _ _).trans (later piece member)

/-- The line in a piece is inside of it. -/
theorem eq_of_mem_trimmed {piece l : Line} (member : l ∈ piece.trimmed) :
    piece.trimmed = [l] ∧ piece.start ≤ l.start ∧ l.start < l.stop ∧ l.stop ≤ piece.stop := by
  by_cases blank : AllBlank piece.text
  · rw [Line.trimmed, trimLines_of_allBlank blank] at member
    cases member
  · obtain ⟨before, behind, split, -, -, solid, line⟩ := trimLines_singleton blank
    rw [Line.trimmed, line] at member ⊢
    obtain rfl := List.mem_singleton.mp member
    have size := congrArg byteSize split
    rw [byteSize_append, byteSize_append] at size
    have positive := byteSize_pos solid.ne_nil
    refine ⟨rfl, Nat.le_add_right _ _, Nat.lt_add_of_pos_right positive, ?_⟩
    simp only [Line.stop]
    omega

/-- Lines that are left of a source keep their breaks. -/
theorem rawLines_of_sublist {kept : List (List Char)} {source : List Char}
    (part : kept.Sublist (rawLines source)) : rawLines kept.flatten = kept := by
  -- only the last piece may be without a break, and it stays the last one
  induction source using line_induction generalizing kept with
  | whole cs whole =>
      by_cases empty : cs = []
      · subst empty
        obtain rfl := List.sublist_nil.mp part
        rfl
      · rw [rawLines_of_whole whole empty] at part
        rcases List.sublist_singleton.mp part with rfl | rfl
        · rfl
        · rw [List.flatten_singleton, rawLines_of_whole whole empty]
  | line l rest whole ih =>
      rw [rawLines_cons whole] at part
      rcases List.sublist_cons_iff.mp part with later | ⟨others, rfl, later⟩
      · exact ih later
      · rw [List.flatten_cons, List.append_assoc, List.singleton_append, rawLines_cons whole,
          ih later]

end Pieces

section Moving

/-- A line whose place is told anew. -/
def Line.moved (f : Nat → Nat) (l : Line) : Line := ⟨l.text, f l.start⟩

theorem Line.text_moved (f : Nat → Nat) (l : Line) : (l.moved f).text = l.text := rfl

/-- How many bytes of these pieces stand before a place of the source. -/
def bytesBefore : List Line → (place : Nat) → Nat
  | [], _ => 0
  | piece :: kept, place =>
    min (byteSize piece.text) (place - piece.start) + bytesBefore kept place

theorem bytesBefore_eq_zero {kept : List Line} {place : Nat}
    (later : ∀ piece ∈ kept, place ≤ piece.start) : bytesBefore kept place = 0 := by
  induction kept with
  | nil => rfl
  | cons piece kept ih =>
      obtain ⟨first, others⟩ := List.forall_mem_cons.mp later
      rw [bytesBefore, ih others, Nat.sub_eq_zero_of_le first, Nat.min_zero]

variable {kept : List Line} (order : kept.Pairwise (·.stop ≤ ·.start))
include order

/-- Within a piece that is left, places keep their distance. -/
theorem bytesBefore_add {piece : Line} (member : piece ∈ kept) {i : Nat}
    (inside : i ≤ byteSize piece.text) :
    bytesBefore kept (piece.start + i) = bytesBefore kept piece.start + i := by
  induction kept with
  | nil => cases member
  | cons first kept ih =>
      obtain ⟨apart, order⟩ := List.pairwise_cons.mp order
      rw [bytesBefore, bytesBefore]
      rcases List.mem_cons.mp member with rfl | later
      · -- nothing of the pieces behind this one is before the place
        have stop : piece.start + i ≤ piece.stop := Nat.add_le_add_left inside _
        rw [bytesBefore_eq_zero fun other later => stop.trans (apart other later),
          bytesBefore_eq_zero fun other later => (Nat.le_add_right _ _).trans (apart other later),
          Nat.add_sub_cancel_left, Nat.min_eq_right inside, Nat.sub_self, Nat.min_zero]
        exact (Nat.zero_add i).symm
      · have behind := apart piece later
        rw [Line.stop] at behind
        rw [ih order later, Nat.min_eq_left (by omega), Nat.min_eq_left (by omega), Nat.add_assoc]

theorem pieces_kept (offset : Nat) :
    pieces offset (kept.map (·.text)) =
      kept.map (·.moved fun place => offset + bytesBefore kept place) := by
  induction kept generalizing offset with
  | nil => rfl
  | cons piece kept ih =>
      obtain ⟨apart, order⟩ := List.pairwise_cons.mp order
      rw [List.map_cons, pieces, ih order, List.map_cons, Line.moved]
      congr 1
      · rw [bytesBefore, Nat.sub_self, Nat.min_zero,
          bytesBefore_eq_zero fun other later => (Nat.le_add_right _ _).trans (apart other later)]
        rfl
      · refine List.map_congr_left fun other later => ?_
        have behind := apart other later
        rw [Line.stop] at behind
        rw [Line.moved, Line.moved, bytesBefore, Nat.min_eq_left (by omega), Nat.add_assoc]

omit order in
theorem trimmed_moved {f : Nat → Nat} {piece : Line}
    (rigid : ∀ i ≤ byteSize piece.text, f (piece.start + i) = f piece.start + i) :
    (piece.moved f).trimmed = piece.trimmed.map (·.moved f) := by
  rw [Line.trimmed, Line.trimmed, Line.moved]
  by_cases blank : AllBlank piece.text
  · rw [trimLines_of_allBlank blank, trimLines_of_allBlank blank]
    rfl
  · obtain ⟨before, behind, split, -, -, -, line⟩ := trimLines_singleton blank
    have inside : byteSize before ≤ byteSize piece.text := by
      conv => rhs; rw [split, byteSize_append]
      exact Nat.le_add_right _ _
    rw [line, line, List.map_singleton, Line.moved, rigid _ inside]

end Moving

section Keeping
variable {source : List Char} {keep : Line → Bool}
  (same : ∀ piece ∈ pieces 0 (rawLines source), ∀ l ∈ piece.trimmed, keep l = keep piece)

/-- What is left of a source when only these pieces are kept. -/
def keptPieces (keep : Line → Bool) (source : List Char) : List Line :=
  (pieces 0 (rawLines source)).filter keep

theorem keptPieces_ordered (keep : Line → Bool) (source : List Char) :
    (keptPieces keep source).Pairwise (·.stop ≤ ·.start) :=
  (pieces_ordered 0 (rawLines source)).2.sublist List.filter_sublist

include same

theorem lines_filter :
    (lines source).filter keep = (keptPieces keep source).flatMap (·.trimmed) := by
  rw [lines, trimLines_eq_flatMap]
  exact filter_flatMap_of_same same

/-- Where a piece is kept with its line, the lines that are left are those that are kept. -/
theorem lines_keptPieces :
    lines ((keptPieces keep source).flatMap (·.text)) =
      ((lines source).filter keep).map (·.moved (bytesBefore (keptPieces keep source))) := by
  have order := keptPieces_ordered keep source
  have part : ((keptPieces keep source).map (·.text)).Sublist (rawLines source) := by
    have texts := texts_pieces 0 (rawLines source)
    conv => rhs; rw [← texts]
    exact List.filter_sublist.map _
  rw [lines_filter same, List.map_flatMap, List.flatMap_def, lines, rawLines_of_sublist part,
    trimLines_eq_flatMap, pieces_kept order, List.flatMap_map]
  refine List.flatMap_congr fun piece member => ?_
  simp only [Nat.zero_add]
  exact trimmed_moved fun i inside => bytesBefore_add order member inside

/-- Lines that are kept are as long as before. -/
theorem stop_moved {l : Line} (member : l ∈ (lines source).filter keep) :
    (l.moved (bytesBefore (keptPieces keep source))).stop =
      bytesBefore (keptPieces keep source) l.stop := by
  rw [lines_filter same] at member
  obtain ⟨piece, kept, inside⟩ := List.mem_flatMap.mp member
  obtain ⟨-, first, long, last⟩ := eq_of_mem_trimmed inside
  have order := keptPieces_ordered keep source
  have add (place : Nat) (first : piece.start ≤ place) (last : place ≤ piece.stop) :
      bytesBefore (keptPieces keep source) place =
        bytesBefore (keptPieces keep source) piece.start + (place - piece.start) := by
    rw [Line.stop] at last
    rw [← bytesBefore_add order kept (by omega)]
    congr 1
    omega
  have size : l.stop = l.start + byteSize l.text := rfl
  have moved : (l.moved (bytesBefore (keptPieces keep source))).stop =
      bytesBefore (keptPieces keep source) l.start + byteSize l.text := rfl
  rw [moved, add l.start first (by omega), add l.stop (by omega) last]
  omega

end Keeping

section Spans

/-- Some place is in both. -/
def Span.meets (s t : Span) : Bool := s.start < t.stop && t.start < s.stop

theorem Span.meets_iff {s t : Span} : s.meets t = true ↔ s.start < t.stop ∧ t.start < s.stop := by
  simp [meets]

/-- A span from line to line meets the pieces whose lines it meets. -/
theorem meets_piece {source : List Char} {s : Span} {a b : Line} (first : a ∈ lines source)
    (last : b ∈ lines source) (start : s.start = a.start) (stop : s.stop = b.stop) {piece l : Line}
    (member : piece ∈ pieces 0 (rawLines source)) (inside : l ∈ piece.trimmed) :
    s.meets l.span = s.meets piece.span := by
  have order := (pieces_ordered 0 (rawLines source)).2
  obtain ⟨alone, front, long, back⟩ := eq_of_mem_trimmed inside
  have place {c : Line} (other : c ∈ lines source) :
      c.start < c.stop ∧ (c = l ∨ c.stop ≤ piece.start ∨ piece.stop ≤ c.start) := by
    rw [lines, trimLines_eq_flatMap] at other
    obtain ⟨next, there, within⟩ := List.mem_flatMap.mp other
    obtain ⟨-, begins, some, ends⟩ := eq_of_mem_trimmed within
    refine ⟨some, ?_⟩
    by_cases same : next = piece
    · rw [same, alone] at within
      exact .inl (List.mem_singleton.mp within)
    · rcases pairwise_or order there member same with before | behind
      · exact .inr (.inl (ends.trans before))
      · exact .inr (.inr (behind.trans begins))
  have starts : a.start < l.stop ↔ a.start < piece.stop := by
    obtain ⟨long, rfl | before | behind⟩ := place first <;> omega
  have stops : l.start < b.stop ↔ piece.start < b.stop := by
    obtain ⟨long, rfl | before | behind⟩ := place last <;> omega
  rw [Bool.eq_iff_iff, Span.meets_iff, Span.meets_iff, start, stop]
  exact and_congr starts stops

end Spans

end Flowchart.Script
