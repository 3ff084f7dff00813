import Flowchart.Script.Chart
import Flowchart.Proofs.Script.Registry
import Flowchart.Proofs.Text.Blank
/-! What a walk over the structure keeps true: the ends of every connection are declared blocks, no
connection is made twice, and a label is never empty and has no blanks around it. -/
namespace Flowchart.Script
open Flowchart.Text

/-- A label is trimmed and there is something in it, or there is none. -/
def CleanLabel (label : Option String) : Prop :=
  ∀ text, label = some text → text ≠ "" ∧ Trimmed text.toList

instance (label : Option String) : Decidable (CleanLabel label) :=
  inferInstanceAs (Decidable (∀ text ∈ label, text ≠ "" ∧ Trimmed text.toList))

theorem CleanLabel.none : CleanLabel none := fun _ absent => nomatch absent

theorem CleanLabel.or {label other : Option String} (first : CleanLabel label)
    (second : CleanLabel other) : CleanLabel (label.or other) := by
  cases label with
  | none => exact second
  | some text => exact first

theorem cleanLabel_arrowLabel (text : List Char) : CleanLabel (arrowLabel text) := by
  intro label made
  simp only [arrowLabel] at made
  split at made
  · cases made
  · next solid =>
    obtain rfl := Option.some.inj made
    refine ⟨?_, by simpa using trim_trim text⟩
    simpa using solid

theorem cleanLabel_labelled {tail? : List Char → Option (Direction × List Char)}
    {cs rest : List Char} {arrow : Arrow} (read : labelled? tail? cs = some (arrow, rest)) :
    CleanLabel arrow.label := by
  unfold labelled? at read
  split at read
  · obtain ⟨⟨label, direction, after⟩, -, made⟩ := Option.map_eq_some_iff.mp read
    cases made
    exact cleanLabel_arrowLabel label
  · obtain ⟨⟨direction, after⟩, -, made⟩ := Option.map_eq_some_iff.mp read
    cases made
    exact .none

theorem cleanLabel_arrow {cs : List Char} {arrow : Arrow} (read : arrow? cs = some arrow) :
    CleanLabel arrow.label := by
  unfold arrow? at read
  split at read
  · obtain ⟨⟨found, rest⟩, same, rfl⟩ := Option.map_eq_some_iff.mp read
    exact cleanLabel_labelled same
  · cases read

theorem cleanLabel_backReference {cs target : List Char} {arrow : Arrow}
    (read : backReference? cs = some (arrow, target)) : CleanLabel arrow.label := by
  unfold backReference? at read
  split at read
  · split at read
    · next found =>
      split at read
      · cases read
      · cases read
        exact cleanLabel_labelled found
    · cases read
  · cases read

theorem cleanLabel_groupOpen {cs : List Char} {arrow : Arrow} (read : groupOpen? cs = some arrow) :
    CleanLabel arrow.label := by
  unfold groupOpen? at read
  split at read
  · obtain ⟨⟨found, rest⟩, same, rfl⟩ := Option.map_eq_some_iff.mp read
    exact cleanLabel_labelled same
  · cases read

theorem cleanLabel_mergeFrom {before line reference : List Char} {arrow : Arrow}
    (read : mergeFrom? before line = some (reference, arrow)) : CleanLabel arrow.label := by
  induction line generalizing before with
  | nil => cases read
  | cons c cs ih =>
      simp only [mergeFrom?] at read
      split at read
      · next opened =>
        split at read
        · exact ih read
        · cases read
          exact cleanLabel_groupOpen opened
      · exact ih read

/-- Connections are the same or not, whichever is asked. -/
theorem sameConnection_comm (e f : Edge) : e.sameConnection f = f.sameConnection e := by
  simp only [Edge.sameConnection, Bool.beq_comm]

/-- Where no two connections are the same, none before another is the same as that. -/
theorem any_sameConnection_eq_false {kept later : List Edge} {e : Edge}
    (distinct : (kept ++ e :: later).Pairwise fun e f => e.sameConnection f = false) :
    kept.any e.sameConnection = false := by
  refine List.any_eq_false.mpr ?_
  intro f member
  have apart := (List.pairwise_append.mp distinct).2.2 f member e List.mem_cons_self
  rw [sameConnection_comm, apart]
  exact Bool.false_ne_true

section Statement
variable {blocks : Registry} {line : List Char}

/-- What a statement names is declared, and the label of its arrow is clean. -/
def Statement.Sound (n : Nat) : Statement → Prop
  | .inlineBack source a _ => source < n ∧ CleanLabel a.label
  | .back a _ | .group a | .merge _ a | .arrow a => CleanLabel a.label
  | .visit block => block < n
  | .unknown => True

theorem statement_sound (blocks : Registry) (line : List Char) :
    (statement blocks line).Sound blocks.length := by
  unfold statement
  split
  · next source arrow target read =>
    simp only [inlineBack?] at read
    split at read
    · next longest =>
      obtain ⟨⟨found, rest⟩, inner, made⟩ := Option.map_eq_some_iff.mp read
      cases made
      exact ⟨Registry.lt_of_longestPrefix? longest, cleanLabel_backReference inner⟩
    · cases read
  · split
    · next read => exact cleanLabel_backReference read
    · split
      · next read => exact cleanLabel_groupOpen read
      · split
        · next read => exact cleanLabel_mergeFrom read
        · split
          · next read => exact cleanLabel_arrow read
          · split
            · next longest => exact Registry.lt_of_longestPrefix? longest
            · trivial

end Statement

namespace Walk

/-- What is true of a walk over the structure of `n` blocks. -/
structure Valid (n : Nat) (w : Walk) : Prop where
  previous_lt : ∀ i, w.previous = some i → i < n
  pending_clean : ∀ arrow, w.pending = some arrow → CleanLabel arrow.label
  ends_lt : ∀ e ∈ w.edges, e.source < n ∧ e.target < n
  labels_clean : ∀ e ∈ w.edges, CleanLabel e.label
  distinct : w.edges.Pairwise fun e f => e.sameConnection f = false

variable {n : Nat} {w : Walk}

theorem Valid.start : Valid n {} :=
  ⟨nofun, nofun, nofun, nofun, List.Pairwise.nil⟩

theorem Valid.warn (valid : Valid n w) (d : Diagnostic) : Valid n (w.warn d) :=
  ⟨valid.previous_lt, valid.pending_clean, valid.ends_lt, valid.labels_clean, valid.distinct⟩

theorem Valid.unresolved (valid : Valid n w) (blocks : Registry) (token : List Char) (l : Line) :
    Valid n (unresolved blocks w token l) := valid.warn _

theorem Valid.leave (valid : Valid n w) : Valid n { w with previous := none } :=
  ⟨nofun, valid.pending_clean, valid.ends_lt, valid.labels_clean, valid.distinct⟩

theorem Valid.drop (valid : Valid n w) : Valid n { w with pending := none } :=
  ⟨valid.previous_lt, nofun, valid.ends_lt, valid.labels_clean, valid.distinct⟩

theorem Valid.stand (valid : Valid n w) {block : Nat} (inside : block < n) :
    Valid n { w with previous := some block } :=
  ⟨by rintro i ⟨⟩; exact inside, valid.pending_clean, valid.ends_lt, valid.labels_clean,
    valid.distinct⟩

theorem Valid.point (valid : Valid n w) {arrow : Arrow} (clean : CleanLabel arrow.label) :
    Valid n { w with pending := some arrow } :=
  ⟨valid.previous_lt, by rintro a ⟨⟩; exact clean, valid.ends_lt, valid.labels_clean,
    valid.distinct⟩

/-- The connection that an arrow makes between an anchor and another block. -/
def edgeOf (anchor other : Nat) (arrow : Arrow) (back : Bool) : Edge :=
  match arrow.direction with
  | .forward => { source := anchor, target := other, label := arrow.label, back }
  | .backward => { source := other, target := anchor, label := arrow.label, back }

theorem link_eq (w : Walk) (anchor other : Nat) (arrow : Arrow) (back : Bool) :
    w.link anchor other arrow back =
      if w.edges.any (edgeOf anchor other arrow back).sameConnection then w
      else { w with edges := w.edges ++ [edgeOf anchor other arrow back] } := rfl

theorem Valid.link (valid : Valid n w) {anchor other : Nat} {arrow : Arrow} (back : Bool)
    (anchorInside : anchor < n) (otherInside : other < n) (clean : CleanLabel arrow.label) :
    Valid n (w.link anchor other arrow back) := by
  rw [link_eq]
  split
  · exact valid
  · next fresh =>
    have ends : (edgeOf anchor other arrow back).source < n ∧
        (edgeOf anchor other arrow back).target < n ∧
        CleanLabel (edgeOf anchor other arrow back).label := by
      unfold edgeOf
      cases arrow.direction with
      | forward => exact ⟨anchorInside, otherInside, clean⟩
      | backward => exact ⟨otherInside, anchorInside, clean⟩
    constructor
    case previous_lt => exact valid.previous_lt
    case pending_clean => exact valid.pending_clean
    case ends_lt =>
      intro e member
      rcases List.mem_append.mp member with old | new
      · exact valid.ends_lt e old
      · obtain rfl := List.mem_singleton.mp new
        exact ⟨ends.1, ends.2.1⟩
    case labels_clean =>
      intro e member
      rcases List.mem_append.mp member with old | new
      · exact valid.labels_clean e old
      · obtain rfl := List.mem_singleton.mp new
        exact ends.2.2
    case distinct =>
      refine List.pairwise_append.mpr ⟨valid.distinct, List.pairwise_singleton _ _, ?_⟩
      intro e old f new
      obtain rfl := List.mem_singleton.mp new
      have other := List.any_eq_false.mp (Bool.not_eq_true _ ▸ fresh) e old
      rw [sameConnection_comm]
      simpa using other

theorem Valid.arrive (valid : Valid n w) {block : Nat} (inside : block < n) :
    Valid n (w.arrive block) := by
  unfold Walk.arrive
  cases previous : w.previous with
  | none => exact (valid.stand inside).drop
  | some anchor =>
      cases pending : w.pending with
      | none => exact (valid.stand inside).drop
      | some arrow =>
          exact ((valid.link false (valid.previous_lt anchor previous) inside
            (valid.pending_clean arrow pending)).stand inside).drop

variable {blocks : Registry}

theorem Valid.member {label : Option String} (valid : Valid blocks.length w)
    (clean : CleanLabel label) {anchor : Option Nat} {group : Arrow}
    (anchored : ∀ i, anchor = some i → i < blocks.length) (cleanGroup : CleanLabel group.label)
    (l : Line) :
    Valid blocks.length (member blocks anchor group (w, label) l).1 ∧
      CleanLabel (member blocks anchor group (w, label) l).2 := by
  unfold Walk.member
  simp only
  split
  · next arrow read => exact ⟨valid, cleanLabel_arrow read⟩
  · split
    · exact ⟨valid.unresolved blocks l.text l, .none⟩
    · next block found =>
      cases anchor with
      | none => exact ⟨valid, .none⟩
      | some i =>
          exact ⟨valid.link false (anchored i rfl) (Registry.lt_of_resolve? found)
            (clean.or cleanGroup), .none⟩

theorem Valid.members {label : Option String} (valid : Valid blocks.length w)
    (clean : CleanLabel label) {anchor : Option Nat} {group : Arrow}
    (anchored : ∀ i, anchor = some i → i < blocks.length) (cleanGroup : CleanLabel group.label)
    (body : List Line) :
    Valid blocks.length (body.foldl (Walk.member blocks anchor group) (w, label)).1 := by
  induction body generalizing w label with
  | nil => exact valid
  | cons l body ih =>
      obtain ⟨next, nextClean⟩ := valid.member clean anchored cleanGroup l
      exact ih next nextClean

theorem Valid.group (valid : Valid blocks.length w) {anchor : Option Nat} {arrow : Arrow}
    (anchored : ∀ i, anchor = some i → i < blocks.length) (clean : CleanLabel arrow.label)
    (l : Line) (ls : List Line) : Valid blocks.length (w.group blocks anchor arrow l ls) := by
  unfold Walk.group
  refine Valid.members ?_ .none anchored clean _
  split
  · exact valid
  · exact valid.warn _

theorem Valid.step (valid : Valid blocks.length w) (l : Line) (ls : List Line) :
    Valid blocks.length (w.step blocks l ls).1 := by
  have sound := statement_sound blocks l.text
  unfold Walk.step
  generalize statement blocks l.text = said at sound ⊢
  cases said with
  | inlineBack source arrow target =>
      have arrived := valid.arrive sound.1
      simp only
      split
      · next block found =>
        exact (arrived.link true sound.1 (Registry.lt_of_resolve? found) sound.2).leave
      · exact (arrived.unresolved blocks target l).leave
  | back arrow target =>
      have left := valid.leave.drop
      simp only
      split
      · next source block previous found =>
        exact left.link true (valid.previous_lt source previous) (Registry.lt_of_resolve? found)
          sound
      · exact left.warn _
      · exact left.unresolved blocks target l
  | group arrow =>
      refine Valid.group ?_ valid.previous_lt sound l ls
      split
      · exact valid.warn _
      · exact valid
  | merge reference arrow =>
      simp only
      split
      · next anchor found =>
        have inside := Registry.lt_of_resolve? found
        exact (valid.arrive inside).group (by rintro i ⟨⟩; exact inside) sound l ls
      · exact (valid.unresolved blocks reference l).group valid.previous_lt sound l ls
  | arrow arrow => exact valid.point sound
  | visit block => exact valid.arrive sound
  | unknown => exact valid.warn _

theorem Valid.run (valid : Valid blocks.length w) (ls : List Line) :
    Valid blocks.length (w.run blocks ls) := by
  induction w, ls using Walk.run.induct blocks with
  | case1 w => rw [Walk.run]; exact valid
  | case2 w l ls ih => rw [Walk.run]; exact ih (valid.step l ls)

end Walk
end Flowchart.Script
