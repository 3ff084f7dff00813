import Flowchart.Script.Arrow
import Flowchart.Proofs.Text.Blank
/-! How arrows are read. A label ends at the first place where a tail fits, a back-reference is an
arrow with an exclamation mark and a target behind it, and only a bracket at the end opens a
group. -/
namespace Flowchart.Script
open Flowchart.Text

section UpTo
variable {β : Type} {tail? : List Char → Option β}

/-- What lies before the found place: the tail fits there and at no place before it. -/
theorem upTo?_eq_some {before rest : List Char} {found : β} (fits : tail? rest = some found)
    (first : ∀ p q, before = p ++ q → q ≠ [] → tail? (q ++ rest) = none) :
    upTo? tail? (before ++ rest) = some (before, found) := by
  induction before with
  | nil =>
      cases rest with
      | nil => rw [List.nil_append, upTo?, fits]; rfl
      | cons c rest => rw [List.nil_append, upTo?, fits]
  | cons c before ih =>
      have later : ∀ p q, before = p ++ q → q ≠ [] → tail? (q ++ rest) = none := by
        intro p q split solid
        exact first (c :: p) q (by rw [split]; rfl) solid
      have here := first [] (c :: before) rfl (List.cons_ne_nil _ _)
      rw [List.cons_append] at here ⊢
      rw [upTo?, here, ih later]
      rfl

theorem exists_of_upTo? {cs before : List Char} {found : β}
    (read : upTo? tail? cs = some (before, found)) :
    ∃ rest, cs = before ++ rest ∧ tail? rest = some found := by
  induction cs generalizing before with
  | nil =>
      obtain ⟨fits, here, made⟩ := Option.map_eq_some_iff.mp read
      cases made
      exact ⟨[], rfl, here⟩
  | cons c cs ih =>
      rw [upTo?] at read
      split at read
      · next fits here =>
        cases read
        exact ⟨c :: cs, rfl, here⟩
      · obtain ⟨⟨front, fits⟩, here, made⟩ := Option.map_eq_some_iff.mp read
        cases made
        obtain ⟨rest, split, same⟩ := ih here
        exact ⟨rest, by rw [split]; rfl, same⟩

end UpTo

/-- An arrow with a label has its tail somewhere behind the star, one without has nothing else. -/
theorem exists_of_labelled? {tail? : List Char → Option (Direction × List Char)}
    {cs rest : List Char} {arrow : Arrow} (read : labelled? tail? cs = some (arrow, rest)) :
    ∃ tail, tail <:+ cs ∧ tail? tail = some (arrow.direction, rest) := by
  unfold labelled? at read
  split at read
  · next body =>
    obtain ⟨⟨label, direction, after⟩, found, made⟩ := Option.map_eq_some_iff.mp read
    cases made
    obtain ⟨tail, split, fits⟩ := exists_of_upTo? found
    refine ⟨tail, ?_, fits⟩
    rw [split]
    exact (List.suffix_append label tail).trans (List.suffix_cons _ _)
  · obtain ⟨⟨direction, after⟩, fits, made⟩ := Option.map_eq_some_iff.mp read
    cases made
    exact ⟨cs, List.suffix_rfl, fits⟩

section Tails

theorem skipStar_cons (c : Char) (cs : List Char) :
    skipStar (c :: cs) = if c = '*' then cs else c :: cs := by
  by_cases star : c = '*'
  · subst star
    rfl
  · rw [if_neg star]
    unfold skipStar
    split
    · next same => exact absurd (List.cons.inj same).1 star
    · rfl

theorem directionOr_cons (c : Char) (cs : List Char) :
    directionOr (c :: cs) =
      if c = '>' then (.forward, cs) else if c = '<' then (.backward, cs)
        else (.forward, c :: cs) := by
  unfold directionOr direction?
  split
  · next same => rw [(List.cons.inj same).1, (List.cons.inj same).2]; rfl
  · next same => rw [(List.cons.inj same).1, (List.cons.inj same).2]; rfl
  · next forward backward =>
    rw [if_neg fun same => forward cs (by rw [same]), if_neg fun same => backward cs (by rw [same])]
    rfl

theorem arrowTail?_eq (cs : List Char) :
    arrowTail? cs = if (directionOr (skipStar cs)).2 = [] then
      some ((directionOr (skipStar cs)).1, []) else none := by
  unfold arrowTail?
  obtain ⟨direction, rest⟩ := directionOr (skipStar cs)
  cases rest <;> rfl

theorem skipStar_suffix (cs : List Char) : skipStar cs <:+ cs := by
  cases cs with
  | nil => exact List.suffix_rfl
  | cons c cs =>
      rw [skipStar_cons]
      split
      · exact List.suffix_cons c cs
      · exact List.suffix_rfl

theorem directionOr_suffix (cs : List Char) : (directionOr cs).2 <:+ cs := by
  cases cs with
  | nil => exact List.suffix_rfl
  | cons c cs =>
      rw [directionOr_cons]
      split
      · exact List.suffix_cons c cs
      · split
        · exact List.suffix_cons c cs
        · exact List.suffix_rfl

theorem suffix_of_referenceTail? {cs target : List Char} {direction : Direction}
    (read : referenceTail? cs = some (direction, target)) : target <:+ cs := by
  unfold referenceTail? at read
  split at read
  · next same =>
    cases read
    have behind := directionOr_suffix (skipStar cs)
    rw [same] at behind
    exact ((List.suffix_cons _ _).trans behind).trans (skipStar_suffix cs)
  · cases read

section Mark
variable {front target : List Char} (unmarked : '!' ∉ front)
include unmarked

theorem skipStar_mark : skipStar (front ++ '!' :: target) = skipStar front ++ '!' :: target := by
  cases front with
  | nil => rfl
  | cons c front =>
      rw [List.cons_append, skipStar_cons, skipStar_cons]
      split <;> rfl

theorem directionOr_mark : directionOr (front ++ '!' :: target) =
    ((directionOr front).1, (directionOr front).2 ++ '!' :: target) := by
  cases front with
  | nil => rfl
  | cons c front =>
      rw [List.cons_append, directionOr_cons, directionOr_cons]
      split
      · rfl
      · split <;> rfl

theorem not_mem_skipStar : '!' ∉ skipStar front := by
  cases front with
  | nil => exact unmarked
  | cons c front =>
      rw [skipStar_cons]
      split
      · exact fun member => unmarked (List.mem_cons_of_mem c member)
      · exact unmarked

theorem not_mem_directionOr : '!' ∉ (directionOr front).2 := by
  cases front with
  | nil => exact unmarked
  | cons c front =>
      rw [directionOr_cons]
      split
      · exact fun member => unmarked (List.mem_cons_of_mem c member)
      · split
        · exact fun member => unmarked (List.mem_cons_of_mem c member)
        · exact unmarked

/-- In front of the first exclamation mark the tail of a back-reference is the tail of an arrow. -/
theorem referenceTail?_mark : referenceTail? (front ++ '!' :: target) =
    (arrowTail? front).map fun found => (found.1, target) := by
  have solid := not_mem_directionOr (not_mem_skipStar unmarked)
  rw [arrowTail?_eq]
  unfold referenceTail?
  rw [skipStar_mark unmarked, directionOr_mark (not_mem_skipStar unmarked)]
  cases left : (directionOr (skipStar front)).2 with
  | nil => rfl
  | cons c rest =>
      rw [left] at solid
      have other : c ≠ '!' := fun same => solid (same ▸ List.mem_cons_self)
      rw [if_neg (List.cons_ne_nil c rest)]
      split
      · next same => exact absurd (List.cons.inj (Prod.mk.inj same).2).1 other
      · rfl

theorem referenceTail?_unmarked : referenceTail? front = none := by
  have solid := not_mem_directionOr (not_mem_skipStar unmarked)
  unfold referenceTail?
  split
  · next same =>
    rw [same] at solid
    exact absurd List.mem_cons_self solid
  · rfl

end Mark

end Tails

section BackReference
variable {front target : List Char}

theorem upTo?_mark (unmarked : '!' ∉ front) :
    upTo? referenceTail? (front ++ '!' :: target) =
      (upTo? arrowTail? front).map fun found => (found.1, found.2.1, target) := by
  induction front with
  | nil => rfl
  | cons c front ih =>
      have here : referenceTail? (c :: front ++ '!' :: target) = _ := referenceTail?_mark unmarked
      rw [List.cons_append] at here ⊢
      rw [upTo?, upTo?, here]
      cases arrowTail? (c :: front) with
      | some found => rfl
      | none =>
          simp only [Option.map_none, ih fun member => unmarked (List.mem_cons_of_mem c member),
            Option.map_map]
          rfl

theorem labelled?_star (tail? : List Char → Option (Direction × List Char)) (body : List Char) :
    labelled? tail? ('*' :: body) = (upTo? tail? body).map fun found =>
      (⟨arrowLabel found.1, found.2.1⟩, found.2.2) := rfl

theorem labelled?_plain (tail? : List Char → Option (Direction × List Char)) {cs : List Char}
    (plain : cs.head? ≠ some '*') :
    labelled? tail? cs = (tail? cs).map fun found => (⟨none, found.1⟩, found.2) := by
  unfold labelled?
  split
  · exact absurd rfl plain
  · rfl

theorem labelled?_mark (unmarked : '!' ∉ front) :
    labelled? referenceTail? (front ++ '!' :: target) =
      (labelled? arrowTail? front).map fun found => (found.1, target) := by
  by_cases star : front.head? = some '*'
  · obtain ⟨body, rfl⟩ := List.head?_eq_some_iff.mp star
    rw [List.cons_append, labelled?_star, labelled?_star,
      upTo?_mark fun member => unmarked (List.mem_cons_of_mem _ member), Option.map_map,
      Option.map_map]
    rfl
  · have plain : (front ++ '!' :: target).head? ≠ some '*' := by
      cases front with
      | nil => simp
      | cons c front => exact star
    rw [labelled?_plain _ star, labelled?_plain _ plain, referenceTail?_mark unmarked,
      Option.map_map, Option.map_map]
    rfl

theorem labelled?_unmarked {cs : List Char} (unmarked : '!' ∉ cs) :
    labelled? referenceTail? cs = none := by
  cases read : labelled? referenceTail? cs with
  | none => rfl
  | some found =>
      obtain ⟨tail, part, fits⟩ := exists_of_labelled? read
      rw [referenceTail?_unmarked fun member => unmarked (part.mem member)] at fits
      cases fits

theorem backReference?_eq_none {cs : List Char} (other : cs.head? ≠ some 'a') :
    backReference? cs = none := by
  unfold backReference?
  split
  · exact absurd rfl other
  · rfl

theorem arrow?_eq_none {cs : List Char} (other : cs.head? ≠ some 'a') : arrow? cs = none := by
  unfold arrow?
  split
  · exact absurd rfl other
  · rfl

/-- A back-reference is an arrow, the first exclamation mark of the line, and a target. -/
theorem backReference?_mark (unmarked : '!' ∉ front) (solid : target ≠ []) :
    backReference? (front ++ '!' :: target) =
      (arrow? front).map fun arrow => (arrow, trim target) := by
  cases front with
  | nil => rfl
  | cons c front =>
      by_cases letter : c = 'a'
      · subst letter
        have inner : '!' ∉ front := fun member => unmarked (List.mem_cons_of_mem _ member)
        rw [List.cons_append, backReference?, arrow?, labelled?_mark inner]
        cases labelled? arrowTail? front with
        | none => rfl
        | some found => simp [solid]
      · have other (cs : List Char) : (c :: cs).head? ≠ some 'a' := by simpa using letter
        rw [List.cons_append, backReference?_eq_none (other _), arrow?_eq_none (other _)]
        rfl

theorem backReference?_unmarked {cs : List Char} (unmarked : '!' ∉ cs) :
    backReference? cs = none := by
  cases cs with
  | nil => rfl
  | cons c cs =>
      by_cases letter : c = 'a'
      · subst letter
        have later := fun member => unmarked (List.mem_cons_of_mem 'a' member)
        rw [backReference?, labelled?_unmarked later]
      · exact backReference?_eq_none (by simpa using letter)

end BackReference

section Group

theorem suffix_of_direction? {cs rest : List Char} {direction : Direction}
    (read : direction? cs = some (direction, rest)) : rest <:+ cs := by
  unfold direction? at read
  split at read
  · cases read
    exact List.suffix_cons _ _
  · cases read
    exact List.suffix_cons _ _
  · cases read

theorem bracket_of_groupTail? {cs : List Char} {found : Direction × List Char}
    (read : groupTail? cs = some found) : ['['] <:+ cs := by
  unfold groupTail? at read
  split at read
  · next same => exact (suffix_of_direction? same).trans (skipStar_suffix cs)
  · cases read

theorem bracket_of_groupOpen? {cs : List Char} {arrow : Arrow}
    (read : groupOpen? cs = some arrow) : ['['] <:+ cs := by
  unfold groupOpen? at read
  split at read
  · next rest =>
    obtain ⟨found, same, -⟩ := Option.map_eq_some_iff.mp read
    obtain ⟨tail, part, fits⟩ := exists_of_labelled? same
    exact ((bracket_of_groupTail? fits).trans part).trans
      ((List.suffix_cons _ _).trans (List.suffix_cons _ _))
  · cases read

theorem groupOpen?_eq_none {cs : List Char} (other : cs.head? ≠ some 'm') :
    groupOpen? cs = none := by
  unfold groupOpen?
  split
  · exact absurd rfl other
  · rfl

theorem bracket_of_mergeFrom? {before cs reference : List Char} {arrow : Arrow}
    (read : mergeFrom? before cs = some (reference, arrow)) : ['['] <:+ cs := by
  induction cs generalizing before with
  | nil => cases read
  | cons c cs ih =>
      simp only [mergeFrom?] at read
      split at read
      · next opened => exact bracket_of_groupOpen? opened
      · exact (ih read).trans (List.suffix_cons c cs)

/-- Only a line that ends with an opening bracket opens a group. -/
theorem mergeOpen?_eq_none {cs : List Char} (last : cs.getLast? ≠ some '[') :
    mergeOpen? cs = none := by
  cases read : mergeOpen? cs with
  | none => rfl
  | some found =>
      obtain ⟨front, split⟩ := bracket_of_mergeFrom? read
      rw [← split, List.getLast?_concat] at last
      exact absurd rfl last

end Group
end Flowchart.Script
