import Flowchart.Script.Chart
import Flowchart.Proofs.Script.Notation
/-! Lines on which a token heads a group. Such a line is cut at the first place where a group could
open, and a star behind two letters is enough for that. So a token heads its group as long as there
is no such place within the token itself; otherwise the line falls apart there. -/
namespace Flowchart.Script
open Flowchart.Text

section Opening
variable {front rest : List Char}

/-- A line that opens a group and goes on has a label, so there is a star. -/
theorem starred_of_groupOpen? {cs : List Char} {arrow : Arrow}
    (read : groupOpen? cs = some arrow) (long : 4 < cs.length) : ['m', 'a', '*'] <+: cs := by
  cases groupOpen?_eq_some_iff.mp read with
  | pointed direction => exact absurd long (by simp)
  | labelled text direction => exact ⟨_, rfl⟩

/-- In front of an opening no other group opens, unless there is a star for it. -/
theorem unopened_of_starless (starless : ¬ ['m', 'a', '*'] <:+: front)
    (next : rest.head? = some 'm') (long : 3 < rest.length) : Unopened front rest := by
  intro inner some behind
  refine Option.eq_none_iff_forall_ne_some.mpr ?_
  intro arrow read
  have begins := starred_of_groupOpen? read (by
    have one := List.length_pos_of_ne_nil some
    rw [List.length_append]
    omega)
  obtain ⟨rest, rfl⟩ := List.head?_eq_some_iff.mp next
  rcases inner with _ | ⟨c, _ | ⟨d, _ | ⟨e, inner⟩⟩⟩
  · exact some rfl
  · simp at begins
  · simp at begins
  · refine starless (List.IsInfix.trans ?_ behind.isInfix)
    simp only [List.cons_append, List.cons_prefix_cons] at begins
    obtain ⟨rfl, rfl, rfl, -⟩ := begins
    exact ⟨[], inner, rfl⟩

end Opening

section Merge
variable {token gap : List Char} {a : Arrow}

theorem long_opening (a : Arrow) : 3 < a.opening.length := by
  simp only [Arrow.opening, Arrow.text, List.length_cons, List.length_append]
  omega

theorem mergeOpen?_token (shaped : Shaped token) (starless : ¬ ['m', 'a', '*'] <:+: token)
    (blank : AllBlank gap) (clean : CleanLabel a.label) :
    mergeOpen? (token ++ (gap ++ a.opening)) = some (token, a) := by
  have reference : trim (token ++ gap) = token := by
    rw [trim_append_blank token blank, shaped.trimmed]
  have star : Solid ['m', 'a', '*'] := ⟨by decide, by decide⟩
  have unopened : Unopened (token ++ gap) a.opening :=
    unopened_of_starless (mt (star.infix_of_append_blank blank) starless) rfl (long_opening a)
  rw [mergeOpen?, ← List.append_assoc, mergeFrom?_skip unopened, List.append_nil, Arrow.opening,
    mergeFrom?, ← Arrow.opening, groupOpen?_opening clean, List.reverse_reverse, reference]
  simp [shaped.ne_nil]

theorem statement_merge {blocks : Registry} (sound : blocks.Sound) {i : Nat} {b : Block}
    (present : blocks[i]? = some b) (starless : ¬ ['m', 'a', '*'] <:+: b.token.toList)
    (blank : AllBlank gap) (clean : CleanLabel a.label)
    (alone : Alone blocks b.token.toList (gap ++ a.opening)) :
    statement blocks (b.token.toList ++ (gap ++ a.opening)) = .merge b.token.toList a := by
  have shaped := sound.shaped (List.mem_of_getElem? present)
  have other : backReference? (trim (gap ++ a.opening)) = none := by
    rw [blank.trim_append, Arrow.solid_opening.trimmed]
    exact backReference?_eq_none (by simp [Arrow.opening])
  rw [statement_of_token sound present shaped (by rw [key]) alone, other,
    mergeOpen?_token shaped starless blank clean]

/-- A group opens at the first star that allows it, and the text up to its end is the label. -/
theorem mergeOpen?_star {front : List Char} (first : ¬ ['m', 'a', '*'] <:+: front)
    (headed : trim front ≠ []) (text : List Char) (direction : Direction) :
    mergeOpen? (front ++ 'm' :: 'a' :: '*' :: (text ++ [direction.mark, '['])) =
      some (trim front, ⟨arrowLabel (dropStar text), direction⟩) := by
  have unopened : Unopened front ('m' :: 'a' :: '*' :: (text ++ [direction.mark, '['])) := by
    refine unopened_of_starless first rfl ?_
    simp only [List.length_cons, List.length_append]
    omega
  rw [mergeOpen?, mergeFrom?_skip unopened, mergeFrom?, groupOpen?_star, List.append_nil,
    List.reverse_reverse]
  simp [headed]

/-- With a star within the token, what stands in front of it heads the group, and the rest of the
token becomes a part of the label. -/
theorem mergeOpen?_within {front behind : List Char} (first : ¬ ['m', 'a', '*'] <:+: front)
    (shaped : Shaped (front ++ 'm' :: 'a' :: '*' :: behind)) :
    mergeOpen? ((front ++ 'm' :: 'a' :: '*' :: behind) ++ (gap ++ a.opening)) =
      some (trim front, ⟨arrowLabel (dropStar (behind ++ (gap ++ 'm' :: 'a' :: starred a.label))),
        a.direction⟩) := by
  have line : (front ++ 'm' :: 'a' :: '*' :: behind) ++ (gap ++ a.opening) =
      front ++ 'm' :: 'a' :: '*' ::
        ((behind ++ (gap ++ 'm' :: 'a' :: starred a.label)) ++ [a.direction.mark, '[']) := by
    simp [Arrow.opening, Arrow.text]
  have headed : trim front ≠ [] := by
    cases front with
    | nil => exact absurd rfl (shaped.head?_ne (c := 'm') (by decide))
    | cons c front =>
        obtain ⟨d, letter, head⟩ := shaped.head
        obtain rfl := Option.some.inj head
        have solid : Solid [c] := by
          refine ⟨List.cons_ne_nil _ _, trimmed_iff.mpr ?_⟩
          simpa using isBlank_of_mem_formLetters c letter
        exact solid.trim_append_ne_nil front
  rw [line, mergeOpen?_star first headed]

/-- A token heads the group that opens behind it exactly if it has no star behind the two letters
with which a group opens. -/
theorem mergeOpen?_heads_iff (declares : (form? token).isSome = true) (blank : AllBlank gap)
    (clean : CleanLabel a.label) :
    mergeOpen? (token ++ (gap ++ a.opening)) = some (token, a) ↔
      ¬ ['m', 'a', '*'] <:+: token := by
  obtain ⟨⟨kind, payload⟩, read⟩ := Option.isSome_iff_exists.mp declares
  have shaped := shaped_of_form? read
  constructor
  case mpr => exact fun starless => mergeOpen?_token shaped starless blank clean
  case mp =>
    intro heads inside
    obtain ⟨front, behind, rfl, first⟩ := exists_first_infix (by decide) inside
    rw [List.cons_append, List.cons_append, List.cons_append, List.nil_append] at shaped heads
    rw [mergeOpen?_within first shaped, Option.some.injEq, Prod.mk.injEq] at heads
    have short := (trim_part front).length_le
    rw [heads.1, List.length_append] at short
    simp only [List.length_cons] at short
    omega

/-- Openings without a star, lone letters and brackets do not get in the way, in the token or in the
label. -/
theorem mergeOpen?_heads_imitated :
    let token := "d<ma>[ ma<[m*a> ma>".toList
    let a : Arrow := ⟨some "x ma*>[ ma", .backward⟩
    (form? token).isSome = true ∧ AllBlank [' '] ∧ CleanLabel a.label ∧
      mergeOpen? (token ++ ([' '] ++ a.opening)) = some (token, a) := by
  have blank : AllBlank [' '] := List.forall_mem_singleton.mpr rfl
  exact ⟨by decide, blank, by decide,
    (mergeOpen?_heads_iff (by decide) blank (by decide)).mpr (by decide)⟩

/-- The token is cut in two at its star, so its block heads no group and the group has no anchor. -/
theorem mergeOpen?_heads_starred :
    let token := "p[ma*x]".toList
    let a : Arrow := ⟨some "L", .forward⟩
    (form? token).isSome = true ∧ '\n' ∉ token ∧ Solid "L".toList ∧
      token ++ ([' '] ++ a.opening) = "p[ma*x] ma*L*>[".toList ∧
      mergeOpen? (token ++ ([' '] ++ a.opening)) ≠ some (token, a) ∧
      mergeOpen? (token ++ ([' '] ++ a.opening)) =
        some ("p[".toList, ⟨some "x] ma*L", .forward⟩) ∧
      (parse "p[ma*x]\nte()\n...\np[ma*x] ma*L*>[\nte()\n]").edges = [] := by
  refine ⟨by decide, by decide, ⟨by decide, by decide⟩, by decide, by decide, by decide, ?_⟩
  decide +kernel

end Merge
end Flowchart.Script
