import Flowchart.Proofs.Script.LabelEdit
/-! The languages of the four notations. They are said here from behind: a payload lies between its
delimiters, an arrow has its direction and its star taken off at the end, and what is left is the
label. Each notation reads exactly the lines of its language, and reads them so. -/
namespace Flowchart.Script
open Flowchart.Text

/-- The lines that declare a block, with its kind and its payload. -/
inductive BlockNotation : List Char → BlockKind → List Char → Prop
  | start : BlockNotation ['t', 's', '(', ')'] .terminatorStart []
  | stop : BlockNotation ['t', 'e', '(', ')'] .terminatorEnd []
  | connector : BlockNotation ['c', '[', ')'] .connector []
  | terminator {payload : List Char} (solid : payload ≠ []) :
      BlockNotation ('t' :: '(' :: (payload ++ [')'])) .terminator payload
  | process {payload : List Char} (solid : payload ≠ []) :
      BlockNotation ('p' :: '[' :: (payload ++ [']'])) .process payload
  | io {payload : List Char} (solid : payload ≠ []) :
      BlockNotation ('l' :: '[' :: (payload ++ [']'])) .io payload
  | decision {payload : List Char} (solid : payload ≠ []) :
      BlockNotation ('d' :: '<' :: (payload ++ ['>'])) .decision payload
  | subBlock {payload : List Char} (solid : payload ≠ []) :
      BlockNotation ('B' :: '\x7b' :: (payload ++ ['\x7d'])) .subBlock payload

def Direction.mark : Direction → Char
  | .forward => '>'
  | .backward => '<'

/-- A text without the star that it may end with. -/
def dropStar (cs : List Char) : List Char := if cs.getLast? = some '*' then cs.dropLast else cs

/-- A text without the direction that it may end with, and that direction, or else forward. -/
def splitDirection (cs : List Char) : List Char × Direction :=
  if cs.getLast? = some '>' then (cs.dropLast, .forward)
  else if cs.getLast? = some '<' then (cs.dropLast, .backward)
  else (cs, .forward)

/-- What an arrow says behind its star. -/
def endedArrow (body : List Char) : Arrow :=
  ⟨arrowLabel (dropStar (splitDirection body).1), (splitDirection body).2⟩

inductive ArrowNotation : List Char → Arrow → Prop
  | bare : ArrowNotation ['a'] ⟨none, .forward⟩
  | pointed (direction : Direction) : ArrowNotation ['a', direction.mark] ⟨none, direction⟩
  | labelled (body : List Char) : ArrowNotation ('a' :: '*' :: body) (endedArrow body)

/-- The opening of a group has to have a direction. -/
inductive GroupNotation : List Char → Arrow → Prop
  | pointed (direction : Direction) :
      GroupNotation ['m', 'a', direction.mark, '['] ⟨none, direction⟩
  | labelled (text : List Char) (direction : Direction) :
      GroupNotation ('m' :: 'a' :: '*' :: (text ++ [direction.mark, '[']))
        ⟨arrowLabel (dropStar text), direction⟩

/-- An arrow, the first exclamation mark of the line, and a target. -/
inductive BackNotation : List Char → Arrow → List Char → Prop
  | intro {front target : List Char} {arrow : Arrow} (pointing : ArrowNotation front arrow)
      (first : '!' ∉ front) (solid : target ≠ []) :
      BackNotation (front ++ '!' :: target) arrow (trim target)

theorem form?_eq_some_iff {line payload : List Char} {kind : BlockKind} :
    form? line = some (kind, payload) ↔ BlockNotation line kind payload := by
  constructor
  case mp =>
    intro read
    rcases exists_of_form? read with ⟨fixed, -⟩ | ⟨e, member, rfl, rfl, solid⟩
    · simp only [List.mem_cons, List.not_mem_nil, or_false] at fixed
      rcases fixed with rfl | rfl | rfl
      · cases read; exact .start
      · cases read; exact .stop
      · cases read; exact .connector
    · simp only [enclosures, List.mem_cons, List.not_mem_nil, or_false] at member
      rcases member with rfl | rfl | rfl | rfl | rfl
      · exact .terminator solid
      · exact .process solid
      · exact .io solid
      · exact .decision solid
      · exact .subBlock solid
  case mpr =>
    have enclosed (e : Enclosure) (member : e ∈ enclosures) (solid : payload ≠ []) :
        form? (e.opening ++ (payload ++ [e.closing])) = some (e.kind, payload) :=
      form?_enclosed member solid
    intro written
    cases written with
    | start => rfl
    | stop => rfl
    | connector => rfl
    | terminator solid => exact enclosed ⟨['t', '('], ')', .terminator⟩ (by simp [enclosures]) solid
    | process solid => exact enclosed ⟨['p', '['], ']', .process⟩ (by simp [enclosures]) solid
    | io solid => exact enclosed ⟨['l', '['], ']', .io⟩ (by simp [enclosures]) solid
    | decision solid => exact enclosed ⟨['d', '<'], '>', .decision⟩ (by simp [enclosures]) solid
    | subBlock solid =>
        exact enclosed ⟨['B', '\x7b'], '\x7d', .subBlock⟩ (by simp [enclosures]) solid

section Tails
variable {cs : List Char}

theorem skipStar_cases (cs : List Char) : cs = skipStar cs ∨ cs = '*' :: skipStar cs := by
  cases cs with
  | nil => exact .inl rfl
  | cons c cs =>
      rw [skipStar_cons]
      split
      · next star => exact .inr (star ▸ rfl)
      · exact .inl rfl

theorem direction?_eq_some_iff {rest : List Char} {direction : Direction} :
    direction? cs = some (direction, rest) ↔ cs = direction.mark :: rest := by
  constructor
  case mp =>
    intro read
    unfold direction? at read
    split at read
    · cases read; rfl
    · cases read; rfl
    · cases read
  case mpr =>
    rintro rfl
    cases direction <;> rfl

/-- All that can be the tail of an arrow. -/
theorem exists_of_arrowTail? {found : Direction × List Char} (fits : arrowTail? cs = some found) :
    ∃ star ∈ [[], ['*']], ∃ mark ∈ [[], ['>'], ['<']], cs = star ++ mark := by
  rw [arrowTail?_eq, Option.ite_none_right_eq_some] at fits
  have mark : skipStar cs ∈ [[], ['>'], ['<']] := by
    have ended := fits.1
    unfold directionOr at ended
    cases read : direction? (skipStar cs) with
    | none =>
        rw [read] at ended
        exact ended ▸ List.mem_cons_self
    | some pointed =>
        obtain ⟨direction, rest⟩ := pointed
        rw [read] at ended
        obtain rfl : rest = [] := ended
        rw [direction?_eq_some_iff.mp read]
        cases direction <;> decide
  rcases skipStar_cases cs with plain | starred
  · exact ⟨[], by decide, skipStar cs, mark, plain⟩
  · exact ⟨['*'], by decide, skipStar cs, mark, starred⟩

/-- All that can be the tail of a group. -/
theorem exists_of_groupTail? {found : Direction × List Char} (fits : groupTail? cs = some found) :
    ∃ star ∈ [[], ['*']], ∃ direction, found = (direction, []) ∧
      cs = star ++ [Direction.mark direction, '['] := by
  unfold groupTail? at fits
  split at fits
  · next direction read =>
    cases fits
    have mark := direction?_eq_some_iff.mp read
    rcases skipStar_cases cs with plain | starred
    · exact ⟨[], by decide, direction, rfl, plain.trans mark⟩
    · exact ⟨['*'], by decide, direction, rfl, starred.trans (congrArg _ mark)⟩
  · cases fits

/-- What a text is in front of a tail that fits with a star and without one, and nowhere earlier. -/
theorem upTo?_ended {tail? : List Char → Option (Direction × List Char)} {front tail : List Char}
    {found : Direction × List Char} (plain : tail? tail = some found)
    (star : tail? ('*' :: tail) = some found)
    (long : ∀ q, q <:+ front → q ≠ [] → q ≠ ['*'] → tail? (q ++ tail) = none) :
    upTo? tail? (front ++ tail) = some (dropStar front, found) := by
  unfold dropStar
  split
  · next last =>
    obtain ⟨text, rfl⟩ := List.getLast?_eq_some_iff.mp last
    rw [List.dropLast_concat, List.append_assoc, List.singleton_append]
    refine upTo?_eq_some star ?_
    intro p q split some
    have late := long (q ++ ['*']) ⟨p, by rw [split, List.append_assoc]⟩ (by simp) (by simp [some])
    rwa [List.append_assoc, List.singleton_append] at late
  · next last =>
    refine upTo?_eq_some plain ?_
    intro p q split some
    refine long q ⟨p, split.symm⟩ some ?_
    rintro rfl
    exact last (by rw [split, List.getLast?_concat])

end Tails

section Labels

/-- In front of a direction at the end there is nothing more to the tail than a star. -/
theorem arrowTail?_pointed {q : List Char} (some : q ≠ []) (other : q ≠ ['*'])
    (direction : Direction) : arrowTail? (q ++ [direction.mark]) = none := by
  refine Option.eq_none_iff_forall_ne_some.mpr ?_
  intro found fits
  obtain ⟨star, isStar, mark, isMark, split⟩ := exists_of_arrowTail? fits
  have unlike : q ≠ star := by
    rintro rfl
    simp [some, other] at isStar
  simp only [List.mem_cons, List.not_mem_nil, or_false] at isStar isMark
  rcases isMark with rfl | rfl | rfl
  · rcases isStar with rfl | rfl
    · simp at split
    · have one : q ++ [direction.mark] = [] ++ ['*'] := split
      exact some (List.append_inj' one rfl).1
  · exact unlike (List.append_inj' split rfl).1
  · exact unlike (List.append_inj' split rfl).1

/-- Where a text ends without a direction there is nothing more to the tail than a star. -/
theorem arrowTail?_unpointed {q : List Char} (some : q ≠ []) (other : q ≠ ['*'])
    (forward : q.getLast? ≠ Option.some '>') (backward : q.getLast? ≠ Option.some '<') :
    arrowTail? q = none := by
  refine Option.eq_none_iff_forall_ne_some.mpr ?_
  intro found fits
  obtain ⟨star, isStar, mark, isMark, rfl⟩ := exists_of_arrowTail? fits
  simp only [List.mem_cons, List.not_mem_nil, or_false] at isStar isMark
  rcases isMark with rfl | rfl | rfl
  · rw [List.append_nil] at some other
    exact isStar.elim some other
  · exact forward List.getLast?_concat
  · exact backward List.getLast?_concat

/-- Behind its star an arrow is read from the end. -/
theorem upTo?_arrowTail? (body : List Char) : upTo? arrowTail? body =
    some (dropStar (splitDirection body).1, (splitDirection body).2, []) := by
  have pointed (front : List Char) (direction : Direction) :
      upTo? arrowTail? (front ++ [direction.mark]) = some (dropStar front, direction, []) :=
    upTo?_ended (by cases direction <;> rfl) (by cases direction <;> rfl) fun q _ some other =>
      arrowTail?_pointed some other direction
  unfold splitDirection
  split
  · next last =>
    obtain ⟨front, rfl⟩ := List.getLast?_eq_some_iff.mp last
    rw [List.dropLast_concat]
    exact pointed front .forward
  · split
    · next last =>
      obtain ⟨front, rfl⟩ := List.getLast?_eq_some_iff.mp last
      rw [List.dropLast_concat]
      exact pointed front .backward
    · next forward backward =>
      have read : upTo? arrowTail? (body ++ []) = some (dropStar body, .forward, []) := by
        refine upTo?_ended rfl rfl ?_
        rintro q ⟨p, rfl⟩ some other
        rw [List.getLast?_append_of_ne_nil p some] at forward backward
        rw [List.append_nil]
        exact arrowTail?_unpointed some other forward backward
      rwa [List.append_nil] at read

/-- The label of a group's arrow ends in front of the direction, or of a star there. -/
theorem upTo?_groupTail? (front : List Char) (direction : Direction) :
    upTo? groupTail? (front ++ [direction.mark, '[']) = some (dropStar front, direction, []) := by
  refine upTo?_ended (by cases direction <;> rfl) (by cases direction <;> rfl) ?_
  intro q _ some other
  refine Option.eq_none_iff_forall_ne_some.mpr ?_
  intro found fits
  obtain ⟨star, isStar, marked, -, split⟩ := exists_of_groupTail? fits
  obtain rfl : q = star := (List.append_inj' split rfl).1
  simp [some, other] at isStar

end Labels

section Languages
variable {line : List Char} {arrow : Arrow}

theorem arrow?_star (body : List Char) : arrow? ('a' :: '*' :: body) = some (endedArrow body) := by
  rw [arrow?, labelled?_star, upTo?_arrowTail?]
  rfl

theorem arrow?_eq_some_iff : arrow? line = some arrow ↔ ArrowNotation line arrow := by
  constructor
  case mp =>
    intro read
    have head : line.head? = some 'a' := by
      by_contra other
      rw [arrow?_eq_none other] at read
      cases read
    obtain ⟨rest, rfl⟩ := List.head?_eq_some_iff.mp head
    by_cases star : rest.head? = some '*'
    · obtain ⟨body, rfl⟩ := List.head?_eq_some_iff.mp star
      rw [arrow?_star] at read
      obtain rfl := Option.some.inj read
      exact .labelled body
    · rw [arrow?, labelled?_plain _ star, Option.map_map] at read
      obtain ⟨found, fits, made⟩ := Option.map_eq_some_iff.mp read
      obtain ⟨front, isStar, mark, isMark, rfl⟩ := exists_of_arrowTail? fits
      simp only [List.mem_cons, List.not_mem_nil, or_false] at isStar isMark
      rcases isStar with rfl | rfl
      · rcases isMark with rfl | rfl | rfl
        · cases fits; cases made; exact .bare
        · cases fits; cases made; exact .pointed .forward
        · cases fits; cases made; exact .pointed .backward
      · exact absurd rfl star
  case mpr =>
    intro written
    cases written with
    | bare => rfl
    | pointed direction => cases direction <;> rfl
    | labelled body => exact arrow?_star body

theorem groupOpen?_star (text : List Char) (direction : Direction) :
    groupOpen? ('m' :: 'a' :: '*' :: (text ++ [direction.mark, '['])) =
      some ⟨arrowLabel (dropStar text), direction⟩ := by
  rw [groupOpen?, labelled?_star, upTo?_groupTail?]
  rfl

theorem groupOpen?_eq_some_iff : groupOpen? line = some arrow ↔ GroupNotation line arrow := by
  constructor
  case mp =>
    intro read
    unfold groupOpen? at read
    split at read
    · next rest =>
      obtain ⟨⟨made, left⟩, labelled, rfl⟩ := Option.map_eq_some_iff.mp read
      by_cases star : rest.head? = some '*'
      · obtain ⟨body, rfl⟩ := List.head?_eq_some_iff.mp star
        rw [labelled?_star] at labelled
        obtain ⟨found, ended, -⟩ := Option.map_eq_some_iff.mp labelled
        obtain ⟨tail, rfl, fits⟩ := exists_of_upTo? ended
        obtain ⟨star, -, direction, -, rfl⟩ := exists_of_groupTail? fits
        rw [← List.append_assoc] at labelled ⊢
        rw [upTo?_groupTail?] at labelled
        cases labelled
        exact .labelled _ _
      · rw [labelled?_plain _ star] at labelled
        obtain ⟨found, fits, made⟩ := Option.map_eq_some_iff.mp labelled
        obtain ⟨front, isStar, direction, rfl, rfl⟩ := exists_of_groupTail? fits
        cases made
        simp only [List.mem_cons, List.not_mem_nil, or_false] at isStar
        rcases isStar with rfl | rfl
        · exact .pointed direction
        · exact absurd rfl star
    · cases read
  case mpr =>
    intro written
    cases written with
    | pointed direction => cases direction <;> rfl
    | labelled text direction => exact groupOpen?_star text direction

/-- Nothing is referred to where the line ends with its first exclamation mark. -/
theorem backReference?_targetless {front : List Char} (unmarked : '!' ∉ front) :
    backReference? (front ++ ['!']) = none := by
  unfold backReference?
  split
  · next rest same =>
    have inner : '!' ∉ front.tail := fun member => unmarked (List.mem_of_mem_tail member)
    have behind : rest = front.tail ++ ['!'] := by
      cases front with
      | nil => cases same
      | cons c front => exact (List.cons.inj same).2.symm
    rw [behind, labelled?_mark inner]
    cases labelled? arrowTail? front.tail <;> rfl
  · rfl

theorem backReference?_eq_some_iff {target : List Char} :
    backReference? line = some (arrow, target) ↔ BackNotation line arrow target := by
  constructor
  case mp =>
    intro read
    by_cases mark : '!' ∈ line
    · obtain ⟨front, behind, rfl, first⟩ := List.eq_append_cons_of_mem mark
      by_cases solid : behind = []
      · rw [solid, backReference?_targetless first] at read
        cases read
      · rw [backReference?_mark first solid] at read
        obtain ⟨found, pointing, made⟩ := Option.map_eq_some_iff.mp read
        cases made
        exact .intro (arrow?_eq_some_iff.mp pointing) first solid
    · rw [backReference?_unmarked mark] at read
      cases read
  case mpr =>
    rintro ⟨pointing, first, solid⟩
    rw [backReference?_mark first solid, arrow?_eq_some_iff.mpr pointing]
    rfl

end Languages

/-- Each of the four notations accepts the lines of its language and no others, and reads in each
line what the language says. -/
theorem notations_read_languages (line : List Char) :
    (∀ kind payload, form? line = some (kind, payload) ↔ BlockNotation line kind payload) ∧
      (∀ arrow, arrow? line = some arrow ↔ ArrowNotation line arrow) ∧
      (∀ arrow, groupOpen? line = some arrow ↔ GroupNotation line arrow) ∧
      (∀ arrow target,
        backReference? line = some (arrow, target) ↔ BackNotation line arrow target) :=
  ⟨fun _ _ => form?_eq_some_iff, fun _ => arrow?_eq_some_iff, fun _ => groupOpen?_eq_some_iff,
    fun _ _ => backReference?_eq_some_iff⟩

end Flowchart.Script
