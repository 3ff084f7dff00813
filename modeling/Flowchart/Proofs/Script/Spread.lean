import Flowchart.Proofs.Script.Between
import Flowchart.Proofs.Script.Unplaced
/-! Composite blocks over several lines. As long as braces are open, a line break in the token of a
block is as good as a space: the script says the same whether the token is written on one line or in
pieces. -/
namespace Flowchart.Script
open Flowchart.Text

/-- Pieces with a space between any two of them. -/
def joined (first : List Char) (later : List (List Char)) : List Char :=
  first ++ later.flatMap (' ' :: ·)

theorem joined_cons (first piece : List Char) (later : List (List Char)) :
    joined first (piece :: later) = joined (first ++ ' ' :: piece) later := by
  simp [joined]

section Depth

theorem braceDepth_append (front back : List Char) :
    braceDepth (front ++ back) = braceDepth front + braceDepth back := by
  simp only [braceDepth, List.count_append]
  omega

theorem braceDepth_space (text : List Char) : braceDepth (' ' :: text) = braceDepth text := by
  simp [braceDepth]

/-- Behind each piece but the last, more braces are opened than closed. -/
def Opened (first : List Char) (later : List (List Char)) : Prop :=
  ∀ before piece after, later = before ++ piece :: after → 0 < braceDepth (joined first before)

theorem Opened.head {first piece : List Char} {later : List (List Char)}
    (opened : Opened first (piece :: later)) : 0 < braceDepth first := by
  have front := opened [] piece later rfl
  rwa [joined, List.flatMap_nil, List.append_nil] at front

theorem Opened.tail {first piece : List Char} {later : List (List Char)}
    (opened : Opened first (piece :: later)) : Opened (first ++ ' ' :: piece) later := by
  rintro before next after rfl
  rw [← joined_cons]
  exact opened (piece :: before) next after rfl

theorem opened_nil (first : List Char) : Opened first [] := by
  intro before piece after split
  cases before <;> cases split

theorem Opened.cons {first piece : List Char} {later : List (List Char)}
    (head : 0 < braceDepth first) (tail : Opened (first ++ ' ' :: piece) later) :
    Opened first (piece :: later) := by
  intro before next after split
  cases before with
  | nil => rwa [joined, List.flatMap_nil, List.append_nil]
  | cons again before =>
      obtain ⟨rfl, rest⟩ := List.cons_eq_cons.mp split
      rw [joined_cons]
      exact tail before next after rest

end Depth

section Gather
variable {ls ms : List Line} {d e : Declaration}

/-- Lines with pieces on them are gathered into one declaration, and more braces that are open from
before keep nothing of them back. -/
theorem gather_pieces {first : List Char} {tail : List Line} (opened : Opened first (texts tail))
    {before : List Char} {more : Int} (rest : 0 ≤ more) (token : d.token = before ++ first)
    (ls : List Line) :
    ∃ span, gather d (more + braceDepth first) (tail ++ ls) =
      gather ⟨before ++ joined first (texts tail), span⟩
        (more + braceDepth (joined first (texts tail))) ls := by
  induction tail generalizing d first with
  | nil =>
      refine ⟨d.span, ?_⟩
      simp only [texts, List.map_nil, joined, List.flatMap_nil, List.append_nil, ← token]
      rfl
  | cons l tail ih =>
      have head : 0 < more + braceDepth first := Int.add_pos_of_nonneg_of_pos rest opened.head
      have depth : more + braceDepth first + braceDepth l.text =
          more + braceDepth (first ++ ' ' :: l.text) := by
        rw [braceDepth_append, braceDepth_space, Int.add_assoc]
      rw [List.cons_append, gather, if_pos head, depth]
      simp only [texts, List.map_cons, joined_cons]
      refine ih opened.tail ?_
      rw [token, List.append_assoc]

/-- The same lines, but for composite blocks that are in pieces on several lines on one side and
whole on one line on the other. -/
inductive Spread : List Line → List Line → Prop
  | nil : Spread [] []
  | line (l : Line) {ls ms : List Line} (later : Spread ls ms) : Spread (l :: ls) (l :: ms)
  | pieces {first whole : Line} {tail ls ms : List Line} (opens : ['B', '\x7b'] <+: first.text)
      (joins : whole.text = joined first.text (texts tail))
      (opened : Opened first.text (texts tail)) (later : Spread ls ms) :
      Spread (first :: (tail ++ ls)) (whole :: ms)

theorem Spread.refl (ls : List Line) : Spread ls ls := by
  induction ls with
  | nil => exact .nil
  | cons l ls ih => exact .line l ih

theorem Spread.append (front : List Line) (spread : Spread ls ms) :
    Spread (front ++ ls) (front ++ ms) := by
  induction front with
  | nil => exact spread
  | cons l front ih => exact .line l ih

/-- A block that is not closed takes the same texts from both sides. -/
theorem Spread.gathered (spread : Spread ls ms) (same : d.token = e.token) (depth : Int) :
    (gather d depth ls).1.token = (gather e depth ms).1.token ∧
      Spread (gather d depth ls).2 (gather e depth ms).2 := by
  induction spread generalizing d e depth with
  | nil => exact ⟨same, .nil⟩
  | line l later ih =>
      rw [gather, gather]
      split
      · exact ih (by rw [same]) _
      · exact ⟨same, .line l later⟩
  | @pieces first whole tail ls ms opens joins opened later ih =>
      by_cases unclosed : 0 < depth
      · have token : d.token ++ ' ' :: first.text = (d.token ++ [' ']) ++ first.text := by simp
        obtain ⟨span, taken⟩ := @gather_pieces ⟨d.token ++ ' ' :: first.text, _⟩ first.text tail
          opened (d.token ++ [' ']) depth (Int.le_of_lt unclosed) token ls
        rw [gather, if_pos unclosed, taken, gather, if_pos unclosed, joins]
        exact ih (by simp [same]) _
      · rw [gather, if_neg unclosed, gather, if_neg unclosed]
        exact ⟨same, .pieces opens joins opened later⟩

/-- The same blocks are declared. -/
theorem Spread.tokens (spread : Spread ls ms) :
    (declarations ls).map (·.token) = (declarations ms).map (·.token) := by
  induction ms using declarations.induct generalizing ls with
  | case1 => cases spread; rfl
  | case2 m ms ih =>
      have next : ∃ l rest, ls = l :: rest ∧
          (nextDeclaration l rest).1.token = (nextDeclaration m ms).1.token ∧
          Spread (nextDeclaration l rest).2 (nextDeclaration m ms).2 := by
        cases spread with
        | @line _ ls _ later =>
            refine ⟨m, ls, rfl, ?_⟩
            unfold nextDeclaration
            simp only
            split
            · refine later.gathered ?_ _
              rfl
            · exact ⟨rfl, later⟩
        | @pieces first _ tail ls _ opens joins opened later =>
            refine ⟨first, tail ++ ls, rfl, ?_⟩
            have composite : ['B', '\x7b'].isPrefixOf first.text = true :=
              List.isPrefixOf_iff_prefix.mpr opens
            have whole : ['B', '\x7b'].isPrefixOf m.text = true := by
              rw [joins]
              exact List.isPrefixOf_iff_prefix.mpr (opens.trans (List.prefix_append _ _))
            obtain ⟨span, taken⟩ := @gather_pieces ⟨first.text, first.span⟩ first.text tail opened
              [] 0 (Int.le_refl 0) rfl ls
            rw [Int.zero_add, Int.zero_add, ← joins] at taken
            simp only [nextDeclaration, composite, whole, if_true]
            rw [taken]
            refine later.gathered ?_ _
            rfl
      obtain ⟨l, rest, rfl, token, left⟩ := next
      rw [declarations, declarations, List.map_cons, List.map_cons, token, ih left]

end Gather

section Phases

/-- More than dots. -/
def Visible (text : List Char) : Prop := ∃ c ∈ text, c ≠ '.'

instance (text : List Char) : Decidable (Visible text) :=
  List.decidableBEx (fun c => c ≠ '.') text

theorem isSeparator_eq_false_iff {l : Line} : l.isSeparator = false ↔ Visible l.text := by
  simp [Line.isSeparator, Visible]

/-- Before the first separator comes all that is more than dots. -/
theorem texts_phases_visible {ls : List Line} {front back : List (List Char)}
    (split : texts ls = front ++ back) (visible : ∀ text ∈ front, Visible text) :
    texts (phases ls).1 = front ++ back.takeWhile (fun text => !text.all (· == '.')) ∧
      texts (phases ls).2 = (back.dropWhile (fun text => !text.all (· == '.'))).drop 1 := by
  have pass : ∀ text ∈ front, (!text.all (· == '.')) = true := by
    simpa [Visible] using visible
  rw [(texts_phases ls).1, (texts_phases ls).2, split, List.takeWhile_append_of_pos pass,
    List.dropWhile_append_of_pos pass]
  exact ⟨rfl, rfl⟩

end Phases

section Source

/-- The token of a composite block, cut at spaces into pieces with something visible at their ends.
Braces are open at each cut, and no piece is a separator. -/
structure Pieces (token first : List Char) (later : List (List Char)) : Prop where
  opens : ['B', '\x7b'] <+: token
  joins : token = joined first later
  solid : ∀ piece ∈ first :: later, Solid piece
  visible : ∀ piece ∈ first :: later, Visible piece
  opened : Opened first later

/-- A text that goes on behind gaps. -/
def spreadOut (first : List Char) (later : List (List Char × List Char)) : List Char :=
  first ++ later.flatMap fun (gap, piece) => gap ++ piece

/-- Blanks with a line break among them. -/
structure Broken (gap : List Char) : Prop where
  blank : AllBlank gap
  newline : '\n' ∈ gap

instance (gap : List Char) : Decidable (Broken gap) :=
  decidable_of_iff (AllBlank gap ∧ '\n' ∈ gap)
    ⟨fun both => ⟨both.1, both.2⟩, fun gap => ⟨gap.blank, gap.newline⟩⟩

theorem solid_joined {first : List Char} {later : List (List Char)}
    (solid : ∀ piece ∈ first :: later, Solid piece) : Solid (joined first later) := by
  induction later generalizing first with
  | nil =>
      rw [joined, List.flatMap_nil, List.append_nil]
      exact solid first List.mem_cons_self
  | cons piece later ih =>
      obtain ⟨head, others⟩ := List.forall_mem_cons.mp solid
      obtain ⟨next, rest⟩ := List.forall_mem_cons.mp others
      rw [joined_cons]
      exact ih (List.forall_mem_cons.mpr ⟨head.append [' '] next, rest⟩)

theorem mem_joined {first piece : List Char} {later : List (List Char)}
    (member : piece ∈ first :: later) {c : Char} (inside : c ∈ piece) : c ∈ joined first later := by
  rcases List.mem_cons.mp member with rfl | further
  · exact List.mem_append_left _ inside
  · refine List.mem_append_right _ (List.mem_flatMap.mpr ⟨piece, further, ?_⟩)
    exact List.mem_cons_of_mem _ inside

variable {token first : List Char} {later : List (List Char × List Char)}

theorem Pieces.opens_first {later : List (List Char)} (pieces : Pieces token first later) :
    ['B', '\x7b'] <+: first := by
  have opens := pieces.opens
  have some := (pieces.solid first List.mem_cons_self).ne_nil
  rw [pieces.joins, joined] at opens
  match first, some with
  | [c], _ =>
      cases later with
      | nil => simp at opens
      | cons piece later => simp at opens
  | c :: d :: first, _ => simpa using opens

/-- Each piece is a line. -/
theorem texts_lines_spreadOut (solid : ∀ piece ∈ first :: later.map (·.2), Solid piece)
    (whole : ∀ piece ∈ first :: later.map (·.2), '\n' ∉ piece) (broken : ∀ g ∈ later, Broken g.1)
    {left right : List Char} (before : AllBlank left) (behind : AllBlank right) :
    texts (lines (left ++ (spreadOut first later ++ right))) = first :: later.map (·.2) := by
  induction later generalizing first left with
  | nil =>
      rw [spreadOut, List.flatMap_nil, List.append_nil]
      exact texts_lines_solid (solid first List.mem_cons_self) (whole first List.mem_cons_self)
        before behind
  | cons next later ih =>
      obtain ⟨gap, piece⟩ := next
      obtain ⟨firstSolid, others⟩ := List.forall_mem_cons.mp solid
      obtain ⟨firstWhole, unbroken⟩ := List.forall_mem_cons.mp whole
      obtain ⟨⟨blank, newline⟩, gaps⟩ := List.forall_mem_cons.mp broken
      obtain ⟨near, far, rfl⟩ := List.append_of_mem newline
      obtain ⟨nearBlank, farBlank⟩ := List.forall_mem_append.mp blank
      have line := texts_lines_solid firstSolid firstWhole before nearBlank
      have split : left ++ (spreadOut first ((near ++ '\n' :: far, piece) :: later) ++ right) =
          (left ++ (first ++ near)) ++ '\n' :: (far ++ (spreadOut piece later ++ right)) := by
        simp [spreadOut]
      rw [split, texts_lines_break, line,
        ih others unbroken gaps (List.forall_mem_cons.mp farBlank).2]
      rfl

/-- A script with lines between whole lines before and behind. -/
theorem texts_lines_between {front back : List Char} (ended : ∀ c ∈ front.getLast?, c = '\n')
    (broken : ∀ c ∈ back.head?, c = '\n') (mid : List Char) :
    texts (lines (front ++ (mid ++ back))) =
      (texts (lines front) ++ texts (lines mid)) ++ texts (lines back) := by
  rw [texts_lines_behind ended, texts_lines_before broken, List.append_assoc]

theorem parse_ofList (source : List Char) : parse (String.ofList source) =
    readLines (phases (lines source)).1 (phases (lines source)).2 := by
  rw [parse, String.toList_ofList]

/-- The lines of a text, when it does not matter where they are. -/
def unplacedLines (ls : List (List Char)) : List Line := ls.map (Line.mk · 0)

theorem texts_unplacedLines (ls : List (List Char)) : texts (unplacedLines ls) = ls := by
  rw [texts, unplacedLines, List.map_map]
  exact List.map_id ls

/-- The tokens that are declared, told by the texts of the lines. -/
theorem Pieces.tokens {later : List (List Char)} (pieces : Pieces token first later)
    {ls ms : List Line} {front back : List (List Char)}
    (spread : texts ls = (front ++ first :: later) ++ back)
    (whole : texts ms = (front ++ [token]) ++ back) :
    (declarations ls).map (·.token) = (declarations ms).map (·.token) := by
  have left : texts ls = texts (unplacedLines front ++
      ⟨first, 0⟩ :: (unplacedLines later ++ unplacedLines back)) := by
    rw [spread, ← texts_unplacedLines ((front ++ _) ++ back)]
    simp [unplacedLines]
  have right : texts ms = texts (unplacedLines front ++ ⟨token, 0⟩ :: unplacedLines back) := by
    rw [whole, ← texts_unplacedLines ((front ++ _) ++ back)]
    simp [unplacedLines]
  have related : Spread (unplacedLines front ++
        ⟨first, 0⟩ :: (unplacedLines later ++ unplacedLines back))
      (unplacedLines front ++ ⟨token, 0⟩ :: unplacedLines back) := by
    refine Spread.append _ (.pieces pieces.opens_first ?_ ?_ (.refl _))
    · rw [texts_unplacedLines]
      exact pieces.joins
    · rw [texts_unplacedLines]
      exact pieces.opened
  rw [tokens_of_texts left, tokens_of_texts right, related.tokens]

/-- A composite block may be written on several lines. Where its token is cut at spaces while braces
are open, and the pieces are put on lines of their own, with any blanks and blank lines around them,
the script has the same blocks and connections and there is the same to report about it. -/
theorem parse_spread {front back left right before behind : List Char}
    (pieces : Pieces token first (later.map (·.2))) (whole : '\n' ∉ token)
    (broken : ∀ g ∈ later, Broken g.1) (ended : ∀ c ∈ front.getLast?, c = '\n')
    (begun : ∀ c ∈ back.head?, c = '\n') (declaring : ∀ l ∈ lines front, l.isSeparator = false)
    (blank : AllBlank left ∧ AllBlank right) (margins : AllBlank before ∧ AllBlank behind) :
    (parse (String.ofList
        (front ++ ((left ++ (spreadOut first later ++ right)) ++ back)))).unplaced =
      (parse (String.ofList (front ++ ((before ++ (token ++ behind)) ++ back)))).unplaced := by
  have unbroken : ∀ piece ∈ first :: later.map (·.2), '\n' ∉ piece := by
    rw [pieces.joins] at whole
    exact fun piece inside here => whole (mem_joined inside here)
  have solid : Solid token := pieces.joins ▸ solid_joined pieces.solid
  have cut := texts_lines_spreadOut pieces.solid unbroken broken blank.1 blank.2
  have one := texts_lines_solid solid whole margins.1 margins.2
  have declared : ∀ text ∈ texts (lines front), Visible text := by
    intro text inside
    obtain ⟨l, member, rfl⟩ := List.mem_map.mp inside
    exact isSeparator_eq_false_iff.mp (declaring l member)
  have seen : Visible token := ⟨'B', pieces.opens.mem List.mem_cons_self, by decide⟩
  -- both scripts have the same lines before the block and behind it
  have spread := texts_lines_between ended begun (left ++ (spreadOut first later ++ right))
  have single := texts_lines_between ended begun (before ++ (token ++ behind))
  rw [cut] at spread
  rw [one] at single
  obtain ⟨spreadDeclared, spreadBehind⟩ :=
    texts_phases_visible spread (List.forall_mem_append.mpr ⟨declared, pieces.visible⟩)
  obtain ⟨singleDeclared, singleBehind⟩ := texts_phases_visible single
    (List.forall_mem_append.mpr ⟨declared, List.forall_mem_singleton.mpr seen⟩)
  rw [parse_ofList, parse_ofList]
  exact unplaced_readLines (pieces.tokens spreadDeclared singleDeclared)
    (spreadBehind.trans singleBehind.symm)

/-- Braces inside a label keep the block open, and dots beside it are no separator. -/
theorem parse_spread_braces :
    let token := "B\x7b *tm:\x7bOrder\x7d .. *bl:qty \x7d".toList
    let first := "B\x7b *tm:\x7bOrder\x7d".toList
    let later := [("\n\n\t".toList, ".. *bl:qty".toList), (" \n ".toList, "\x7d".toList)]
    let front := "ts()\nts( )\n".toList
    let back := "\np[Next]\n...\nts()\na>\nnowhere\np[Next]".toList
    let spread := String.ofList (front ++ (("  ".toList ++ (spreadOut first later ++ [])) ++ back))
    let single := String.ofList (front ++ (([] ++ (token ++ [])) ++ back))
    Pieces token first (later.map (·.2)) ∧ '\n' ∉ token ∧
      (readBlock? token).map (·.kind) = some .subBlock ∧ braceDepth token ≤ 0 ∧
      (parse spread).unplaced = (parse single).unplaced ∧
      (parse single).blocks.map (·.text) = ["Start", "\x7bOrder\x7d ..", "Next"] := by
  intro token first later front back spread single
  have pieces : Pieces token first (later.map (·.2)) := by
    constructor
    case opens => decide
    case joins => decide
    case solid => decide +kernel
    case visible => decide
    case opened => exact .cons (by decide) (.cons (by decide) (opened_nil _))
  have whole : '\n' ∉ token := by decide
  have broken : ∀ g ∈ later, Broken g.1 := by decide
  refine ⟨pieces, whole, by decide +kernel, by decide, ?_, by decide +kernel⟩
  exact parse_spread pieces whole broken (by rintro _ ⟨⟩; rfl) (by rintro _ ⟨⟩; rfl)
    (by decide +kernel) (by decide) (by decide)

end Source
end Flowchart.Script
