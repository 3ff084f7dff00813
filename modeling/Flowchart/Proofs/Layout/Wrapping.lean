import Flowchart.Layout.Measure
import Mathlib.Data.List.Chain
import Mathlib.Data.List.TakeWhile
/-! Texts broken into lines. The lines hold the words of the text in order, none of them is empty,
and only a word by itself is too wide. In a text with single spaces a line ends only where the next
word would make it too wide. Nothing of this depends on how the width of a line is measured. -/
namespace Flowchart.Layout

section Words
variable {text w : List Char}

theorem words_eq_splitOn (text : List Char) : words text = text.splitOn ' ' := by
  induction text with
  | nil => rfl
  | cons c cs ih =>
      rw [List.splitOn_cons_eq_if_modifyHead, words, ih]
      by_cases space : c = ' '
      · simp only [space, beq_self_eq_true, if_true]
      · rw [if_neg space, if_neg (by simpa using space)]
        cases split : cs.splitOn ' ' with
        | nil => exact absurd split (List.splitOn_ne_nil ' ' cs)
        | cons w ws => rfl

theorem space_not_mem_words (member : w ∈ words text) : ' ' ∉ w := by
  induction text generalizing w with
  | nil =>
      obtain rfl := List.mem_singleton.mp member
      exact List.not_mem_nil
  | cons c cs ih =>
      rw [words] at member
      split at member
      · rcases List.mem_cons.mp member with rfl | later
        · exact List.not_mem_nil
        · exact ih later
      · next letter =>
        split at member
        · obtain rfl := List.mem_singleton.mp member
          simpa using Ne.symm letter
        · next first rest split =>
          rw [split] at ih
          rcases List.mem_cons.mp member with rfl | later
          · simpa [Ne.symm letter] using ih List.mem_cons_self
          · exact ih (List.mem_cons_of_mem _ later)

/-- The words of a text, without the empty ones between spaces that follow each other. -/
def fullWords (text : List Char) : List (List Char) := (text.splitOn ' ').filter (· ≠ [])

theorem fullWords_append (line w : List Char) :
    fullWords (line ++ ' ' :: w) = fullWords line ++ fullWords w := by
  rw [fullWords, List.splitOn_append_cons_self, List.filter_append]
  rfl

theorem fullWords_word (whole : ' ' ∉ w) : fullWords w = [w].filter (· ≠ []) := by
  rw [fullWords, List.splitOn_eq_singleton whole]

/-- The first word of a line. -/
def firstWord (line : List Char) : List Char := line.takeWhile (· ≠ ' ')

theorem firstWord_append (line w : List Char) : firstWord (line ++ ' ' :: w) = firstWord line := by
  have ends : (' ' :: w).takeWhile (· ≠ ' ') = [] := rfl
  rw [firstWord, List.takeWhile_append, ends, List.append_nil]
  split
  · next all => exact ((List.takeWhile_sublist _).eq_of_length all).symm
  · rfl

theorem firstWord_word (whole : ' ' ∉ w) : firstWord w = w := by
  refine List.takeWhile_eq_self_iff.mpr ?_
  intro c member
  exact decide_eq_true (ne_of_mem_of_not_mem member whole)

end Words

section Spacing
variable {text : List Char} {first rest : List (List Char)}

/-- No space at either end of a text, and never two in a row. -/
structure EvenlySpaced (text : List Char) : Prop where
  leading : text.head? ≠ some ' '
  trailing : text.getLast? ≠ some ' '
  doubled : ¬ [' ', ' '] <:+: text

theorem intercalate_append (left : first ≠ []) (right : rest ≠ []) :
    [' '].intercalate (first ++ rest) =
      [' '].intercalate first ++ ' ' :: [' '].intercalate rest := by
  induction first with
  | nil => exact absurd rfl left
  | cons w first ih =>
      cases first with
      | nil =>
          rw [List.singleton_append, List.intercalate_cons_of_ne_nil right,
            List.intercalate_singleton, List.append_assoc]
          rfl
      | cons next first =>
          have more : next :: first ++ rest ≠ [] := List.cons_ne_nil _ _
          change [' '].intercalate (w :: (next :: first ++ rest)) = _
          rw [List.intercalate_cons_of_ne_nil more, ih (List.cons_ne_nil _ _),
            List.intercalate_cons_cons, ← List.append_assoc]

/-- Only the empty text has an empty word and is evenly spaced. -/
theorem EvenlySpaced.ne_nil_of_mem_words (even : EvenlySpaced text) (some : text ≠ [])
    {w : List Char} (member : w ∈ words text) : w ≠ [] := by
  rintro rfl
  rw [words_eq_splitOn] at member
  obtain ⟨before, after, split⟩ := List.append_of_mem member
  have whole : text = [' '].intercalate (before ++ [] :: after) := by
    rw [← split, List.intercalate_splitOn]
  -- an empty word has a space, or an end of the text, on each side
  by_cases first : before = []
  · by_cases last : after = []
    · rw [first, last] at whole
      exact some whole
    · rw [first, List.nil_append, List.intercalate_cons_of_ne_nil last] at whole
      exact even.leading (by rw [whole]; rfl)
  · rw [intercalate_append first (List.cons_ne_nil _ _)] at whole
    by_cases last : after = []
    · rw [last, List.intercalate_singleton] at whole
      exact even.trailing (by rw [whole, List.getLast?_append]; rfl)
    · rw [List.intercalate_cons_of_ne_nil last] at whole
      exact even.doubled ⟨_, _, by rw [whole, List.append_assoc]; rfl⟩

end Spacing

section Lines
variable {tooWide : List Char → Bool} {line : List Char} {ws : List (List Char)}

/-- One case for each way in which the next word is put on lines. -/
theorem fillLines_cons (tooWide : List Char → Bool) (line w : List Char) (ws : List (List Char)) :
    fillLines tooWide line (w :: ws) =
      if line = [] then fillLines tooWide w ws
      else if tooWide (line ++ ' ' :: w) then line :: fillLines tooWide w ws
      else fillLines tooWide (line ++ ' ' :: w) ws := by
  simp only [fillLines, List.isEmpty_iff]

theorem fullWords_fillLines (whole : ∀ w ∈ ws, ' ' ∉ w) :
    (fillLines tooWide line ws).flatMap fullWords = fullWords line ++ ws.filter (· ≠ []) := by
  induction ws generalizing line with
  | nil =>
      by_cases empty : line = []
      · rw [empty]
        rfl
      · simp [fillLines, empty]
  | cons w ws ih =>
      obtain ⟨unspaced, others⟩ := List.forall_mem_cons.mp whole
      have next : fullWords w ++ ws.filter (· ≠ []) = (w :: ws).filter (· ≠ []) := by
        rw [fullWords_word unspaced, ← List.filter_append, List.singleton_append]
      rw [fillLines_cons]
      split
      · next empty => rw [ih others, next, empty]; rfl
      · split
        · rw [List.flatMap_cons, ih others, next]
        · rw [ih others, fullWords_append, List.append_assoc, next]

theorem ne_nil_of_mem_fillLines {l : List Char} (member : l ∈ fillLines tooWide line ws) :
    l ≠ [] := by
  induction ws generalizing line with
  | nil =>
      by_cases empty : line = []
      · simp [fillLines, empty] at member
      · simp only [fillLines, List.isEmpty_iff, if_neg empty, List.mem_singleton] at member
        exact member ▸ empty
  | cons w ws ih =>
      rw [fillLines_cons] at member
      split at member
      · exact ih member
      · next begun =>
        split at member
        · rcases List.mem_cons.mp member with rfl | later
          · exact begun
          · exact ih later
        · exact ih member

/-- A line takes another word only if it is not too wide then. -/
theorem narrow_of_mem_fillLines (whole : ∀ w ∈ ws, ' ' ∉ w)
    (begun : ' ' ∈ line → tooWide line = false) {l : List Char}
    (member : l ∈ fillLines tooWide line ws) (spaced : ' ' ∈ l) : tooWide l = false := by
  induction ws generalizing line with
  | nil =>
      by_cases empty : line = []
      · simp [fillLines, empty] at member
      · simp only [fillLines, List.isEmpty_iff, if_neg empty, List.mem_singleton] at member
        exact member ▸ begun (member ▸ spaced)
  | cons w ws ih =>
      obtain ⟨unspaced, others⟩ := List.forall_mem_cons.mp whole
      have alone : ' ' ∈ w → tooWide w = false := fun inside => absurd inside unspaced
      rw [fillLines_cons] at member
      split at member
      · exact ih others alone member
      · split at member
        · rcases List.mem_cons.mp member with rfl | later
          · exact begun spaced
          · exact ih others alone later
        · next fits => exact ih others (fun _ => Bool.eq_false_iff.mpr fits) member

section Even
variable (even : ∀ w ∈ ws, w ≠ [])
include even

theorem intercalate_fillLines (begun : line ≠ []) :
    [' '].intercalate (fillLines tooWide line ws) = [' '].intercalate (line :: ws) := by
  induction ws generalizing line with
  | nil => simp [fillLines, begun]
  | cons w ws ih =>
      obtain ⟨full, others⟩ := List.forall_mem_cons.mp even
      rw [fillLines_cons, if_neg begun]
      split
      · have some : fillLines tooWide w ws ≠ [] := by
          intro none
          have joined := ih others full
          rw [none, List.intercalate_nil] at joined
          cases ws <;> simp [full] at joined
        rw [List.intercalate_cons_of_ne_nil some, ih others full, List.intercalate_cons_cons]
      · rw [ih others (by simp)]
        cases ws <;> simp

theorem firstWord_head_fillLines (begun : line ≠ []) :
    ∀ l ∈ (fillLines tooWide line ws).head?, firstWord l = firstWord line := by
  induction ws generalizing line with
  | nil => simp [fillLines, begun]
  | cons w ws ih =>
      obtain ⟨-, others⟩ := List.forall_mem_cons.mp even
      rw [fillLines_cons, if_neg begun]
      split
      · simp
      · rw [← firstWord_append line w]
        exact ih others (by simp)

/-- A line ends where the first word of the next one makes it too wide. -/
theorem isChain_fillLines (whole : ∀ w ∈ ws, ' ' ∉ w) (begun : line ≠ []) :
    (fillLines tooWide line ws).IsChain fun l next =>
      tooWide (l ++ ' ' :: firstWord next) = true := by
  induction ws generalizing line with
  | nil => simp [fillLines, begun]
  | cons w ws ih =>
      obtain ⟨full, others⟩ := List.forall_mem_cons.mp even
      obtain ⟨unspaced, wholes⟩ := List.forall_mem_cons.mp whole
      rw [fillLines_cons, if_neg begun]
      split
      · next wide =>
        refine List.isChain_cons.mpr ⟨?_, ih others wholes full⟩
        intro next first
        rwa [firstWord_head_fillLines others full next first, firstWord_word unspaced]
      · exact ih others wholes (by simp)

end Even

variable {text : List Char}

/-- In an evenly spaced text the first word begins the first line. -/
theorem EvenlySpaced.exists_words (even : EvenlySpaced text) (some : text ≠ []) :
    ∃ w ws, words text = w :: ws ∧ w ≠ [] ∧ ∀ v ∈ ws, v ≠ [] := by
  cases split : words text with
  | nil => exact absurd (words_eq_splitOn text ▸ split) (List.splitOn_ne_nil ' ' text)
  | cons w ws =>
      have full : ∀ v ∈ w :: ws, v ≠ [] :=
        fun v member => even.ne_nil_of_mem_words some (split ▸ member)
      exact ⟨w, ws, rfl, List.forall_mem_cons.mp full⟩

theorem EvenlySpaced.intercalate_breakLines (even : EvenlySpaced text) :
    [' '].intercalate (breakLines tooWide text) = text := by
  by_cases empty : text = []
  · rw [empty]
    rfl
  · obtain ⟨w, ws, split, full, others⟩ := even.exists_words empty
    rw [breakLines, split, fillLines_cons, if_pos rfl, intercalate_fillLines others full, ← split,
      words_eq_splitOn, List.intercalate_splitOn]

theorem EvenlySpaced.isChain_breakLines (even : EvenlySpaced text) :
    (breakLines tooWide text).IsChain fun l next =>
      tooWide (l ++ ' ' :: firstWord next) = true := by
  by_cases empty : text = []
  · rw [empty]
    exact .nil
  · obtain ⟨w, ws, split, full, others⟩ := even.exists_words empty
    have whole : ∀ v ∈ ws, ' ' ∉ v :=
      fun v member => space_not_mem_words (split ▸ List.mem_cons_of_mem w member)
    rw [breakLines, split, fillLines_cons, if_pos rfl]
    exact isChain_fillLines others whole full

end Lines

section Wrap
variable {α : Type} [Scalar α]

/-- Break a text by any measure of the width of a line. -/
def wrapBy (width : String → α) (maxWidth : α) (text : String) : List String :=
  (breakLines (fun line => decide (maxWidth < width (String.ofList line))) text.toList).map
    String.ofList

theorem wrapText_eq_wrapBy (config : Config α) (fontSize maxWidth : α) (text : String) :
    wrapText config fontSize maxWidth text = wrapBy (textWidth config fontSize) maxWidth text := by
  simp only [wrapText, wrapBy, textWidth, String.toList_ofList]

/-- What is true of the lines of a text. -/
structure Wrapped (width : String → α) (maxWidth : α) (text : String) (lines : List String) :
    Prop where
  lossless : lines.flatMap (fun line => fullWords line.toList) = fullWords text.toList
  filled : ∀ line ∈ lines, line ≠ ""
  narrow : ∀ line ∈ lines, ' ' ∈ line.toList → ¬ maxWidth < width line
  joined : EvenlySpaced text.toList → " ".intercalate lines = text
  full : EvenlySpaced text.toList → lines.IsChain fun line next =>
    maxWidth < width (line ++ " " ++ String.ofList (firstWord next.toList))

/-- Breaking a text loses nothing, keeps to the width as far as words allow and wastes no line, for
the estimated width of texts as for any other measure. -/
theorem wrapText_wrapped (config : Config α) (fontSize maxWidth : α) (text : String) :
    wrapText config fontSize maxWidth text = wrapBy (textWidth config fontSize) maxWidth text ∧
      ∀ width : String → α, Wrapped width maxWidth text (wrapBy width maxWidth text) := by
  refine ⟨wrapText_eq_wrapBy config fontSize maxWidth text, ?_⟩
  intro width
  have whole : ∀ w ∈ words text.toList, ' ' ∉ w := fun w => space_not_mem_words
  constructor
  case lossless =>
    rw [wrapBy, List.flatMap_map]
    simp only [String.toList_ofList]
    rw [breakLines, fullWords_fillLines whole, words_eq_splitOn]
    rfl
  case filled =>
    intro line member
    obtain ⟨l, inside, rfl⟩ := List.mem_map.mp member
    simpa [String.ofList_eq_empty_iff] using ne_nil_of_mem_fillLines inside
  case narrow =>
    intro line member spaced
    obtain ⟨l, inside, rfl⟩ := List.mem_map.mp member
    rw [String.toList_ofList] at spaced
    have begun : ' ' ∈ ([] : List Char) → decide (maxWidth < width (String.ofList [])) = false :=
      fun none => absurd none List.not_mem_nil
    exact of_decide_eq_false (narrow_of_mem_fillLines whole begun inside spaced)
  case joined =>
    intro even
    refine String.toList_inj.mp ?_
    rw [String.toList_intercalate, wrapBy, List.map_map]
    have same : String.toList ∘ String.ofList = id := funext fun l => String.toList_ofList
    rw [same, List.map_id]
    exact even.intercalate_breakLines
  case full =>
    intro even
    refine (List.isChain_map String.ofList).mpr (even.isChain_breakLines.imp ?_)
    intro l next wide
    rw [String.toList_ofList]
    have line : String.ofList l ++ " " ++ String.ofList (firstWord next) =
        String.ofList (l ++ ' ' :: firstWord next) := by
      simp [← String.toList_inj]
    rw [line]
    exact of_decide_eq_true wide

end Wrap
end Flowchart.Layout
