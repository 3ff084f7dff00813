import Flowchart.Script.Label
import Flowchart.Script.Line
import Mathlib.Data.List.Forall2
/-! Marks among bytes. A mark takes up four bytes. No byte of a longer character is one of them, so
where they stand among the bytes of a text there is a mark in the text, and what stands between two
marks can be cut out of the text at their bytes. -/
namespace Flowchart.Script
open Flowchart.Text

def IsTag (tag : List Char) : Prop := tag.length = 2 ∧ tag.all isTagLetter = true

instance (tag : List Char) : Decidable (IsTag tag) :=
  inferInstanceAs (Decidable (tag.length = 2 ∧ tag.all isTagLetter = true))

/-- A mark's letters and a text, as they are written. -/
def tagged (segment : List Char × List Char) : List Char := '*' :: (segment.1 ++ ':' :: segment.2)

theorem isTag_iff {tag : List Char} :
    IsTag tag ↔ ∃ a b, tag = [a, b] ∧ isTagLetter a = true ∧ isTagLetter b = true := by
  constructor
  · rintro ⟨two, letters⟩
    match tag, two with
    | [a, b], _ =>
        simp only [List.all_cons, List.all_nil, Bool.and_true, Bool.and_eq_true] at letters
        exact ⟨a, b, rfl, letters⟩
  · rintro ⟨a, b, rfl, first, second⟩
    exact ⟨rfl, by simp [first, second]⟩

theorem mark?_eq_some_iff {cs tag rest : List Char} :
    mark? cs = some (tag, rest) ↔ IsTag tag ∧ cs = tagged (tag, rest) := by
  rw [isTag_iff]
  constructor
  · intro read
    unfold mark? at read
    split at read
    · next a b rest =>
      simp only [Option.ite_none_right_eq_some, Bool.and_eq_true, Option.some.injEq,
        Prod.mk.injEq] at read
      obtain ⟨⟨first, second⟩, rfl, rfl⟩ := read
      exact ⟨⟨a, b, rfl, first, second⟩, rfl⟩
    · cases read
  · rintro ⟨⟨a, b, rfl, first, second⟩, rfl⟩
    simp [tagged, mark?, first, second]

section Segments
variable {c : Char} {cs tag rest : List Char}

theorem segments_of_mark (mark : mark? cs = some (tag, rest)) :
    segments cs = ([], (tag, (segments rest).1) :: (segments rest).2) := by
  obtain ⟨-, rfl⟩ := mark?_eq_some_iff.mp mark
  rw [tagged] at mark ⊢
  rw [segments]
  split
  · next found =>
    rw [mark] at found
    cases found
    rfl
  · next found =>
    rw [mark] at found
    cases found

theorem segments_of_none (unmarked : mark? (c :: cs) = none) :
    segments (c :: cs) = (c :: (segments cs).1, (segments cs).2) := by
  rw [segments]
  split
  · next found =>
    rw [unmarked] at found
    cases found
  · rfl

/-- A text falls apart at its marks and nowhere else. -/
theorem segments_induction {motive : List Char → Prop} (nil : motive [])
    (mark : ∀ tag rest, IsTag tag → motive rest → motive (tagged (tag, rest)))
    (plain : ∀ c cs, mark? (c :: cs) = none → motive cs → motive (c :: cs)) (cs : List Char) :
    motive cs := by
  induction cs using segments.induct with
  | case1 => exact nil
  | case2 c cs tag rest read text later split ih =>
      obtain ⟨isTag, whole⟩ := mark?_eq_some_iff.mp read
      rw [whole]
      exact mark tag rest isTag ih
  | case3 c cs unmarked text later split ih => exact plain c cs unmarked ih

theorem join_segments (cs : List Char) :
    cs = (segments cs).1 ++ (segments cs).2.flatMap tagged := by
  induction cs using segments_induction with
  | nil => simp [segments]
  | mark tag rest isTag ih =>
      rw [segments_of_mark (mark?_eq_some_iff.mpr ⟨isTag, rfl⟩), List.flatMap_cons, List.nil_append]
      conv => lhs; rw [ih]
      simp [tagged]
  | plain c cs unmarked ih =>
      rw [segments_of_none unmarked, List.cons_append, ← ih]

theorem isTag_of_mem_segments {segment : List Char × List Char}
    (member : segment ∈ (segments cs).2) : IsTag segment.1 := by
  induction cs using segments_induction with
  | nil => simp [segments] at member
  | mark tag rest isTag ih =>
      rw [segments_of_mark (mark?_eq_some_iff.mpr ⟨isTag, rfl⟩)] at member
      rcases List.mem_cons.mp member with rfl | later
      · exact isTag
      · exact ih later
  | plain c cs unmarked ih =>
      rw [segments_of_none unmarked] at member
      exact ih member

end Segments

section Bytes
variable {c : Char} {cs : List Char} {b : UInt8} {bs : List UInt8}

/-- The UTF-8 encoding of a text. -/
def bytes (cs : List Char) : List UInt8 := (String.ofList cs).toUTF8.data.toList

theorem bytes_cons (c : Char) (cs : List Char) :
    bytes (c :: cs) = String.utf8EncodeChar c ++ bytes cs := by
  simp [bytes, List.utf8Encode]

theorem length_bytes (cs : List Char) : (bytes cs).length = byteSize cs := by
  induction cs with
  | nil => rfl
  | cons c cs ih => rw [bytes_cons, List.length_append, String.length_utf8EncodeChar, ih, byteSize]

theorem utf8EncodeChar_ascii (ascii : c.val ≤ 127) :
    String.utf8EncodeChar c = [c.val.toUInt8] :=
  String.utf8EncodeChar_eq_singleton (Char.utf8Size_eq_one_iff.mpr ascii)

theorem le_ofNat {n : Nat} (high : 128 ≤ n) (fits : n < 256) : 128 ≤ UInt8.ofNat n := by
  rw [UInt8.le_iff_toNat_le, UInt8.toNat_ofNat', Nat.mod_eq_of_lt fits]
  exact high

/-- Only a character of one byte has a byte below 128. -/
theorem le_of_mem_utf8EncodeChar (long : ¬ c.val ≤ 127) (member : b ∈ String.utf8EncodeChar c) :
    128 ≤ b := by
  have more : ¬ c.val.toNat ≤ 127 := long
  simp only [String.utf8EncodeChar, if_neg more] at member
  split at member
  case isTrue two =>
    simp only [List.mem_cons, List.not_mem_nil, or_false] at member
    rcases member with rfl | rfl <;> exact le_ofNat (by omega) (by omega)
  case isFalse =>
    split at member
    case isTrue three =>
      simp only [List.mem_cons, List.not_mem_nil, or_false] at member
      rcases member with rfl | rfl | rfl <;> exact le_ofNat (by omega) (by omega)
    case isFalse four =>
      simp only [List.mem_cons, List.not_mem_nil, or_false] at member
      rcases member with rfl | rfl | rfl | rfl <;> exact le_ofNat (by omega) (by omega)

/-- A byte below 128 is a character of its own. -/
theorem exists_of_bytes_eq_cons (split : bytes cs = b :: bs) (small : b < 128) :
    ∃ c rest, cs = c :: rest ∧ c.val ≤ 127 ∧ c.val.toUInt8 = b ∧ bytes rest = bs := by
  cases cs with
  | nil => cases split
  | cons c rest =>
      rw [bytes_cons] at split
      by_cases ascii : c.val ≤ 127
      · rw [utf8EncodeChar_ascii ascii, List.singleton_append, List.cons.injEq] at split
        exact ⟨c, rest, rfl, ascii, split.1, split.2⟩
      · have some : String.utf8EncodeChar c ≠ [] := by
          rw [← List.length_pos_iff, String.length_utf8EncodeChar]
          exact c.utf8Size_pos
        obtain ⟨first, others, encoded⟩ := List.exists_cons_of_ne_nil some
        rw [encoded, List.cons_append, List.cons.injEq] at split
        have large := le_of_mem_utf8EncodeChar ascii (encoded ▸ List.mem_cons_self)
        exact absurd small (UInt8.not_lt.mpr (split.1 ▸ large))

theorem toNat_toUInt8 (ascii : c.val ≤ 127) : c.val.toUInt8.toNat = c.val.toNat := by
  have small : c.val.toNat ≤ 127 := ascii
  rw [UInt32.toNat_toUInt8]
  exact Nat.mod_eq_of_lt (by omega)

theorem eq_of_toUInt8 {d : Char} (first : c.val ≤ 127) (second : d.val ≤ 127)
    (same : c.val.toUInt8 = d.val.toUInt8) : c = d := by
  have values := congrArg UInt8.toNat same
  rw [toNat_toUInt8 first, toNat_toUInt8 second] at values
  exact Char.ext (UInt32.toNat_inj.mp values)

def isTagByte (b : UInt8) : Bool := 97 ≤ b && b ≤ 122

theorem isTagByte_toUInt8 (ascii : c.val ≤ 127) : isTagByte c.val.toUInt8 = isTagLetter c := by
  have value := toNat_toUInt8 ascii
  simp only [isTagByte, isTagLetter, UInt8.le_iff_toNat_le, Char.le_def, UInt32.le_iff_toNat_le,
    value]
  rfl

theorem ascii_of_isTagLetter (letter : isTagLetter c = true) : c.val ≤ 127 := by
  simp only [isTagLetter, Bool.and_eq_true, decide_eq_true_eq, Char.le_def] at letter
  exact UInt32.le_trans letter.2 (by decide)

end Bytes

section Starts
variable {c : Char} {cs tag rest : List Char} {b : UInt8} {bs : List UInt8}

/-- The first four bytes are a mark's. -/
def beginsMark : List UInt8 → Bool
  | star :: a :: b :: colon :: _ => star == 42 && isTagByte a && isTagByte b && colon == 58
  | _ => false

theorem beginsMark_iff : beginsMark bs = true ↔
    ∃ a b later, bs = 42 :: a :: b :: 58 :: later ∧ isTagByte a = true ∧ isTagByte b = true := by
  constructor
  · intro begins
    unfold beginsMark at begins
    split at begins
    · next star a b colon later =>
      simp only [Bool.and_eq_true, beq_iff_eq] at begins
      obtain ⟨⟨⟨rfl, first⟩, second⟩, rfl⟩ := begins
      exact ⟨a, b, later, rfl, first, second⟩
    · cases begins
  · rintro ⟨a, b, later, rfl, first, second⟩
    simp [beginsMark, first, second]

theorem lt_of_isTagByte (letter : isTagByte b = true) : b < 128 := by
  simp only [isTagByte, Bool.and_eq_true, decide_eq_true_eq] at letter
  exact UInt8.lt_of_le_of_lt letter.2 (by decide)

theorem bytes_tagged (isTag : IsTag tag) (rest : List Char) :
    ∃ a b, bytes (tagged (tag, rest)) = 42 :: a :: b :: 58 :: bytes rest ∧
      isTagByte a = true ∧ isTagByte b = true := by
  obtain ⟨a, b, rfl, first, second⟩ := isTag_iff.mp isTag
  have ascii := ascii_of_isTagLetter first
  have ascii' := ascii_of_isTagLetter second
  refine ⟨a.val.toUInt8, b.val.toUInt8, ?_, ?_, ?_⟩
  · simp only [tagged, List.cons_append, List.nil_append, bytes_cons, utf8EncodeChar_ascii ascii,
      utf8EncodeChar_ascii ascii']
    rfl
  · rw [isTagByte_toUInt8 ascii, first]
  · rw [isTagByte_toUInt8 ascii', second]

/-- The bytes of a mark are found where there is a mark. -/
theorem beginsMark_bytes (cs : List Char) : beginsMark (bytes cs) = (mark? cs).isSome := by
  rw [Bool.eq_iff_iff, beginsMark_iff, Option.isSome_iff_exists]
  constructor
  · rintro ⟨_, _, _, whole, first, second⟩
    obtain ⟨star, cs, rfl, starAscii, starByte, atTag⟩ :=
      exists_of_bytes_eq_cons whole (by decide)
    obtain ⟨a, cs, rfl, ascii, rfl, atSecond⟩ :=
      exists_of_bytes_eq_cons atTag (lt_of_isTagByte first)
    obtain ⟨b, cs, rfl, ascii', rfl, atColon⟩ :=
      exists_of_bytes_eq_cons atSecond (lt_of_isTagByte second)
    obtain ⟨colon, cs, rfl, colonAscii, colonByte, -⟩ :=
      exists_of_bytes_eq_cons atColon (by decide)
    obtain rfl : star = '*' := eq_of_toUInt8 starAscii (by decide) starByte
    obtain rfl : colon = ':' := eq_of_toUInt8 colonAscii (by decide) colonByte
    rw [isTagByte_toUInt8 ascii] at first
    rw [isTagByte_toUInt8 ascii'] at second
    exact ⟨([a, b], cs), mark?_eq_some_iff.mpr ⟨isTag_iff.mpr ⟨a, b, rfl, first, second⟩, rfl⟩⟩
  · rintro ⟨⟨tag, rest⟩, read⟩
    obtain ⟨isTag, rfl⟩ := mark?_eq_some_iff.mp read
    obtain ⟨a, b, split, letters⟩ := bytes_tagged isTag rest
    exact ⟨a, b, bytes rest, split, letters⟩

/-- The places where marks begin. -/
def markStarts (bs : List UInt8) : List Nat :=
  (List.range (bs.length - 3)).filter fun i => beginsMark (bs.drop i)

theorem markStarts_cons (b : UInt8) (bs : List UInt8) : markStarts (b :: bs) =
    (if beginsMark (b :: bs) then [0] else []) ++ (markStarts bs).map (· + 1) := by
  by_cases long : 3 ≤ bs.length
  · have size : (b :: bs).length - 3 = (bs.length - 3) + 1 := by
      rw [List.length_cons]
      omega
    rw [markStarts, size, List.range_succ_eq_map, List.filter_cons, List.filter_map, List.drop_zero]
    cases beginsMark (b :: bs) <;> rfl
  · have short : ¬ beginsMark (b :: bs) = true := by
      rw [beginsMark_iff]
      rintro ⟨_, _, later, split, -⟩
      obtain ⟨-, rfl⟩ := List.cons.inj split
      exact long (by simp)
    have none : bs.length - 3 = 0 := by omega
    have none' : (b :: bs).length - 3 = 0 := by
      rw [List.length_cons]
      omega
    rw [markStarts, markStarts, none, none', if_neg short]
    rfl

/-- No mark begins at bytes other than a star. -/
theorem markStarts_append {front : List UInt8} (other : ∀ b ∈ front, b ≠ 42) (bs : List UInt8) :
    markStarts (front ++ bs) = (markStarts bs).map (· + front.length) := by
  induction front with
  | nil => simp
  | cons b front ih =>
      have none : ¬ beginsMark (b :: (front ++ bs)) = true := by
        rw [beginsMark_iff]
        rintro ⟨_, _, _, split, -⟩
        exact other b List.mem_cons_self (List.cons.inj split).1
      rw [List.cons_append, markStarts_cons, if_neg none,
        ih fun b member => other b (List.mem_cons_of_mem _ member), List.nil_append, List.map_map]
      rfl

theorem ne_star_of_mem_utf8EncodeChar (other : c ≠ '*') (member : b ∈ String.utf8EncodeChar c) :
    b ≠ 42 := by
  by_cases ascii : c.val ≤ 127
  · rw [utf8EncodeChar_ascii ascii, List.mem_singleton] at member
    rintro rfl
    exact other (eq_of_toUInt8 ascii (by decide) member.symm)
  · rintro rfl
    exact absurd (le_of_mem_utf8EncodeChar ascii member) (by decide)

theorem markStarts_of_none (unmarked : mark? (c :: cs) = none) :
    markStarts (bytes (c :: cs)) = (markStarts (bytes cs)).map (· + c.utf8Size) := by
  by_cases star : c = '*'
  · have none := beginsMark_bytes (c :: cs)
    rw [unmarked] at none
    subst star
    have split : bytes ('*' :: cs) = 42 :: bytes cs := bytes_cons '*' cs
    rw [split] at none ⊢
    rw [markStarts_cons, none]
    rfl
  · rw [bytes_cons, markStarts_append fun b => ne_star_of_mem_utf8EncodeChar star,
      String.length_utf8EncodeChar]

theorem markStarts_tagged (isTag : IsTag tag) (rest : List Char) :
    markStarts (bytes (tagged (tag, rest))) = 0 :: (markStarts (bytes rest)).map (· + 4) := by
  obtain ⟨a, b, split, first, second⟩ := bytes_tagged isTag rest
  have begins : beginsMark (42 :: a :: b :: 58 :: bytes rest) = true :=
    beginsMark_iff.mpr ⟨a, b, bytes rest, rfl, first, second⟩
  have other : ∀ d ∈ [a, b, 58], d ≠ 42 := by
    have letter {d : UInt8} (tagged : isTagByte d = true) : d ≠ 42 := by
      rintro rfl
      cases tagged
    simp [letter first, letter second]
  rw [split, markStarts_cons, if_pos begins, show a :: b :: 58 :: bytes rest =
    [a, b, 58] ++ bytes rest from rfl, markStarts_append other, List.map_map]
  rfl

end Starts

section Pieces
variable {cs : List Char}

/-- Where the marks of segments begin that stand one after the other. -/
def offsets : (start : Nat) → List (List Char × List Char) → List Nat
  | _, [] => []
  | start, segment :: later => start :: offsets (start + byteSize (tagged segment)) later

theorem offsets_map_add (start : Nat) (segments : List (List Char × List Char)) (n : Nat) :
    (offsets start segments).map (· + n) = offsets (start + n) segments := by
  induction segments generalizing start with
  | nil => rfl
  | cons segment later ih =>
      rw [offsets, offsets, List.map_cons, ih, Nat.add_right_comm]

theorem byteSize_tag {tag : List Char} (isTag : IsTag tag) : byteSize tag = 2 := by
  obtain ⟨a, b, rfl, first, second⟩ := isTag_iff.mp isTag
  have one {c : Char} (letter : isTagLetter c = true) : c.utf8Size = 1 :=
    Char.utf8Size_eq_one_iff.mpr (ascii_of_isTagLetter letter)
  simp only [byteSize, one first, one second]

theorem byteSize_tagged {segment : List Char × List Char} (isTag : IsTag segment.1) :
    byteSize (tagged segment) = 4 + byteSize segment.2 := by
  have star : Char.utf8Size '*' = 1 := by decide
  have colon : Char.utf8Size ':' = 1 := by decide
  rw [tagged, byteSize, byteSize_append, byteSize_tag isTag, byteSize, star, colon]
  omega

theorem markStarts_bytes (cs : List Char) :
    markStarts (bytes cs) = offsets (byteSize (segments cs).1) (segments cs).2 := by
  induction cs using segments_induction with
  | nil => simp [segments, offsets, markStarts, bytes]
  | mark tag rest isTag ih =>
      rw [markStarts_tagged isTag, ih, offsets_map_add,
        segments_of_mark (mark?_eq_some_iff.mpr ⟨isTag, rfl⟩), offsets, byteSize_tagged isTag,
        byteSize, Nat.zero_add, Nat.add_comm 4]
  | plain c cs unmarked ih =>
      rw [markStarts_of_none unmarked, ih, offsets_map_add, segments_of_none unmarked, byteSize,
        Nat.add_comm]

/-- From each place to the next one, and from the last one to the end. -/
def stretches (starts : List Nat) (stop : Nat) : List Span :=
  List.zipWith Span.mk starts (starts.tail ++ [stop])

/-- What stands from each mark to the next one. -/
def markSpans (bs : List UInt8) : List Span := stretches (markStarts bs) bs.length

/-- A part of a text, from the bytes in front of it to its last byte. -/
def Sliced (cs : List Char) (span : Span) (part : List Char) : Prop :=
  ∃ before behind, cs = before ++ (part ++ behind) ∧
    span = ⟨byteSize before, byteSize (before ++ part)⟩

/-- Letters and text of a segment are cut out of a piece. -/
def SlicedOut (cs : List Char) (piece : Span) (segment : List Char × List Char) : Prop :=
  Sliced cs ⟨piece.start + 1, piece.start + 3⟩ segment.1 ∧
    Sliced cs ⟨piece.start + 4, piece.stop⟩ segment.2

theorem slicedOut_tagged {segment : List Char × List Char} (isTag : IsTag segment.1)
    (before behind : List Char) : SlicedOut (before ++ (tagged segment ++ behind))
      ⟨byteSize before, byteSize before + byteSize (tagged segment)⟩ segment := by
  have star : byteSize ['*'] = 1 := by decide
  have colon : byteSize [':'] = 1 := by decide
  constructor
  · refine ⟨before ++ ['*'], ':' :: (segment.2 ++ behind), by simp [tagged], ?_⟩
    simp only [byteSize_append, byteSize_tag isTag, star]
  · refine ⟨before ++ (['*'] ++ (segment.1 ++ [':'])), behind, by simp [tagged], ?_⟩
    rw [byteSize_tagged isTag]
    simp only [byteSize_append, byteSize_tag isTag, star, colon]
    congr 1
    omega

theorem forall₂_slicedOut {segments : List (List Char × List Char)}
    (tags : ∀ segment ∈ segments, IsTag segment.1) (before : List Char) :
    List.Forall₂ (SlicedOut (before ++ segments.flatMap tagged))
      (stretches (offsets (byteSize before) segments)
        (byteSize (before ++ segments.flatMap tagged)))
      segments := by
  induction segments generalizing before with
  | nil => exact .nil
  | cons segment later ih =>
      have isTag := tags segment List.mem_cons_self
      have here := slicedOut_tagged isTag before (later.flatMap tagged)
      have rest := ih (fun s member => tags s (List.mem_cons_of_mem _ member))
        (before ++ tagged segment)
      rw [byteSize_append before (tagged segment), List.append_assoc] at rest
      -- a piece ends where the next mark begins, and the last one with the text
      cases later with
      | nil =>
          rw [List.flatMap_nil, List.append_nil] at here
          rw [List.flatMap_singleton, byteSize_append]
          exact .cons here .nil
      | cons next later => exact .cons here rest

/-- Whatever a text is, its segments are cut out of it at the bytes of its marks. -/
theorem slicedOut_segments (cs : List Char) :
    List.Forall₂ (SlicedOut cs) (markSpans (bytes cs)) (segments cs).2 := by
  have tags : ∀ segment ∈ (segments cs).2, IsTag segment.1 := fun _ => isTag_of_mem_segments
  have sliced := forall₂_slicedOut tags (segments cs).1
  rw [← join_segments, ← markStarts_bytes, ← length_bytes] at sliced
  exact sliced

end Pieces
end Flowchart.Script
