import Flowchart.Script.LabelEdit
import Flowchart.Proofs.Script.Label
import Flowchart.Proofs.Script.Token
/-! Relabelled tokens. Where the old label is more than quotes, the token gets the new label in its
place, and declares the same kind of block with it. -/
namespace Flowchart.Script
open Flowchart.Text

/-- There is more in a label than blanks and quotes, so its place in the payload is clear. -/
def Worded (text : List Char) : Prop := ∃ c ∈ text, isBlank c = false ∧ isQuote c = false

theorem Worded.ne_nil {text : List Char} (worded : Worded text) : text ≠ [] := by
  obtain ⟨c, member, -⟩ := worded
  exact List.ne_nil_of_mem member

theorem Plain.worded {text : List Char} (plain : Plain text) (solid : Solid text) :
    Worded text := by
  obtain ⟨c, rest, rfl⟩ := List.exists_cons_of_ne_nil solid.ne_nil
  exact ⟨c, List.mem_cons_self, (trimmed_iff.mp solid.trimmed).1 c rfl,
    plain c List.mem_cons_self⟩

/-- What may stand beside a label. -/
def isMargin (c : Char) : Bool := isBlank c || isQuote c

section Replace
variable {old new front back : List Char}

theorem takeWhile_worded (worded : Worded old) (back : List Char) :
    (old ++ back).takeWhile isMargin = old.takeWhile isMargin := by
  obtain ⟨c, member, solid, plain⟩ := worded
  rw [List.takeWhile_append, if_neg]
  intro whole
  have all : ∀ d ∈ old, isMargin d = true := by
    refine List.takeWhile_eq_self_iff.mp ?_
    exact (List.takeWhile_prefix isMargin).eq_of_length whole
  have margin := all c member
  rw [isMargin, solid, plain] at margin
  cases margin

/-- Behind blanks and quotes, a label is first found where it stands. -/
theorem replaceFirst?_worded (worded : Worded old) (margins : ∀ c ∈ front, isMargin c = true) :
    replaceFirst? old new (front ++ (old ++ back)) = some (front ++ (new ++ back)) := by
  induction front with
  | nil =>
      obtain ⟨c, member, -⟩ := worded
      obtain ⟨d, rest, rfl⟩ := List.exists_cons_of_ne_nil (List.ne_nil_of_mem member)
      have begins : d :: rest <+: d :: (rest ++ back) := List.prefix_append (d :: rest) back
      rw [List.nil_append, List.nil_append, List.cons_append, replaceFirst?,
        if_pos (List.isPrefixOf_iff_prefix.mpr begins), ← List.cons_append, List.drop_left]
  | cons d front ih =>
      obtain ⟨here, later⟩ := List.forall_mem_cons.mp margins
      have apart : ¬ old <+: d :: (front ++ (old ++ back)) := by
        rintro ⟨rest, begins⟩
        -- both places of the label lie behind all the margin characters of the text
        have near := takeWhile_worded worded rest
        rw [begins, List.takeWhile_cons_of_pos here, List.takeWhile_append_of_pos later,
          takeWhile_worded worded back] at near
        have long := congrArg List.length near
        simp only [List.length_cons, List.length_append] at long
        omega
      rw [List.cons_append, replaceFirst?, if_neg (mt List.isPrefixOf_iff_prefix.mp apart),
        ih later]
      rfl

end Replace

section Parts

theorem splitLast?_concat (c : Char) (ds : List Char) :
    splitLast? c (ds ++ [c]) = some (ds, [c]) := by
  induction ds with
  | nil => simp [splitLast?]
  | cons d ds ih => rw [List.cons_append, splitLast?, ih]

/-- The parts of a token whose label can be edited are its enclosure and its payload. -/
theorem tokenParts?_enclosed {e : Enclosure} (member : e ∈ enclosures)
    (editable : e.kind.hasEditableText = true) (payload : List Char) :
    tokenParts? (e.opening ++ (payload ++ [e.closing])) =
      some ⟨e.opening, payload, [e.closing]⟩ := by
  simp only [enclosures, List.mem_cons, List.not_mem_nil, or_false] at member
  rcases member with rfl | rfl | rfl | rfl | rfl
  · simp [tokenParts?, closing?, splitLast?_concat]
  · simp [tokenParts?, closing?, splitLast?_concat]
  · simp [tokenParts?, closing?, splitLast?_concat]
  · simp [tokenParts?, closing?, splitLast?_concat]
  · cases editable

/-- An enclosed payload declares a block of the kind of its enclosure. -/
theorem form?_enclosed {e : Enclosure} (member : e ∈ enclosures) {payload : List Char}
    (solid : payload ≠ []) :
    form? (e.opening ++ (payload ++ [e.closing])) = some (e.kind, payload) := by
  have long := List.length_pos_of_ne_nil solid
  simp only [enclosures, List.mem_cons, List.not_mem_nil, or_false] at member
  rcases member with rfl | rfl | rfl | rfl | rfl <;>
    simp [form?, enclosures, Enclosure.payload?_eq, long]

theorem blockOf_editable {kind : BlockKind} (editable : kind.hasEditableText = true)
    (payload token : List Char) : blockOf kind payload token =
      { kind, text := String.ofList (labelText payload), token := String.ofList token } := by
  cases kind <;> first | exact absurd editable (by decide) | rfl

end Parts

/-- A token with a label, what stands beside the label, and delimiters around all of it. -/
def Enclosure.token (e : Enclosure) (front label back : List Char) : List Char :=
  e.opening ++ ((front ++ (label ++ back)) ++ [e.closing])

section Enclosed
variable {e : Enclosure} (member : e ∈ enclosures) (editable : e.kind.hasEditableText = true)
  {mark front back : List Char} (framed : Framed mark front back) {old label : List Char}
include member editable

theorem readBlock?_enclosed {payload : List Char} (solid : payload ≠ []) :
    readBlock? (e.opening ++ (payload ++ [e.closing])) =
      some { kind := e.kind, text := String.ofList (labelText payload),
             token := String.ofList (e.opening ++ (payload ++ [e.closing])) } := by
  rw [readBlock?_of_form? (form?_enclosed member solid), blockOf_editable editable]

include framed

/-- In a token, the new label takes the place of the old one. -/
theorem relabelToken_token (worded : Worded old) :
    relabelToken (e.token front old back) old label = e.token front label back := by
  have margins : ∀ c ∈ front, isMargin c = true := by
    intro c inside
    rw [isMargin, Bool.or_eq_true]
    exact framed.margins c inside
  rw [relabelToken, if_neg (by simpa using worded.ne_nil), Enclosure.token,
    tokenParts?_enclosed member editable]
  simp only [replaceFirst?_worded worded margins, List.append_assoc, Enclosure.token]

theorem readBlock?_token (solid : Solid label) (unquoted : Unquoted label) :
    readBlock? (e.token front label back) =
      some { kind := e.kind, text := String.ofList label,
             token := String.ofList (e.token front label back) } := by
  have some : front ++ (label ++ back) ≠ [] := by simp [solid.ne_nil]
  rw [Enclosure.token, readBlock?_enclosed member editable some, framed.labelText solid unquoted]

end Enclosed

section Relabel
variable {token text : List Char} {b : Block}

/-- The token of a block that can be relabelled is its label in an enclosure, with blanks and quotes
beside it. -/
theorem exists_enclosed (read : readBlock? token = some b)
    (editable : b.kind.hasEditableText = true) :
    ∃ e ∈ enclosures, ∃ mark front back, Framed mark front back ∧ e.kind = b.kind ∧
      token = e.token front b.text.toList back ∧ Trimmed b.text.toList ∧ b.labels = none := by
  obtain ⟨kind, payload, found, rfl⟩ := exists_of_readBlock? read
  rw [kind_blockOf] at editable
  rcases exists_of_form? found with ⟨-, fixed⟩ | ⟨e, member, rfl, rfl, -⟩
  · rw [fixed] at editable
    cases editable
  · obtain ⟨mark, front, back, framed, split⟩ := exists_framed payload
    refine ⟨e, member, mark, front, back, framed, ?_⟩
    rw [blockOf_editable editable, String.toList_ofList, Enclosure.token, ← split]
    exact ⟨rfl, rfl, trim_trim _, rfl⟩

/-- The new token is the old one with the new label in place of the old one, and is read so. -/
theorem exists_relabelled (read : readBlock? token = some b)
    (editable : b.kind.hasEditableText = true) (worded : Worded b.text.toList) (solid : Solid text)
    (unquoted : Unquoted text) :
    ∃ before behind, token = before ++ (b.text.toList ++ behind) ∧
      relabelToken token b.text.toList text = before ++ (text ++ behind) ∧
      readBlock? (before ++ (text ++ behind)) =
        some { b with
          text := String.ofList text
          token := String.ofList (before ++ (text ++ behind)) } := by
  obtain ⟨e, member, mark, front, back, framed, kind, split, -, unlabelled⟩ :=
    exists_enclosed read editable
  rw [← kind] at editable
  have parts (label : List Char) :
      e.token front label back = (e.opening ++ front) ++ (label ++ (back ++ [e.closing])) := by
    simp only [Enclosure.token, List.append_assoc]
  refine ⟨e.opening ++ front, back ++ [e.closing], ?_⟩
  rw [← parts, ← parts, split, relabelToken_token member editable framed worded,
    readBlock?_token member editable framed solid unquoted, kind, ← unlabelled]
  exact ⟨rfl, rfl, rfl⟩

/-- In a token without quotes, a new label is read as it is exactly if it is not in quotes. -/
theorem relabelled_read_iff (read : readBlock? token = some b)
    (editable : b.kind.hasEditableText = true) (worded : Worded b.text.toList) (solid : Solid text)
    (plain : Plain token) :
    (∃ c, readBlock? (relabelToken token b.text.toList text) = some c ∧
      c.text = String.ofList text) ↔ Unquoted text := by
  constructor
  case mpr =>
    intro unquoted
    obtain ⟨_, _, -, changed, made⟩ := exists_relabelled read editable worded solid unquoted
    exact ⟨_, changed ▸ made, rfl⟩
  case mp =>
    rintro ⟨c, reads, same⟩
    obtain ⟨e, member, mark, front, back, framed, kind, rfl, -⟩ := exists_enclosed read editable
    rw [← kind] at editable
    have beside : Plain front := by
      intro d inside
      refine plain d (List.mem_append_right _ (List.mem_append_left _ ?_))
      exact List.mem_append_left _ inside
    obtain ⟨blankFront, blankBack⟩ := framed.blank beside
    have some : front ++ (text ++ back) ≠ [] := by simp [solid.ne_nil]
    rw [relabelToken_token member editable framed worded, Enclosure.token,
      readBlock?_enclosed member editable some] at reads
    obtain rfl := Option.some.inj reads
    exact unquoted_of_labelText solid blankFront blankBack (String.ofList_injective same)

/-- Where neither label has quotes, relabelling a token changes nothing but the label, is read as a
block of the same kind with that label, and is undone by relabelling it back. -/
theorem relabelToken_back (read : readBlock? token = some b)
    (editable : b.kind.hasEditableText = true) (labelled : b.text ≠ "")
    (plain : Plain b.text.toList) (solid : Solid text) (plainText : Plain text) :
    ∃ e ∈ enclosures, ∃ mark front back, Framed mark front back ∧ e.kind = b.kind ∧
      token = e.token front b.text.toList back ∧
      relabelToken token b.text.toList text = e.token front text back ∧
      readBlock? (relabelToken token b.text.toList text) =
        some { kind := b.kind, text := String.ofList text,
               token := String.ofList (relabelToken token b.text.toList text) } ∧
      relabelToken (relabelToken token b.text.toList text) text b.text.toList = token := by
  obtain ⟨e, member, mark, front, back, framed, kind, split, trimmed, -⟩ :=
    exists_enclosed read editable
  rw [← kind] at editable
  have old : Solid b.text.toList := ⟨by simpa using labelled, trimmed⟩
  have changed : relabelToken token b.text.toList text = e.token front text back := by
    rw [split]
    exact relabelToken_token member editable framed (plain.worded old)
  refine ⟨e, member, mark, front, back, framed, kind, split, changed, ?_, ?_⟩
  · rw [changed, ← kind]
    exact readBlock?_token member editable framed solid plainText.unquoted
  · rw [changed, split]
    exact relabelToken_token member editable framed (plainText.worded solid)

/-- Delimiters, letters of forms and one label in the other are nothing but text. -/
theorem relabelToken_back_delimiters :
    let token := "l[ \"\"\"  l[l<) \"\"\"]".toList
    let b : Block := { kind := .io, text := "l[l<)", token := String.ofList token }
    let text := "] l[l<) ]l".toList
    readBlock? token = some b ∧ b.kind.hasEditableText = true ∧ b.text ≠ "" ∧
      Plain b.text.toList ∧ Solid text ∧ Plain text ∧
      relabelToken token b.text.toList text = "l[ \"\"\"  ] l[l<) ]l \"\"\"]".toList ∧
      readBlock? (relabelToken token b.text.toList text) =
        some { kind := .io, text := String.ofList text,
               token := String.ofList (relabelToken token b.text.toList text) } ∧
      relabelToken (relabelToken token b.text.toList text) text b.text.toList = token := by
  intro token b text
  have read : readBlock? token = some b := by decide +kernel
  have solid : Solid text := ⟨by decide, by decide⟩
  have plain : Plain b.text.toList := by decide
  obtain ⟨e, -, mark, front, back, -, -, -, -, made, again⟩ :=
    relabelToken_back read rfl (by decide) plain solid (by decide)
  exact ⟨read, rfl, by decide, plain, solid, by decide, by decide +kernel, made, again⟩

end Relabel
end Flowchart.Script
