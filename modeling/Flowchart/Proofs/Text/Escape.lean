import Flowchart.Text.Escape
import Flowchart.Proofs.Text.Replace
/-! Escaping. Replacing the marks of the whole text one after another comes to the same as replacing
each character once, because no reference contains a mark that is replaced after its own. In an
escaped text every ampersand begins a reference that was written for a character, and one pass from
left to right that puts the characters back gives the text again. -/
namespace Flowchart.Text

/-- The characters that are escaped, with their references. The ampersand comes first: each
reference begins with one. -/
def marks : List (Char × List Char) :=
  [('&', "&amp;".toList), ('<', "&lt;".toList), ('>', "&gt;".toList), ('"', "&quot;".toList),
    ('\'', "&apos;".toList)]

/-- Put a reference for each mark of the whole text, one mark after another. -/
def replaceMarks (ms : List (Char × List Char)) (cs : List Char) : List Char :=
  ms.foldl (fun cs m => replaceAll [m.1] m.2 cs) cs

/-- Pass over `skip` characters of a reference that is read already, then put its character for each
reference, from left to right. -/
def unescapeFrom : (skip : Nat) → List Char → List Char
  | _, [] => []
  | skip + 1, _ :: cs => unescapeFrom skip cs
  | 0, c :: cs =>
    match marks.find? (·.2.isPrefixOf (c :: cs)) with
    | some (mark, reference) => mark :: unescapeFrom (reference.length - 1) cs
    | none => c :: unescapeFrom 0 cs

def unescape (cs : List Char) : List Char := unescapeFrom 0 cs

section Character

/-- A mark is written as a reference with one ampersand, at its beginning; all else stays. -/
theorem escapeChar_cases (c : Char) :
    (∃ body, (c, '&' :: body) ∈ marks ∧ escapeChar c = '&' :: body ∧ '&' ∉ body) ∨
      escapeChar c = [c] ∧ c ∉ marks.map (·.1) := by
  unfold escapeChar
  split
  any_goals exact .inl ⟨_, by decide, rfl, by decide⟩
  · next ampersand less greater quote apostrophe =>
    refine .inr ⟨rfl, ?_⟩
    simp only [marks, List.map_cons, List.map_nil, List.mem_cons, List.not_mem_nil, or_false,
      not_or]
    exact ⟨ampersand, less, greater, quote, apostrophe⟩

theorem escape_cons (c : Char) (cs : List Char) : escape (c :: cs) = escapeChar c ++ escape cs :=
  List.flatMap_cons

end Character

section Replacing
variable {ms : List (Char × List Char)}

/-- What one character becomes: the first reference for it, or itself. -/
def referenceOf (ms : List (Char × List Char)) (c : Char) : List Char := (ms.lookup c).getD [c]

theorem referenceOf_cons (m : Char × List Char) (c : Char) :
    referenceOf (m :: ms) c = if c = m.1 then m.2 else referenceOf ms c := by
  rw [referenceOf, List.lookup_cons]
  by_cases same : c = m.1
  · rw [beq_iff_eq.mpr same, if_pos same]
    rfl
  · rw [beq_eq_false_iff_ne.mpr same, if_neg same]
    rfl

theorem referenceOf_of_not_mem {c : Char} (plain : c ∉ ms.map (·.1)) : referenceOf ms c = [c] := by
  induction ms with
  | nil => rfl
  | cons m ms ih =>
    rw [List.map_cons, List.mem_cons, not_or] at plain
    rw [referenceOf_cons, if_neg plain.1, ih plain.2]

theorem flatMap_referenceOf_eq_self {cs : List Char} (plain : ∀ c ∈ cs, c ∉ ms.map (·.1)) :
    cs.flatMap (referenceOf ms) = cs := by
  rw [List.flatMap_def, List.map_congr_left fun c inside => referenceOf_of_not_mem (plain c inside),
    ← List.flatMap_def, List.flatMap_singleton']

theorem replaceAll_singleton (mark : Char) (reference cs : List Char) :
    replaceAll [mark] reference cs = cs.flatMap fun c => if c = mark then reference else [c] := by
  induction cs with
  | nil => rfl
  | cons c cs ih =>
    rw [List.flatMap_cons, ← ih]
    by_cases same : c = mark
    · rw [if_pos same, same]
      exact replaceAll_front (List.cons_ne_nil mark []) cs
    · have nowhere : ¬ [mark] <+: c :: cs := fun begins =>
        same (List.cons_prefix_cons.mp begins).1.symm
      rw [if_neg same, replaceAll, replaceFrom, if_neg (mt List.isPrefixOf_iff_prefix.mp nowhere)]
      rfl

/-- One mark after another is as good as all at once if no reference contains a later mark. -/
theorem replaceMarks_eq_flatMap (ordered : ms.Pairwise fun m n => n.1 ∉ m.2) (cs : List Char) :
    replaceMarks ms cs = cs.flatMap (referenceOf ms) := by
  induction ms generalizing cs with
  | nil => exact (flatMap_referenceOf_eq_self fun _ _ => List.not_mem_nil).symm
  | cons m ms ih =>
    obtain ⟨later, others⟩ := List.pairwise_cons.mp ordered
    rw [replaceMarks, List.foldl_cons, ← replaceMarks, ih others, replaceAll_singleton,
      List.flatMap_assoc]
    congr 1
    funext c
    rw [referenceOf_cons]
    split
    · refine flatMap_referenceOf_eq_self ?_
      intro d inside mark
      obtain ⟨n, member, rfl⟩ := List.mem_map.mp mark
      exact later n member inside
    · exact List.flatMap_singleton ..

theorem escapeChar_eq_referenceOf (c : Char) : escapeChar c = referenceOf marks c := by
  have known_eq : ∀ m ∈ marks, referenceOf marks m.1 = m.2 := by decide
  rcases escapeChar_cases c with ⟨body, known, written, -⟩ | ⟨written, plain⟩
  · rw [written, known_eq _ known]
  · rw [written, referenceOf_of_not_mem plain]

theorem escape_eq_replaceMarks (cs : List Char) : escape cs = replaceMarks marks cs := by
  rw [replaceMarks_eq_flatMap (by decide), escape]
  exact congrArg (cs.flatMap ·) (funext escapeChar_eq_referenceOf)

/-- With the ampersand last the references themselves would be escaped. -/
example : replaceMarks marks.reverse ['<'] = "&amp;lt;".toList ∧ escape ['<'] = "&lt;".toList := by
  decide

end Replacing

section Ampersands
variable {cs : List Char}

/-- No mark but the ampersand is left. -/
theorem not_mem_escape {c : Char} (mark : c ∈ marks.map (·.1)) (other : c ≠ '&') :
    c ∉ escape cs := by
  have bodies : ∀ c ∈ marks.map (·.1), c ≠ '&' → ∀ m ∈ marks, c ∉ m.2 := by simp [marks]
  rw [escape, List.mem_flatMap]
  rintro ⟨d, -, inside⟩
  rcases escapeChar_cases d with ⟨body, known, written, -⟩ | ⟨written, plain⟩
  · exact bodies c mark other _ known (written ▸ inside)
  · rw [written, List.mem_singleton] at inside
    exact plain (inside ▸ mark)

/-- An ampersand of what one character becomes is the first character of its reference. -/
theorem escapeChar_split {c : Char} {before rest : List Char}
    (split : escapeChar c = before ++ '&' :: rest) :
    before = [] ∧ (c, escapeChar c) ∈ marks := by
  rcases escapeChar_cases c with ⟨body, known, written, once⟩ | ⟨written, plain⟩
  · refine ⟨?_, written ▸ known⟩
    cases before with
    | nil => rfl
    | cons d before =>
      rw [written, List.cons_append, List.cons.injEq] at split
      exact absurd (split.2 ▸ List.mem_append_right before List.mem_cons_self) once
  · have same : '&' = c := by
      rw [← List.mem_singleton, ← written, split]
      exact List.mem_append_right before List.mem_cons_self
    exact absurd (same ▸ plain) (by decide)

/-- Where an ampersand stands the reference of a character begins, and what is before and behind it
is escaped from what is before and behind the character. -/
theorem exists_of_escape_eq {before after : List Char}
    (split : escape cs = before ++ '&' :: after) :
    ∃ front c back reference, cs = front ++ c :: back ∧ (c, reference) ∈ marks ∧
      before = escape front ∧ '&' :: after = reference ++ escape back := by
  induction cs generalizing before with
  | nil => simp [escape] at split
  | cons d cs ih =>
    rw [escape_cons] at split
    rcases List.append_eq_append_iff.mp split with ⟨rest, rfl, later⟩ | ⟨rest, first, later⟩
    · obtain ⟨front, c, back, reference, rfl, known, rfl, written⟩ := ih later
      exact ⟨d :: front, c, back, reference, rfl, known, (escape_cons d front).symm, written⟩
    · cases rest with
      | nil =>
        -- the ampersand is the first character behind this one
        have behind : escape cs = [] ++ '&' :: after := later.symm
        obtain ⟨front, c, back, reference, rfl, known, none, written⟩ := ih behind
        refine ⟨d :: front, c, back, reference, rfl, known, ?_, written⟩
        rw [escape_cons, ← none, first, List.append_nil, List.append_nil]
      | cons e rest =>
        obtain ⟨rfl, later⟩ := List.cons.inj later
        obtain ⟨rfl, known⟩ := escapeChar_split first
        exact ⟨[], d, cs, escapeChar d, rfl, known, rfl, by rw [first, later]; rfl⟩

end Ampersands

section Unescaping

theorem unescapeFrom_length (front cs : List Char) :
    unescapeFrom front.length (front ++ cs) = unescape cs := by
  induction front with
  | nil => rfl
  | cons c front ih => exact ih

/-- What is written for a character is read as that character. -/
theorem unescape_escapeChar (c : Char) (cs : List Char) :
    unescape (escapeChar c ++ cs) = c :: unescape cs := by
  rcases escapeChar_cases c with ⟨body, known, written, -⟩ | ⟨written, plain⟩
  · have found : ∀ m ∈ marks, marks.find? (·.2.isPrefixOf (m.2 ++ cs)) = some m := by
      simp only [marks, List.forall_mem_cons]
      exact ⟨rfl, rfl, rfl, rfl, rfl, List.forall_mem_nil _⟩
    rw [written, List.cons_append, unescape, unescapeFrom, ← List.cons_append, found _ known]
    exact congrArg (c :: ·) (unescapeFrom_length body cs)
  · have none : marks.find? (·.2.isPrefixOf (c :: cs)) = none := by
      have heads : ∀ m ∈ marks, m.2.head? = some '&' := by decide
      refine List.find?_eq_none.mpr fun m known begins => ?_
      obtain ⟨rest, split⟩ := List.isPrefixOf_iff_prefix.mp begins
      have same := congrArg List.head? split
      rw [List.head?_append, heads m known, Option.some_or, List.head?_cons, Option.some.injEq]
        at same
      exact absurd (same ▸ plain) (by decide)
    rw [written, List.singleton_append, unescape, unescapeFrom, none]
    rfl

theorem unescape_escape (cs : List Char) : unescape (escape cs) = cs := by
  induction cs with
  | nil => rfl
  | cons c cs ih => rw [escape_cons, unescape_escapeChar, ih]

/-- Escaped text keeps no mark but the ampersand, and that only where it begins the reference of a
character. Reading the references gives the text back, so different texts stay different, and a text
that already looks escaped is read as that text and not as what it looks like. -/
theorem escaped_read_back (s : String) :
    (escaped s).toList = replaceMarks marks s.toList ∧
      (∀ c ∈ ['<', '>', '"', '\''], c ∉ (escaped s).toList) ∧
      (∀ before after, (escaped s).toList = before ++ '&' :: after →
        ∃ front c back reference, s.toList = front ++ c :: back ∧ (c, reference) ∈ marks ∧
          before = escape front ∧ '&' :: after = reference ++ escape back) ∧
      unescape (escaped s).toList = s.toList ∧
      ∀ t, escaped t = escaped s → t = s := by
  have written (t : String) : (escaped t).toList = escape t.toList := String.toList_ofList
  refine ⟨?_, ?_, ?_, ?_, ?_⟩
  · rw [written, escape_eq_replaceMarks]
  · have others : ∀ c ∈ ['<', '>', '"', '\''], c ∈ marks.map (·.1) ∧ c ≠ '&' := by simp [marks]
    intro c member
    rw [written]
    exact not_mem_escape (others c member).1 (others c member).2
  · intro before after split
    exact exists_of_escape_eq (written s ▸ split)
  · rw [written, unescape_escape]
  · intro t same
    have texts := congrArg (fun u => unescape u.toList) same
    simp only [written, unescape_escape] at texts
    exact String.toList_inj.mp texts

end Unescaping

end Flowchart.Text
