import Flowchart.Proofs.Drawing.Grammar
/-! The tags in a text, read off from left to right. What the grammar accepts is read as it says, so
its tags do not depend on how it was accepted. -/
namespace Flowchart.Drawing

/-- Where in a text a scan is. -/
inductive Place where
  | outside
  /-- In a tag, behind attributes and then a word. -/
  | inside (tag : Tag) (word : List Char)
  /-- Between the quotes of an attribute. -/
  | quoted (tag : Tag) (name value : List Char)

/-- The tags that begin elements, with what is between the quotes of their attributes. All else is
passed over: text, end tags, the declaration in front. -/
def scan : Place → List Char → List Tag
  | _, [] => []
  | .outside, c :: cs =>
    let name := cs.takeWhile Xml.isNameChar
    if c = '<' ∧ name ≠ [] then scan (.inside ⟨String.ofList name, []⟩ []) cs
    else scan .outside cs
  | .inside tag word, c :: cs =>
    if c = '>' then tag :: scan .outside cs
    else if c = '"' then scan (.quoted tag word []) cs
    else if c = ' ' then scan (.inside tag []) cs
    else if Xml.isNameChar c then scan (.inside tag (word ++ [c])) cs
    else scan (.inside tag word) cs
  | .quoted tag name value, c :: cs =>
    if c = '"' then
      let a : Attribute := ⟨String.ofList name, String.ofList value⟩
      scan (.inside ⟨tag.name, tag.attributes ++ [a]⟩ []) cs
    else scan (.quoted tag name (value ++ [c])) cs

def tags (text : String) : List Tag := scan .outside text.toList

section Run
variable {tag : Tag} {word : List Char}

theorem scan_outside {cs : List Char} (plain : '<' ∉ cs) (rest : List Char) :
    scan .outside (cs ++ rest) = scan .outside rest := by
  induction cs with
  | nil => rfl
  | cons c cs ih =>
      have other : ¬(c = '<' ∧ (cs ++ rest).takeWhile Xml.isNameChar ≠ []) :=
        fun opened => List.ne_of_not_mem_cons plain opened.1.symm
      rw [List.cons_append, scan, if_neg other, ih (List.not_mem_of_not_mem_cons plain)]

theorem scan_word {cs : List Char} (named : ∀ c ∈ cs, Xml.isNameChar c = true)
    (rest : List Char) :
    scan (.inside tag word) (cs ++ rest) = scan (.inside tag (word ++ cs)) rest := by
  induction cs generalizing word with
  | nil => rw [List.append_nil, List.nil_append]
  | cons c cs ih =>
      obtain ⟨first, others⟩ := List.forall_mem_cons.mp named
      have unlike (d : Char) (mark : Xml.isNameChar d = false) : c ≠ d := by
        rintro rfl
        exact Bool.false_ne_true (mark.symm.trans first)
      rw [List.cons_append, scan, if_neg (unlike '>' (by decide)), if_neg (unlike '"' (by decide)),
        if_neg (unlike ' ' (by decide)), if_pos first, ih others, List.append_assoc,
        List.singleton_append]

theorem scan_quoted {name value cs : List Char} (closed : '"' ∉ cs) (rest : List Char) :
    scan (.quoted tag name value) (cs ++ rest) = scan (.quoted tag name (value ++ cs)) rest := by
  induction cs generalizing value with
  | nil => rw [List.append_nil, List.nil_append]
  | cons c cs ih =>
      rw [List.cons_append, scan, if_neg (List.ne_of_not_mem_cons closed).symm,
        ih (List.not_mem_of_not_mem_cons closed), List.append_assoc, List.singleton_append]

theorem name_characters {s : String} (named : isName s = true) :
    s.toList ≠ [] ∧ ∀ c ∈ s.toList, Xml.isNameChar c = true := by
  obtain ⟨start, all⟩ := Bool.and_eq_true_iff.mp named
  refine ⟨?_, List.all_eq_true.mp all⟩
  intro empty
  rw [empty] at start
  cases start

/-- Attributes join those that the tag has, whatever ends the tag. -/
theorem scan_attributes {as : List Attribute} {written : String} (read : Attributes as written)
    {ending rest : List Char}
    (ends : ∀ t w, scan (.inside t w) (ending ++ rest) = t :: scan .outside rest) :
    scan (.inside tag word) (written.toList ++ (ending ++ rest)) =
      ⟨tag.name, tag.attributes ++ as⟩ :: scan .outside rest := by
  induction read generalizing tag word with
  | nil => simpa using ends tag word
  | @cons a as written named value _ ih =>
      have word (cs : List Char) : scan (.inside tag []) (a.name.toList ++ cs) =
          scan (.inside tag a.name.toList) cs := scan_word (name_characters named).2 cs
      have quoted (t : Tag) (name cs : List Char) :
          scan (.quoted t name []) (a.value.toList ++ cs) =
            scan (.quoted t name a.value.toList) cs := scan_quoted value.2 cs
      have equals : Xml.isNameChar '=' = false := by decide
      simp [String.toList_append, scan, word, quoted, equals, ih]

theorem scan_start {name written : String} {as : List Attribute} (named : isName name = true)
    (read : Attributes as written) {ending rest : List Char} (border : Char)
    (before : ending.head? = some border) (other : Xml.isNameChar border = false)
    (ends : ∀ t w, scan (.inside t w) (ending ++ rest) = t :: scan .outside rest) :
    scan .outside ('<' :: (name.toList ++ (written.toList ++ (ending ++ rest)))) =
      ⟨name, as⟩ :: scan .outside rest := by
  obtain ⟨some, all⟩ := name_characters named
  -- The name ends where the attributes or the end of the tag begin.
  have word : (name.toList ++ (written.toList ++ (ending ++ rest))).takeWhile Xml.isNameChar =
      name.toList := by
    rw [List.takeWhile_append_of_pos all]
    cases read with
    | nil =>
        obtain ⟨ending, rfl⟩ := List.head?_eq_some_iff.mp before
        simp [other]
    | cons _ _ _ =>
        have space : Xml.isNameChar ' ' = false := by decide
        simp [String.toList_append, space]
  rw [scan, word]
  simp only [some, ne_eq, not_false_eq_true, and_self, if_true, String.ofList_toList]
  rw [scan_word all, scan_attributes read ends, List.nil_append]

end Run

section Content
variable {ts : List Tag} {text : String}

theorem scan_finish {name : String} (named : isName name = true) (rest : List Char) :
    scan .outside ('<' :: '/' :: (name.toList ++ '>' :: rest)) = scan .outside rest := by
  have mark : Xml.isNameChar '/' = false := by decide
  have plain : '<' ∉ name.toList ++ ['>'] := by
    intro inside
    have opened : '<' ∈ name.toList := by simpa using inside
    exact absurd ((name_characters named).2 '<' opened) (by decide)
  have passed := scan_outside plain rest
  simpa [scan, mark] using passed

/-- A scan finds the tags that the grammar finds, and goes on behind. -/
theorem scan_content (content : Content ts text) (rest : List Char) :
    scan .outside (text.toList ++ rest) = ts ++ scan .outside rest := by
  induction content generalizing rest with
  | nil => rfl
  | characters plain _ ih =>
      rw [String.toList_append, List.append_assoc, scan_outside plain.not_mem, ih]
  | @empty name written more as ts named read _ ih =>
      have start := @scan_start _ _ _ named read ['/', '>'] (more.toList ++ rest) '/' rfl
        (by decide) (by intro t w; simp [scan, show Xml.isNameChar '/' = false by decide])
      simpa [String.toList_append, ih] using start
  | @element name written body more as inner ts named read _ _ first second =>
      have start := @scan_start _ _ _ named read ['>']
        (body.toList ++ '<' :: '/' :: (name.toList ++ '>' :: (more.toList ++ rest))) '>' rfl
        (by decide) (by intro t w; simp [scan])
      rw [first, scan_finish named, second] at start
      simpa [String.toList_append] using start

theorem tags_content (content : Content ts text) : tags text = ts := by
  simpa [tags, scan] using scan_content content []

example : tags "<g class=\"a data-node-id=\">&quot;<path/></g>" =
    [⟨"g", [⟨"class", "a data-node-id="⟩]⟩, ⟨"path", []⟩] := by
  decide

end Content
end Flowchart.Drawing
