import Flowchart.Text.Escape
import Flowchart.Drawing.Markup
import Flowchart.Xml.WellFormed
/-! A grammar of markup, for what a drawing may be written as. It knows elements that are closed in
the order they are nested, attributes in double quotes and text, and of references only those to the
five characters that have a meaning in markup. -/
namespace Flowchart.Drawing

/-- What may stand behind an ampersand. -/
def references : List String := ["amp;", "lt;", "gt;", "quot;", "apos;"]

def isText : List Char → Bool
  | [] => true
  | c :: cs =>
    c != '<' && (c != '&' || references.any (·.toList.isPrefixOf cs)) && isText cs

/-- Text without tags, in which every ampersand begins a reference. -/
def IsText (s : String) : Prop := isText s.toList = true

/-- Text that may stand between double quotes. -/
def IsValue (s : String) : Prop := IsText s ∧ '"' ∉ s.toList

def isName (s : String) : Bool := Xml.isPart s.toList && s.toList.all Xml.isNameChar

structure Tag where
  name : String
  attributes : List Attribute
  deriving DecidableEq, Repr

/-- Attributes as they are written in a tag. -/
inductive Attributes : List Attribute → String → Prop where
  | nil : Attributes [] ""
  | cons {a : Attribute} {as : List Attribute} {rest : String} : isName a.name = true →
      IsValue a.value → Attributes as rest →
      Attributes (a :: as) (" " ++ a.name ++ "=\"" ++ a.value ++ "\"" ++ rest)

/-- Text and elements one behind the other, with the tags that begin elements, in order. -/
inductive Content : List Tag → String → Prop where
  | nil : Content [] ""
  | characters {text rest : String} {tags : List Tag} : IsText text → Content tags rest →
      Content tags (text ++ rest)
  | empty {name written rest : String} {as : List Attribute} {tags : List Tag} :
      isName name = true → Attributes as written → Content tags rest →
      Content (⟨name, as⟩ :: tags) ("<" ++ name ++ written ++ "/>" ++ rest)
  | element {name written body rest : String} {as : List Attribute} {inner tags : List Tag} :
      isName name = true → Attributes as written → Content inner body → Content tags rest →
      Content (⟨name, as⟩ :: (inner ++ tags))
        ("<" ++ name ++ written ++ ">" ++ body ++ "</" ++ name ++ ">" ++ rest)

/-- An element with a start tag and an end tag, and all tags that begin in it. -/
inductive IsElement (name : String) : List Tag → String → Prop where
  | intro {written body : String} {as : List Attribute} {inner : List Tag} :
      Attributes as written → Content inner body →
      IsElement name (⟨name, as⟩ :: inner)
        ("<" ++ name ++ written ++ ">" ++ body ++ "</" ++ name ++ ">")

section Text
variable {s t : String}

instance (s : String) : Decidable (IsText s) := inferInstanceAs (Decidable (_ = true))

instance (s : String) : Decidable (IsValue s) := inferInstanceAs (Decidable (_ ∧ _))

theorem isText_append {cs ds : List Char} (left : isText cs = true) (right : isText ds = true) :
    isText (cs ++ ds) = true := by
  induction cs with
  | nil => exact right
  | cons c cs ih =>
      simp only [isText, List.cons_append, Bool.and_eq_true, Bool.or_eq_true, List.any_eq_true,
        List.isPrefixOf_iff_prefix] at left ⊢
      obtain ⟨⟨plain, reference⟩, rest⟩ := left
      refine ⟨⟨plain, reference.imp_right ?_⟩, ih rest⟩
      rintro ⟨r, known, front⟩
      exact ⟨r, known, front.trans (List.prefix_append cs ds)⟩

theorem IsText.append (left : IsText s) (right : IsText t) : IsText (s ++ t) := by
  rw [IsText, String.toList_append]
  exact isText_append left right

theorem IsText.not_mem (text : IsText s) : '<' ∉ s.toList := by
  unfold IsText at text
  generalize s.toList = cs at text ⊢
  induction cs with
  | nil => exact List.not_mem_nil
  | cons c cs ih =>
      simp only [isText, Bool.and_eq_true, bne_iff_ne] at text
      rw [List.mem_cons, not_or]
      exact ⟨text.1.1.symm, ih text.2⟩

/-- Text with neither tags nor references. -/
theorem isText_of_plain {cs : List Char} (plain : ∀ c ∈ cs, c ≠ '<' ∧ c ≠ '&') :
    isText cs = true := by
  induction cs with
  | nil => rfl
  | cons c cs ih =>
      obtain ⟨⟨noTag, noReference⟩, rest⟩ := List.forall_mem_cons.mp plain
      simp only [isText, Bool.and_eq_true, Bool.or_eq_true, bne_iff_ne]
      exact ⟨⟨noTag, .inl noReference⟩, ih rest⟩

theorem isText_escapeChar (c : Char) : isText (Text.escapeChar c) = true := by
  unfold Text.escapeChar
  split
  any_goals decide
  · next noReference noTag _ _ _ =>
    exact isText_of_plain (List.forall_mem_singleton.mpr ⟨noTag, noReference⟩)

theorem quote_not_mem_escapeChar (c : Char) : '"' ∉ Text.escapeChar c := by
  unfold Text.escapeChar
  split
  any_goals decide
  · next noQuote _ => simpa using Ne.symm noQuote

/-- Any characters at all are a value once they are escaped. -/
theorem isValue_escaped (s : String) : IsValue (Text.escaped s) := by
  rw [IsValue, IsText, Text.escaped, String.toList_ofList, Text.escape]
  constructor
  · induction s.toList with
    | nil => rfl
    | cons c cs ih => exact isText_append (isText_escapeChar c) ih
  · rw [List.mem_flatMap]
    rintro ⟨c, -, inside⟩
    exact quote_not_mem_escapeChar c inside

example : IsValue "a &lt; b" ∧ ¬IsValue "a < b" ∧ ¬IsValue "a & b" := by decide

theorem IsValue.append (left : IsValue s) (right : IsValue t) : IsValue (s ++ t) := by
  refine ⟨left.1.append right.1, ?_⟩
  rw [String.toList_append, List.mem_append, not_or]
  exact ⟨left.2, right.2⟩

theorem isValue_join {parts : List String} (values : ∀ s ∈ parts, IsValue s) :
    IsValue (String.join parts) := by
  induction parts with
  | nil => exact (by decide : IsValue "")
  | cons s parts ih =>
      obtain ⟨first, others⟩ := List.forall_mem_cons.mp values
      rw [String.join_cons]
      exact first.append (ih others)

theorem isValue_intercalate {separator : String} {parts : List String} (between : IsValue separator)
    (values : ∀ s ∈ parts, IsValue s) : IsValue (separator.intercalate parts) := by
  induction parts with
  | nil => exact (by decide : IsValue "")
  | cons s parts ih =>
      obtain ⟨first, others⟩ := List.forall_mem_cons.mp values
      cases parts with
      | nil => simpa using first
      | cons t parts =>
          rw [String.intercalate_cons_cons]
          exact (first.append between).append (ih others)

/-- None of some characters stands in a text. -/
def Lacks (s : String) (marks : List Char) : Prop := ∀ c ∈ s.toList, c ∉ marks

instance (s : String) (marks : List Char) : Decidable (Lacks s marks) :=
  List.decidableBAll (· ∉ marks) s.toList

theorem Lacks.isText {marks : List Char} (lacks : Lacks s marks) (tag : '<' ∈ marks)
    (reference : '&' ∈ marks) : IsText s := by
  refine isText_of_plain ?_
  intro c inside
  exact ⟨fun same => lacks c inside (same ▸ tag), fun same => lacks c inside (same ▸ reference)⟩

theorem Lacks.isValue (lacks : Lacks s ['<', '>', '&', '"']) : IsValue s :=
  ⟨lacks.isText (by decide) (by decide), fun inside => lacks _ inside (by decide)⟩

theorem isText_spaces (count : Nat) : IsText (String.ofList (List.replicate count ' ')) := by
  rw [IsText, String.toList_ofList]
  refine isText_of_plain ?_
  intro c inside
  rw [List.eq_of_mem_replicate inside]
  decide

theorem lacks_nat (n : Nat) : Lacks (toString n) ['<', '>', '&', '"'] := by
  have noDigit : ['<', '>', '&', '"'].all (!·.isDigit) = true := by decide
  intro c inside mark
  rw [Nat.toString_eq_repr, Nat.repr, String.toList_ofList] at inside
  have digit : c.isDigit = true := Nat.isDigit_of_mem_toDigits (by decide) (by decide) inside
  simpa [digit] using List.all_eq_true.mp noDigit c mark

end Text

section Content
variable {tags more : List Tag} {s t : String}

theorem Content.append (left : Content tags s) (right : Content more t) :
    Content (tags ++ more) (s ++ t) := by
  induction left with
  | nil => simpa using right
  | characters text _ ih => simpa [String.append_assoc] using ih.characters text
  | empty name written _ ih => simpa [String.append_assoc] using ih.empty name written
  | element name written body _ _ ih =>
      simpa [String.append_assoc] using Content.element name written body ih

theorem IsText.content (text : IsText s) : Content [] s := by
  simpa using Content.nil.characters text

theorem IsElement.content {name : String} (named : isName name = true)
    (element : IsElement name tags s) : Content tags s := by
  obtain ⟨written, body⟩ := element
  simpa using Content.element named written body .nil

theorem attributes_write {as : List Attribute}
    (sound : ∀ a ∈ as, isName a.name = true ∧ IsValue a.value) :
    Attributes as (Piece.writeAttributes as) := by
  induction as with
  | nil => exact .nil
  | cons a as ih =>
      obtain ⟨⟨named, value⟩, rest⟩ := List.forall_mem_cons.mp sound
      simpa [Piece.writeAttributes, Attribute.write, String.append_assoc] using
        Attributes.cons named value (ih rest)

end Content
end Flowchart.Drawing
