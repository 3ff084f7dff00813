import Flowchart.Proofs.Script.Mark
import Flowchart.Proofs.Script.Quoting
import Mathlib.Data.List.Infix
/-! Fields of a composite block. Texts that have no mark in them are read from behind their marks as
they were written, in any order. Fields that are not known and fields that come again change
nothing. -/
namespace Flowchart.Script
open Flowchart.Text

section MarkFree
variable {c : Char} {cs text rest gap : List Char}

/-- No mark stands in the text. -/
def MarkFree (text : List Char) : Prop := ∀ tag, IsTag tag → ¬ tagged (tag, []) <:+: text

theorem tagged_append (tag text : List Char) : tagged (tag, text) = tagged (tag, []) ++ text := by
  simp [tagged]

theorem markFree_iff : MarkFree text ↔ ∀ cs ∈ text.tails, mark? cs = none := by
  constructor
  · intro free cs member
    refine Option.eq_none_iff_forall_ne_some.mpr ?_
    rintro ⟨tag, rest⟩ read
    obtain ⟨isTag, rfl⟩ := mark?_eq_some_iff.mp read
    refine free tag isTag (List.IsInfix.trans ?_ ((List.mem_tails _ _).mp member).isInfix)
    rw [tagged_append tag rest]
    exact (List.prefix_append _ _).isInfix
  · rintro none tag isTag ⟨before, behind, rfl⟩
    have part : tagged (tag, behind) <:+ before ++ tagged (tag, []) ++ behind := by
      rw [tagged_append tag behind, List.append_assoc]
      exact List.suffix_append _ _
    have read := none _ ((List.mem_tails _ _).mpr part)
    rw [mark?_eq_some_iff.mpr ⟨isTag, rfl⟩] at read
    cases read

instance (text : List Char) : Decidable (MarkFree text) := decidable_of_iff' _ markFree_iff

theorem markFree_cons : MarkFree (c :: cs) ↔ mark? (c :: cs) = none ∧ MarkFree cs := by
  rw [markFree_iff, markFree_iff, List.tails, List.forall_mem_cons]

/-- What comes next does not complete a mark. -/
def Separate (rest : List Char) : Prop := ∀ c ∈ rest.head?, isTagLetter c = false ∧ c ≠ ':'

theorem mark?_append (separate : Separate rest) (unmarked : mark? (c :: cs) = none) :
    mark? (c :: (cs ++ rest)) = none := by
  refine Option.eq_none_iff_forall_ne_some.mpr ?_
  rintro ⟨tag, behind⟩ read
  obtain ⟨isTag, whole⟩ := mark?_eq_some_iff.mp read
  obtain ⟨a, b, rfl, first, second⟩ := isTag_iff.mp isTag
  obtain ⟨rfl, split⟩ := List.cons.inj whole
  -- a mark that is not in the text reaches into what comes next
  have inside {d : Char} {later : List Char} (next : rest = d :: later) :
      isTagLetter d = false ∧ d ≠ ':' := separate d (by rw [next]; rfl)
  match cs with
  | [] =>
      exact absurd ((inside split).1.symm.trans first) Bool.false_ne_true
  | [_] =>
      have next := (List.cons.inj split).2
      exact absurd ((inside next).1.symm.trans second) Bool.false_ne_true
  | [_, _] =>
      have next := (List.cons.inj (List.cons.inj split).2).2
      exact (inside next).2 rfl
  | _ :: _ :: _ :: cs =>
      simp only [List.cons_append, List.nil_append, List.cons.injEq] at split
      obtain ⟨rfl, rfl, rfl, -⟩ := split
      simp [mark?, first, second] at unmarked

theorem MarkFree.append (free : MarkFree text) (next : MarkFree rest) (separate : Separate rest) :
    MarkFree (text ++ rest) := by
  induction text with
  | nil => exact next
  | cons c cs ih =>
      obtain ⟨none, later⟩ := markFree_cons.mp free
      exact markFree_cons.mpr ⟨mark?_append separate none, ih later⟩

/-- A text without marks is left together in front of what does not complete one. -/
theorem MarkFree.segments (free : MarkFree text) (separate : Separate rest) :
    segments (text ++ rest) = (text ++ (segments rest).1, (segments rest).2) := by
  induction text with
  | nil => rfl
  | cons c cs ih =>
      obtain ⟨none, later⟩ := markFree_cons.mp free
      rw [List.cons_append, segments_of_none (mark?_append separate none), ih later]
      rfl

theorem separate_of_isBlank (blank : isBlank c = true) : isTagLetter c = false ∧ c ≠ ':' := by
  have away : c.val.toNat ≤ 32 ∨ 133 ≤ c.val.toNat := by
    simp only [isBlank, Bool.or_eq_true, Bool.and_eq_true, decide_eq_true_eq, beq_iff_eq,
      UInt32.le_iff_toNat_le, ← UInt32.toNat_inj, UInt32.reduceToNat] at blank
    omega
  constructor
  · simp only [isTagLetter, Bool.and_eq_false_iff, decide_eq_false_iff_not, Char.le_def,
      UInt32.le_iff_toNat_le, Char.reduceVal, UInt32.reduceToNat]
    omega
  · rintro rfl
    exact absurd away (by decide)

/-- Blanks behind a text neither are a mark nor complete one. -/
theorem MarkFree.append_blank (free : MarkFree text) (blank : AllBlank gap) :
    MarkFree (text ++ gap) := by
  refine free.append ?_ ?_
  · rintro tag - part
    have star : '*' ∈ gap := part.subset List.mem_cons_self
    exact absurd (blank '*' star) (by decide)
  · exact fun c head => separate_of_isBlank (blank c (List.mem_of_mem_head? head))

theorem separate_flatMap_tagged (entries : List (List Char × List Char)) :
    Separate (entries.flatMap tagged) := by
  cases entries with
  | nil => exact nofun
  | cons entry entries =>
      rintro c head
      obtain rfl := Option.some.inj head
      exact ⟨rfl, by decide⟩

/-- Marked texts that have no mark in them are read one by one. -/
theorem segments_flatMap_tagged {entries : List (List Char × List Char)}
    (entry : ∀ e ∈ entries, IsTag e.1 ∧ MarkFree e.2) (free : MarkFree text) :
    segments (text ++ entries.flatMap tagged) = (text, entries) := by
  rw [free.segments (separate_flatMap_tagged entries)]
  induction entries generalizing text with
  | nil => simp [Script.segments]
  | cons e entries ih =>
      obtain ⟨⟨isTag, clear⟩, others⟩ := List.forall_mem_cons.mp entry
      have read : mark? (tagged e ++ entries.flatMap tagged) =
          some (e.1, e.2 ++ entries.flatMap tagged) :=
        mark?_eq_some_iff.mpr ⟨isTag, by simp [tagged]⟩
      rw [List.flatMap_cons, segments_of_mark read,
        clear.segments (separate_flatMap_tagged entries), ih others clear]
      simp

end MarkFree

section Fields

/-- A text that a field can be given without quotes. -/
structure Bare (text : List Char) : Prop where
  solid : Solid text
  unquoted : ∀ c ∈ text.head?, isQuote c = false
  markFree : MarkFree text

/-- Fields as they are written one after the other, each with blanks behind it. Others may stand
between them: fields that are not known, and fields that came before. -/
inductive Written : List Field → List (Field × List Char) → List (List Char × List Char) → Prop
  | nil {seen} : Written seen [] []
  | field {seen field text gap fields segments} : AllBlank gap →
      Written (field :: seen) fields segments →
      Written seen ((field, text) :: fields) ((field.tag.toList, text ++ gap) :: segments)
  | unknown {seen tag text fields segments} : IsTag tag →
      Field.ofTag? (String.ofList tag) = none → MarkFree text →
      Written seen fields segments → Written seen fields ((tag, text) :: segments)
  | again {seen field text fields segments} : field ∈ seen → MarkFree text →
      Written seen fields segments →
      Written seen fields ((field.tag.toList, text) :: segments)

variable {seen : List Field} {fields : List (Field × List Char)}
  {entries : List (List Char × List Char)} {labels : Labels}

theorem isTag_tag (field : Field) : IsTag field.tag.toList := by
  cases field <;> decide

theorem addLabel_unknown {tag : List Char} (unknown : Field.ofTag? (String.ofList tag) = none)
    (text : List Char) : addLabel labels (tag, text) = labels := by
  rw [addLabel, unknown]

theorem addLabel_again {field : Field} (taken : (labels.get? field).isSome = true)
    (text : List Char) : addLabel labels (field.tag.toList, text) = labels := by
  rw [addLabel, String.ofList_toList, Field.ofTag?_tag]
  simp [taken]

theorem addLabel_field {field : Field} {text gap : List Char} (free : labels.get? field = none)
    (bare : Bare text) (blank : AllBlank gap) :
    addLabel labels (field.tag.toList, text ++ gap) = labels.set field (String.ofList text) := by
  have framed : Framed [] [] gap := by
    constructor
    case mark_mem => exact List.mem_cons_self
    case front_eq => exact ⟨[], [], rfl, List.forall_mem_nil _, List.forall_mem_nil _⟩
    case back_eq => exact ⟨[], gap, rfl, List.forall_mem_nil _, blank⟩
  have read := labelText_quotable framed (.bare bare.unquoted) bare.solid
  rw [List.nil_append] at read
  rw [addLabel, String.ofList_toList, Field.ofTag?_tag]
  simp [free, read, bare.solid.ne_nil]

theorem Written.entry (written : Written seen fields entries) (bare : ∀ f ∈ fields, Bare f.2) :
    ∀ e ∈ entries, IsTag e.1 ∧ MarkFree e.2 := by
  induction written with
  | nil => exact List.forall_mem_nil _
  | field blank _ ih =>
      obtain ⟨first, others⟩ := List.forall_mem_cons.mp bare
      exact List.forall_mem_cons.mpr
        ⟨⟨isTag_tag _, first.markFree.append_blank blank⟩, ih others⟩
  | unknown isTag _ free _ ih => exact List.forall_mem_cons.mpr ⟨⟨isTag, free⟩, ih bare⟩
  | again _ free _ ih => exact List.forall_mem_cons.mpr ⟨⟨isTag_tag _, free⟩, ih bare⟩

/-- Every field is put in once, with its own text. -/
theorem Written.get?_foldl (written : Written seen fields entries)
    (bare : ∀ f ∈ fields, Bare f.2) (distinct : (fields.map Prod.fst).Nodup)
    (taken : ∀ field ∈ seen, (labels.get? field).isSome = true)
    (empty : ∀ f ∈ fields, labels.get? f.1 = none) (field : Field) (text : List Char) :
    (entries.foldl addLabel labels).get? field = some (String.ofList text) ↔
      labels.get? field = some (String.ofList text) ∨ (field, text) ∈ fields := by
  induction written generalizing labels with
  | nil => simp
  | @field seen first label gap fields entries blank _ ih =>
      obtain ⟨fits, others⟩ := List.forall_mem_cons.mp bare
      obtain ⟨free, rest⟩ := List.forall_mem_cons.mp empty
      obtain ⟨fresh, different⟩ := List.nodup_cons.mp distinct
      have later : ∀ f ∈ fields, f.1 ≠ first := by
        intro f member same
        exact fresh (List.mem_map.mpr ⟨f, member, same⟩)
      rw [List.foldl_cons, addLabel_field free fits blank, ih others different]
      case taken =>
        refine List.forall_mem_cons.mpr ⟨by simp [Labels.get?_set], ?_⟩
        intro other before
        rw [Labels.get?_set]
        split
        · rfl
        · exact taken other before
      case empty =>
        intro f member
        rw [Labels.get?_set, if_neg (later f member)]
        exact rest f member
      rw [Labels.get?_set, List.mem_cons, Prod.mk.injEq]
      by_cases same : field = first
      · subst same
        simp [free, String.ofList_inj, eq_comm (a := text)]
      · simp [same]
  | unknown _ unknown _ _ ih =>
      rw [List.foldl_cons, addLabel_unknown unknown]
      exact ih bare distinct taken empty
  | again before _ _ ih =>
      rw [List.foldl_cons, addLabel_again (taken _ before)]
      exact ih bare distinct taken empty

end Fields

/-- Fields are read back as they were written, in any order and with others between them that are
not known or came before. Where the marks are looked for among the bytes, whatever the content is,
each slice that is taken lies within it and consists of whole characters. -/
theorem readLabels_written {front : List Char} {fields : List (Field × List Char)}
    {entries : List (List Char × List Char)} (free : MarkFree front)
    (distinct : (fields.map Prod.fst).Nodup) (bare : ∀ f ∈ fields, Bare f.2)
    (written : Written [] fields entries) :
    (∀ field text, (readLabels (front ++ entries.flatMap tagged)).get? field =
        some (String.ofList text) ↔ (field, text) ∈ fields) ∧
      ∀ content,
        List.Forall₂ (SlicedOut content) (markSpans (bytes content)) (segments content).2 := by
  constructor
  · intro field text
    rw [readLabels, segments_flatMap_tagged (written.entry bare) free,
      written.get?_foldl bare distinct (List.forall_mem_nil _) fun f _ => by cases f.1 <;> rfl]
    have none : ({} : Labels).get? field = Option.none := by cases field <;> rfl
    simp [none]
  · exact slicedOut_segments

/-- A text with a star in it, a field that is not known, one that comes again, and an umlaut. -/
theorem readLabels_written_again :
    let fields : List (Field × List Char) :=
      [(.topLeft, "2*a:".toList), (.bottomRight, "süß".toList)]
    let entries : List (List Char × List Char) :=
      [("tl".toList, "2*a: ".toList), ("zz".toList, "?".toList), ("tl".toList, "'b' ".toList),
        ("br".toList, "süß".toList)]
    let content := " *tl:2*a: *zz:?*tl:'b' *br:süß".toList
    MarkFree [' '] ∧ (fields.map Prod.fst).Nodup ∧ (∀ f ∈ fields, Bare f.2) ∧
      Written [] fields entries ∧ (readLabels content).get? .topLeft = some "2*a:" ∧
      (readLabels content).get? .bottomRight = some "süß" ∧
      (readLabels content).get? .topRight = none ∧
      List.Forall₂ (SlicedOut content) [⟨1, 10⟩, ⟨10, 15⟩, ⟨15, 23⟩, ⟨23, 32⟩] entries := by
  intro fields entries content
  have free : MarkFree [' '] := by decide
  have distinct : (fields.map Prod.fst).Nodup := by decide
  have bare : ∀ f ∈ fields, Bare f.2 := by
    simp only [fields, List.forall_mem_cons]
    have first : Bare "2*a:".toList := ⟨by decide, by rintro _ ⟨⟩; rfl, by decide⟩
    have second : Bare "süß".toList := ⟨by decide, by rintro _ ⟨⟩; rfl, by decide⟩
    exact ⟨first, second, nofun⟩
  have last : Written [.topLeft] [(.bottomRight, "süß".toList)] [("br".toList, "süß".toList)] :=
    @Written.field _ .bottomRight "süß".toList [] _ _ (by decide) .nil
  have written : Written [] fields entries := by
    refine @Written.field _ .topLeft "2*a:".toList [' '] _ _ (by decide) ?_
    refine .unknown (by decide) (by decide) (by decide) ?_
    exact @Written.again _ .topLeft _ _ _ (by decide) (by decide) last
  obtain ⟨read, sliced⟩ := readLabels_written free distinct bare written
  refine ⟨free, distinct, bare, written, (read .topLeft _).mpr (by decide),
    (read .bottomRight _).mpr (by decide), ?_, ?_⟩
  · refine Option.eq_none_iff_forall_ne_some.mpr fun text found => ?_
    rw [← String.ofList_toList (s := text)] at found
    exact absurd ((read .topRight _).mp found) (by simp [fields])
  · have placed := sliced content
    rwa [show markSpans (bytes content) = [⟨1, 10⟩, ⟨10, 15⟩, ⟨15, 23⟩, ⟨23, 32⟩] by decide +kernel,
      show (segments content).2 = entries by decide +kernel] at placed

end Flowchart.Script
