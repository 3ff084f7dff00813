import Flowchart.Proofs.Script.MergeLine
/-! Instructions: what the structure of a script can say when all that it names is declared. An
instruction is written as a statement in canonical form, and its meaning is told over the block
that it finds and the arrow that leaves it. -/
namespace Flowchart.Script
open Flowchart.Text
open Walk (edgeOf)

/-- How the blocks are named in a script. -/
abbrev Registry.tokens (blocks : Registry) : List String := blocks.map (·.token)

def tokenText (tokens : List String) (i : Nat) : List Char := (tokens.getD i "").toList

/-- A block in a group, perhaps under an arrow of its own. -/
structure Member where
  own : Option Arrow := none
  block : Nat

/-- Blocks are named by their places. What follows a block on its line stands behind a gap. -/
inductive Instruction where
  | visit (block : Nat)
  | arrow (arrow : Arrow)
  | back (arrow : Arrow) (target : Nat)
  | inlineBack (source : Nat) (gap : List Char) (arrow : Arrow) (target : Nat)
  | branch (arrow : Arrow) (members : List Member)
  | merge (anchor : Nat) (gap : List Char) (arrow : Arrow) (members : List Member)

section Meaning

/-- The block that was named last, and the arrow that waits for the next one. -/
structure Cursor where
  previous : Option Nat := none
  pending : Option Arrow := none

/-- The connection that is complete with this block. -/
def Cursor.completed (c : Cursor) (block : Nat) : List Edge :=
  match c.previous, c.pending with
  | some previous, some arrow => [edgeOf previous block arrow false]
  | _, _ => []

/-- A member has its own label, or else that of its group; the direction is that of the group. -/
def Member.edge (anchor : Nat) (group : Arrow) (m : Member) : Edge :=
  edgeOf anchor m.block ⟨(m.own.bind (·.label)).or group.label, group.direction⟩ false

/-- Without an anchor a group makes no connections. -/
def membersMade (anchor : Option Nat) (group : Arrow) (members : List Member) : List Edge :=
  match anchor with
  | some anchor => members.map (·.edge anchor group)
  | none => []

namespace Instruction

/-- Where an instruction leads. -/
@[simp]
def next (c : Cursor) : Instruction → Cursor
  | .visit block => { previous := some block }
  | .arrow a => { c with pending := some a }
  | .back _ _ => {}
  | .inlineBack _ _ _ _ => {}
  | .branch _ _ => c
  | .merge anchor _ _ _ => { previous := some anchor }

/-- The connections that an instruction makes, in order. -/
@[simp]
def made (c : Cursor) : Instruction → List Edge
  | .visit block => c.completed block
  | .arrow _ => []
  | .back a target =>
    match c.previous with
    | some source => [edgeOf source target a true]
    | none => []
  | .inlineBack source _ a target => c.completed source ++ [edgeOf source target a true]
  | .branch a members => membersMade c.previous a members
  | .merge anchor _ a members => c.completed anchor ++ membersMade (some anchor) a members

/-- A back-reference or a group needs a block to start from. -/
@[simp]
def sourceless (c : Cursor) : Instruction → Bool
  | .back _ _ | .branch _ _ => c.previous.isNone
  | .visit _ | .arrow _ | .inlineBack _ _ _ _ | .merge _ _ _ _ => false

/-- What there is to complain about, for an instruction with this first line. -/
def complaints (c : Cursor) (i : Instruction) (span : Span) : List Diagnostic :=
  if i.sourceless c then [.missingSource span] else []

end Instruction

/-- Where instructions lead one after the other. -/
def leadsTo : Cursor → List Instruction → Cursor
  | c, [] => c
  | c, i :: program => leadsTo (i.next c) program

/-- The connections that instructions make one after the other, the same one perhaps repeatedly. -/
def madeBy : Cursor → List Instruction → List Edge
  | _, [] => []
  | c, i :: program => i.made c ++ madeBy (i.next c) program

end Meaning

section Text
variable (tokens : List String)

def Member.lines (m : Member) : List (List Char) :=
  (m.own.map (·.text)).toList ++ [tokenText tokens m.block]

namespace Instruction

/-- The line that tells the form of an instruction. -/
def head : Instruction → List Char
  | .visit block => tokenText tokens block
  | .arrow a => a.text
  | .back a target => a.text ++ '!' :: tokenText tokens target
  | .inlineBack source gap a target =>
    tokenText tokens source ++ (gap ++ (a.text ++ '!' :: tokenText tokens target))
  | .branch a _ => a.opening
  | .merge anchor gap a _ => tokenText tokens anchor ++ (gap ++ a.opening)

/-- The members of a group, and the bracket that closes it. -/
def body : Instruction → List (List Char)
  | .branch _ members | .merge _ _ _ members => members.flatMap (·.lines tokens) ++ [[']']]
  | .visit _ | .arrow _ | .back _ _ | .inlineBack _ _ _ _ => []

def lines (i : Instruction) : List (List Char) := i.head tokens :: i.body tokens

end Instruction

/-- What there is to complain about in a program that is written from an offset on. -/
def complaintsAbout : (start : Nat) → Cursor → List Instruction → List Diagnostic
  | _, _, [] => []
  | start, c, i :: program =>
    i.complaints c ⟨start, start + byteSize (i.head tokens)⟩ ++
      complaintsAbout (start + byteSize (joinLines (i.lines tokens))) (i.next c) program

end Text

section Writable

/-- A label that can be written between stars on a line. -/
structure LineLabel (label : Option String) : Prop where
  clean : CleanLabel label
  whole : ∀ text ∈ label, '\n' ∉ text.toList

/-- A label without what would make its arrow a back-reference. -/
def Unmarked (label : Option String) : Prop := ∀ text ∈ label, '!' ∉ text.toList

instance (label : Option String) : Decidable (Unmarked label) :=
  inferInstanceAs (Decidable (∀ text ∈ label, '!' ∉ text.toList))

structure Gap (gap : List Char) : Prop where
  blank : AllBlank gap
  whole : '\n' ∉ gap

structure Member.Writable (blocks : Registry) (m : Member) : Prop where
  inside : m.block < blocks.length
  own : ∀ arrow ∈ m.own, LineLabel arrow.label

/-- Instructions that are read as they are written: they name declared blocks, their labels can be
written, and no token runs on into what follows it on its line. -/
inductive Instruction.Writable (blocks : Registry) : Instruction → Prop
  | visit {block : Nat} (inside : block < blocks.length) : Writable blocks (.visit block)
  | arrow {arrow : Arrow} (label : LineLabel arrow.label) (unmarked : Unmarked arrow.label) :
      Writable blocks (.arrow arrow)
  | back {arrow : Arrow} {target : Nat} (label : LineLabel arrow.label)
      (unmarked : Unmarked arrow.label) (inside : target < blocks.length) :
      Writable blocks (.back arrow target)
  | inlineBack {source target : Nat} {gap : List Char} {arrow : Arrow} (spaced : Gap gap)
      (label : LineLabel arrow.label) (unmarked : Unmarked arrow.label)
      (start : source < blocks.length) (inside : target < blocks.length)
      (alone : Alone blocks (tokenText blocks.tokens source)
        (gap ++ (arrow.text ++ '!' :: tokenText blocks.tokens target))) :
      Writable blocks (.inlineBack source gap arrow target)
  | branch {arrow : Arrow} {members : List Member} (label : LineLabel arrow.label)
      (writable : ∀ m ∈ members, m.Writable blocks) : Writable blocks (.branch arrow members)
  | merge {anchor : Nat} {gap : List Char} {arrow : Arrow} {members : List Member}
      (spaced : Gap gap) (label : LineLabel arrow.label)
      (writable : ∀ m ∈ members, m.Writable blocks) (inside : anchor < blocks.length)
      (starless : ¬ ['m', 'a', '*'] <:+: tokenText blocks.tokens anchor)
      (alone : Alone blocks (tokenText blocks.tokens anchor) (gap ++ arrow.opening)) :
      Writable blocks (.merge anchor gap arrow members)

end Writable

section Reading

/-- What the first line of an instruction says. -/
@[simp]
def Instruction.statement (tokens : List String) : Instruction → Statement
  | .visit block => .visit block
  | .arrow a => .arrow a
  | .back a target => .back a (tokenText tokens target)
  | .inlineBack source _ a target => .inlineBack source a (tokenText tokens target)
  | .branch a _ => .group a
  | .merge anchor _ a _ => .merge (tokenText tokens anchor) a

variable {blocks : Registry}

theorem exists_name {block : Nat} (inside : block < blocks.length) : ∃ b, blocks[block]? = some b ∧
    tokenText blocks.tokens block = b.token.toList := by
  refine ⟨blocks[block], List.getElem?_eq_getElem inside, ?_⟩
  rw [tokenText, List.getD_eq_getElem?_getD, List.getElem?_map, List.getElem?_eq_getElem inside]
  rfl

variable (sound : blocks.Sound)
include sound

theorem shaped_name {block : Nat} (inside : block < blocks.length) :
    Shaped (tokenText blocks.tokens block) := by
  obtain ⟨b, present, text⟩ := exists_name inside
  exact text ▸ sound.shaped (List.mem_of_getElem? present)

theorem resolve?_name {block : Nat} (inside : block < blocks.length) :
    blocks.resolve? (tokenText blocks.tokens block) = some block := by
  obtain ⟨b, present, text⟩ := exists_name inside
  exact Registry.resolve?_of_key sound.distinct present (by rw [text, key])

theorem statement_head {i : Instruction} (writable : i.Writable blocks) :
    statement blocks (i.head blocks.tokens) = i.statement blocks.tokens := by
  cases writable with
  | visit inside =>
      obtain ⟨b, present, text⟩ := exists_name inside
      exact statement_token sound present (shaped_name sound inside)
        (by rw [Instruction.head, text, key])
  | arrow label unmarked => exact statement_text sound label.clean unmarked
  | back label unmarked inside =>
      exact statement_back sound label.clean unmarked (shaped_name sound inside)
  | inlineBack spaced label unmarked start inside alone =>
      obtain ⟨b, present, text⟩ := exists_name start
      have read := arrow?_text label.clean
      have plain := Arrow.not_mem_text (c := '!') (by decide) unmarked
      rw [text] at alone
      have shaped := shaped_name sound inside
      rw [Instruction.head, text]
      exact statement_reference read plain sound present shaped spaced.blank alone
  | branch label members => exact statement_opening sound label.clean
  | merge spaced label members inside starless alone =>
      obtain ⟨b, present, text⟩ := exists_name inside
      rw [text] at starless alone
      rw [Instruction.head, Instruction.statement, text]
      exact statement_merge sound present starless spaced.blank label.clean alone

variable (whole : ∀ b ∈ blocks, '\n' ∉ b.token.toList)
include whole

theorem name_written {block : Nat} (inside : block < blocks.length) :
    Solid (tokenText blocks.tokens block) ∧
      '\n' ∉ tokenText blocks.tokens block := by
  refine ⟨(shaped_name sound inside).solid, ?_⟩
  obtain ⟨b, present, text⟩ := exists_name inside
  rw [text]
  exact whole b (List.mem_of_getElem? present)

theorem Member.Writable.lines_written {m : Member} (writable : m.Writable blocks) :
    ∀ l ∈ m.lines blocks.tokens, Solid l ∧ '\n' ∉ l := by
  intro l member
  rcases List.mem_append.mp member with own | name
  · obtain ⟨arrow, present, rfl⟩ := Option.map_eq_some_iff.mp (Option.mem_toList.mp own)
    exact ⟨arrow.solid_text, Arrow.not_mem_text (by decide) (writable.own arrow present).whole⟩
  · rw [List.mem_singleton.mp name]
    exact name_written sound whole writable.inside

/-- Instructions stand on lines of their own. -/
theorem Instruction.Writable.lines_written {i : Instruction} (writable : i.Writable blocks) :
    ∀ l ∈ i.lines blocks.tokens, Solid l ∧ '\n' ∉ l := by
  have text {a : Arrow} (label : LineLabel a.label) : '\n' ∉ a.text :=
    Arrow.not_mem_text (by decide) label.whole
  have opening {a : Arrow} (label : LineLabel a.label) : '\n' ∉ a.opening :=
    Arrow.not_mem_opening (by decide) label.whole
  have group {members : List Member} (writable : ∀ m ∈ members, m.Writable blocks) :
      ∀ l ∈ members.flatMap (·.lines blocks.tokens) ++ [[']']],
        Solid l ∧ '\n' ∉ l := by
    intro l member
    rcases List.mem_append.mp member with named | closing
    · obtain ⟨m, inside, here⟩ := List.mem_flatMap.mp named
      exact (writable m inside).lines_written sound whole l here
    · rw [List.mem_singleton.mp closing]
      exact ⟨⟨by decide, by decide⟩, by decide⟩
  rw [Instruction.lines, List.forall_mem_cons]
  cases writable with
  | visit inside => exact ⟨name_written sound whole inside, List.forall_mem_nil _⟩
  | arrow label unmarked => exact ⟨⟨Arrow.solid_text, text label⟩, List.forall_mem_nil _⟩
  | back label unmarked inside =>
      refine ⟨⟨Arrow.solid_reference (shaped_name sound inside), ?_⟩, List.forall_mem_nil _⟩
      simp [Instruction.head, text label, (name_written sound whole inside).2]
  | inlineBack spaced label unmarked start inside alone =>
      have source := name_written sound whole start
      refine ⟨⟨source.1.append _ (Arrow.solid_reference (shaped_name sound inside)), ?_⟩,
        List.forall_mem_nil _⟩
      simp [Instruction.head, source.2, spaced.whole, text label,
        (name_written sound whole inside).2]
  | branch label writable => exact ⟨⟨Arrow.solid_opening, opening label⟩, group writable⟩
  | merge spaced label writable inside starless alone =>
      have anchor := name_written sound whole inside
      refine ⟨⟨anchor.1.append _ Arrow.solid_opening, ?_⟩, group writable⟩
      simp [Instruction.head, anchor.2, spaced.whole, opening label]

end Reading

end Flowchart.Script
