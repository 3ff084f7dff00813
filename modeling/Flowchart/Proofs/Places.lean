import Flowchart.Proofs.Scene
/-! Blocks that are moved and moved back. A block that is moved twice is where the last move put it.
Places are compared as the library compares them, so two diagrams match if their blocks differ only
in places that count as equal. -/
namespace Flowchart
open Relation (ReflTransGen)

section Change
variable {α : Type} {id : Nat} {change : Node α → Node α} {m n : Node α} {nodes : List (Node α)}

/-- Change the first block with a number. -/
def changeFirst (id : Nat) (change : Node α → Node α) : List (Node α) → List (Node α)
  | [] => []
  | n :: nodes => if n.id = id then change n :: nodes else n :: changeFirst id change nodes

theorem Diagram.updateNode_eq (d : Diagram α) (id : Nat) (change : Node α → Node α) :
    d.updateNode id change = ⟨changeFirst id change d.nodes, d.edges⟩ := by
  obtain ⟨nodes, edges⟩ := d
  have same : (updateNode ⟨nodes, edges⟩ id change).nodes = changeFirst id change nodes := by
    induction nodes with
    | nil => rfl
    | cons n nodes ih =>
        rw [changeFirst, ← ih]
        by_cases named : n.id = id
        · simp [updateNode, List.findIdx?_cons, named]
        · cases found : nodes.findIdx? (·.id == id) <;>
            simp [updateNode, List.findIdx?_cons, named, found]
  rw [← same]
  exact congrArg (mk _) (edges_updateNode _ id change)

theorem changeFirst_changeFirst {first : Node α → Node α} (keeps : ∀ n, (first n).id = n.id)
    (nodes : List (Node α)) :
    changeFirst id change (changeFirst id first nodes) = changeFirst id (change ∘ first) nodes := by
  induction nodes with
  | nil => rfl
  | cons n nodes ih =>
      by_cases named : n.id = id
      · simp only [changeFirst, if_pos named, if_pos ((keeps n).trans named), Function.comp_apply]
      · simp only [changeFirst, if_neg named, ih]

/-- Where the change relates the one block to itself changed, it does so for all blocks. -/
theorem forall₂_changeFirst {R : Node α → Node α → Prop} (refl : ∀ n, R n n)
    (changed : ∀ n, nodes.find? (·.id == id) = some n → R n (change n)) :
    List.Forall₂ R nodes (changeFirst id change nodes) := by
  induction nodes with
  | nil => exact .nil
  | cons n nodes ih =>
      by_cases named : n.id = id
      · rw [changeFirst, if_pos named]
        refine .cons (changed n ?_) (List.forall₂_same.mpr fun n _ => refl n)
        exact List.find?_cons_of_pos (beq_iff_eq.mpr named)
      · rw [changeFirst, if_neg named]
        refine .cons (refl n) (ih fun m found => changed m ?_)
        rwa [List.find?_cons_of_neg (by simpa using named)]

theorem mem_changeFirst (member : m ∈ changeFirst id change nodes) :
    m ∈ nodes ∨ ∃ n, nodes.find? (·.id == id) = some n ∧ m = change n := by
  induction nodes with
  | nil => exact .inl member
  | cons k nodes ih =>
      by_cases named : k.id = id
      · rw [changeFirst, if_pos named] at member
        rcases List.mem_cons.mp member with here | later
        · exact .inr ⟨k, List.find?_cons_of_pos (by simpa using named), here⟩
        · exact .inl (List.mem_cons_of_mem k later)
      · rw [changeFirst, if_neg named] at member
        rw [List.find?_cons_of_neg (by simpa using named)]
        rcases List.mem_cons.mp member with rfl | later
        · exact .inl List.mem_cons_self
        · exact (ih later).imp_left (List.mem_cons_of_mem k)

theorem changed_mem_changeFirst (found : nodes.find? (·.id == id) = some n) :
    change n ∈ changeFirst id change nodes := by
  induction nodes with
  | nil => cases found
  | cons k nodes ih =>
      by_cases named : k.id = id
      · rw [List.find?_cons_of_pos (by simpa using named)] at found
        obtain rfl := Option.some.inj found
        rw [changeFirst, if_pos named]
        exact List.mem_cons_self
      · rw [List.find?_cons_of_neg (by simpa using named)] at found
        rw [changeFirst, if_neg named]
        exact List.mem_cons_of_mem k (ih found)

end Change

section Matches
variable {α : Type} [Scalar α]

/-- Equal as far as comparing shows. Numbers that are equal are alike, and so are the zeros of both
signs. -/
def Alike : α → α → Prop := ReflTransGen fun a b => (a == b) = true

theorem Alike.eq [LawfulBEq α] {a b : α} (alike : Alike a b) : a = b := by
  induction alike with
  | refl => rfl
  | tail _ same ih => exact ih.trans (eq_of_beq same)

/-- The same block at a place that counts as equal. -/
structure Node.Matches (m n : Node α) : Prop where
  moved : m = n.moveTo m.box.x m.box.y
  x : Alike m.box.x n.box.x
  y : Alike m.box.y n.box.y

namespace Node.Matches
variable {l m n : Node α}

theorem refl (n : Node α) : n.Matches n := ⟨rfl, .refl, .refl⟩

theorem trans (first : l.Matches m) (second : m.Matches n) : l.Matches n where
  moved := by
    conv_lhs => rw [first.moved, second.moved]
    rfl
  x := first.x.trans second.x
  y := first.y.trans second.y

theorem id_eq (alike : m.Matches n) : m.id = n.id := congrArg (·.id) alike.moved

theorem moveTo (alike : m.Matches n) (x y : α) : (m.moveTo x y).Matches (n.moveTo x y) where
  moved := congrArg (fun n => n.moveTo x y) alike.moved
  x := .refl
  y := .refl

theorem eq [LawfulBEq α] (alike : m.Matches n) : m = n := by
  rw [alike.moved, alike.x.eq, alike.y.eq]
  rfl

end Node.Matches

/-- The same connections, and the same blocks at places that count as equal. -/
structure Diagram.Matches (d first : Diagram α) : Prop where
  nodes : List.Forall₂ Node.Matches d.nodes first.nodes
  edges : d.edges = first.edges

namespace Diagram.Matches
variable {d middle first : Diagram α}

theorem refl (d : Diagram α) : d.Matches d :=
  ⟨List.forall₂_same.mpr fun n _ => .refl n, rfl⟩

theorem trans (left : d.Matches middle) (right : middle.Matches first) : d.Matches first where
  nodes := by
    have all : ∀ {ls ms ns : List (Node α)}, List.Forall₂ Node.Matches ls ms →
        List.Forall₂ Node.Matches ms ns → List.Forall₂ Node.Matches ls ns := by
      intro ls ms ns left
      induction left generalizing ns with
      | nil => exact id
      | cons before _ ih =>
          rintro (_ | ⟨after, rest⟩)
          exact .cons (before.trans after) (ih rest)
    exact all left.nodes right.nodes
  edges := left.edges.trans right.edges

theorem updateNode (alike : d.Matches first) (id : Nat) (x y : α) :
    (d.updateNode id fun n => n.moveTo x y).Matches
      (first.updateNode id fun n => n.moveTo x y) := by
  rw [updateNode_eq, updateNode_eq]
  refine ⟨?_, alike.edges⟩
  have nodes := alike.nodes
  generalize d.nodes = ms, first.nodes = ns at nodes ⊢
  induction nodes with
  | nil => exact .nil
  | @cons m n ms ns same rest ih =>
      by_cases named : m.id = id
      · rw [changeFirst, if_pos named, changeFirst, if_pos (same.id_eq ▸ named)]
        exact .cons (same.moveTo x y) rest
      · rw [changeFirst, if_neg named, changeFirst, if_neg (same.id_eq ▸ named)]
        exact .cons same ih

theorem eq [LawfulBEq α] (alike : d.Matches first) : d = first := by
  have nodes : d.nodes = first.nodes := by
    refine List.forall₂_eq_eq_eq ▸ alike.nodes.imp ?_
    exact fun _ _ same => same.eq
  obtain ⟨dNodes, dEdges⟩ := d
  exact congrArg₂ Diagram.mk nodes alike.edges

end Diagram.Matches
end Matches

namespace Diagram

variable {α : Type} {d : Diagram α} {id : Nat}

/-- Of two moves the last one counts. -/
theorem updateNode_moveTo_moveTo (d : Diagram α) (id : Nat) (p q x y : α) :
    (d.updateNode id fun n => n.moveTo p q).updateNode id (fun n => n.moveTo x y) =
      d.updateNode id fun n => n.moveTo x y := by
  have keeps : ∀ n : Node α, (n.moveTo p q).id = n.id := fun _ => rfl
  simp only [updateNode_eq]
  exact congrArg (mk · d.edges) (changeFirst_changeFirst keeps d.nodes)

theorem updateNode_moveTo_self {n : Node α} (found : d.node? id = some n) :
    (d.updateNode id fun m => m.moveTo n.box.x n.box.y) = d := by
  rw [updateNode_eq]
  have same : changeFirst id (fun m => m.moveTo n.box.x n.box.y) d.nodes = d.nodes := by
    refine (List.forall₂_eq_eq_eq ▸ forall₂_changeFirst (fun _ => rfl) ?_).symm
    intro m other
    obtain rfl := Option.some.inj (found.symm.trans other)
    rfl
  rw [same]

variable [Scalar α]

theorem matches_updateNode {x y : α} (alike : ∀ n, d.node? id = some n →
    (n.box.x == x) = true ∧ (n.box.y == y) = true) :
    d.Matches (d.updateNode id fun n => n.moveTo x y) := by
  rw [updateNode_eq]
  refine ⟨forall₂_changeFirst .refl ?_, rfl⟩
  intro n found
  obtain ⟨sameX, sameY⟩ := alike n found
  exact ⟨rfl, .single sameX, .single sameY⟩

end Diagram

section Equal
variable {α : Type} [Scalar α]

theorem Node.matches_of_beq {m n : Node α} (same : (m == n) = true)
    (moved : m = n.moveTo m.box.x m.box.y) : m.Matches n := by
  have fields : instBEqNode.beq m n = true := same
  simp only [instBEqNode.beq, Bool.and_eq_true] at fields
  have box : instBEqBox.beq m.box n.box = true := fields.2.2.1
  simp only [instBEqBox.beq, Bool.and_eq_true] at box
  exact ⟨moved, .single box.1, .single box.2.1⟩

/-- An arrangement that counts as equal to what was arranged matches it. -/
theorem Layout.matches_of_beq {config : Config α} {d : Diagram α} {a : Arrangement α}
    (arranged : arrange config d = .ok a) (same : (a.diagram == d) = true) :
    a.diagram.Matches d := by
  have fields : instBEqDiagram.beq a.diagram d = true := same
  simp only [instBEqDiagram.beq, Bool.and_eq_true] at fields
  refine ⟨?_, eq_of_beq fields.2⟩
  have moved := forall₂_moveTo (arrange_moves arranged).1
  have nodes := fields.1
  generalize d.nodes = ms, a.diagram.nodes = ns at moved nodes ⊢
  induction moved with
  | nil => exact .nil
  | cons moved _ ih =>
      rw [List.cons_beq_cons, Bool.and_eq_true] at nodes
      exact .cons (Node.matches_of_beq nodes.1 moved) (ih nodes.2)

end Equal
end Flowchart
