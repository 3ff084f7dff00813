import Flowchart.Proofs.Script.Spelling
/-! Retracing a walk. Over lines that spell a renamed block exactly, the walk over the renamed lines
stands on the same blocks and makes the same connections, step by step. -/
namespace Flowchart.Script
open Flowchart.Text

/-- The lines behind the statement, up to a closing bracket, are members of its group. -/
def Statement.opensGroup : Statement → Bool
  | .group _ | .merge _ _ => true
  | .inlineBack _ _ _ | .back _ _ | .arrow _ | .visit _ | .unknown => false

theorem Statement.opensGroup_rename (f : List Char → List Char) (said : Statement) :
    (said.rename f).opensGroup = said.opensGroup := by
  cases said <;> rfl

/-- Every line outside of groups mentions a block in one of the exact ways, and a member of a group
is the token or does not mention it. -/
inductive SpelledLines (i : Nat) (old new : List Char) (before after : Registry) : List Line → Prop
  | nil : SpelledLines i old new before after []
  | line {l : Line} {ls : List Line} (spelled : Spelled i old new before after l.text)
      (simple : (statement before l.text).opensGroup = false)
      (rest : SpelledLines i old new before after ls) :
      SpelledLines i old new before after (l :: ls)
  | group {l : Line} {ls : List Line} (spelled : Spelled i old new before after l.text)
      (opens : (statement before l.text).opensGroup = true)
      (members : ∀ m ∈ (groupBody ls).1, m.text = old ∨ Clear old new m.text)
      (rest : SpelledLines i old new before after (groupBody ls).2) :
      SpelledLines i old new before after (l :: ls)

theorem texts_groupBody (ls : List Line) :
    texts (groupBody ls).1 = (texts ls).takeWhile (· != [']']) ∧
      texts (groupBody ls).2 = ((texts ls).dropWhile (· != [']'])).drop 1 := by
  constructor
  · rw [texts, texts, List.takeWhile_map]
    rfl
  · rw [texts, texts, List.dropWhile_map, ← List.map_drop]
    rfl

namespace Walk

theorem step_left (blocks : Registry) (w : Walk) (l : Line) (ls : List Line) :
    (w.step blocks l ls).2 =
      if (statement blocks l.text).opensGroup then (groupBody ls).2 else ls := by
  unfold step
  cases statement blocks l.text with
  | inlineBack source arrow target => rfl
  | back arrow target =>
      simp only [Statement.opensGroup]
      split <;> rfl
  | group arrow => rfl
  | merge reference arrow =>
      simp only [Statement.opensGroup]
      split <;> rfl
  | arrow arrow => rfl
  | visit block => rfl
  | unknown => rfl

/-- Two walks that differ in what they complain about at most. -/
structure Same (w v : Walk) : Prop where
  previous : w.previous = v.previous
  pending : w.pending = v.pending
  edges : w.edges = v.edges

section Same
variable {w v : Walk} (same : Same w v)
include same

theorem Same.warn (d e : Diagnostic) : Same (w.warn d) (v.warn e) :=
  ⟨same.previous, same.pending, same.edges⟩

theorem Same.warnUnless (p q : Bool) (d e : Diagnostic) :
    Same (if p then w else w.warn d) (if q then v else v.warn e) := by
  cases p <;> cases q <;> exact ⟨same.previous, same.pending, same.edges⟩

theorem Same.stand (previous : Option Nat) (pending : Option Arrow) :
    Same { w with previous, pending } { v with previous, pending } :=
  ⟨rfl, rfl, same.edges⟩

theorem Same.link (anchor other : Nat) (arrow : Arrow) (back : Bool) :
    Same (w.link anchor other arrow back) (v.link anchor other arrow back) := by
  rw [link_eq, link_eq, same.edges]
  split
  · exact same
  · exact ⟨same.previous, same.pending, rfl⟩

theorem Same.arrive (block : Nat) : Same (w.arrive block) (v.arrive block) := by
  unfold Walk.arrive
  rw [same.previous, same.pending]
  cases v.previous with
  | none => exact same.stand _ _
  | some previous =>
      cases v.pending with
      | none => exact same.stand _ _
      | some arrow => exact (same.link previous block arrow false).stand _ _

variable {before after : Registry} {l m : Line}

theorem Same.member (said : arrow? m.text = arrow? l.text)
    (named : after.resolve? m.text = before.resolve? l.text) (anchor : Option Nat) (group : Arrow)
    (label : Option String) :
    Same (member before anchor group (w, label) l).1 (member after anchor group (v, label) m).1 ∧
      (member before anchor group (w, label) l).2 = (member after anchor group (v, label) m).2 := by
  unfold Walk.member
  simp only [said, named]
  cases arrow? l.text with
  | some arrow => exact ⟨same, rfl⟩
  | none =>
      cases before.resolve? l.text with
      | none => exact ⟨same.warn _ _, rfl⟩
      | some block =>
          cases anchor with
          | none => exact ⟨same, rfl⟩
          | some anchor => exact ⟨same.link anchor block _ false, rfl⟩

end Same

section Renamed
variable {i : Nat} {old new : List Char} {before after : Registry}
  (renamed : Renamed i old new before after)
include renamed

theorem closing_replaceAll (line : List Char) : replaceAll old new line = [']'] ↔ line = [']'] := by
  have other {token : List Char} (shaped : Shaped token) : ∃ c ∈ token, c ≠ ']' := by
    obtain ⟨c, letter, head⟩ := shaped.head
    refine ⟨c, List.mem_of_head? head, ?_⟩
    rintro rfl
    revert letter
    decide
  by_cases occurs : old <:+: line
  · obtain ⟨c, oldMember, oldOther⟩ := other renamed.oldShaped
    obtain ⟨d, newMember, newOther⟩ := other renamed.newShaped
    constructor
    · intro closing
      have inside := mem_replaceAll renamed.oldShaped.ne_nil occurs newMember
      rw [closing] at inside
      exact absurd (List.mem_singleton.mp inside) newOther
    · rintro rfl
      exact absurd (List.mem_singleton.mp (occurs.mem oldMember)) oldOther
  · rw [replaceAll_eq_self occurs]

variable {ls ms : List Line}

theorem texts_groupBody_replaceAll (lines : texts ms = (texts ls).map (replaceAll old new)) :
    texts (groupBody ms).1 = (texts (groupBody ls).1).map (replaceAll old new) ∧
      texts (groupBody ms).2 = (texts (groupBody ls).2).map (replaceAll old new) := by
  have brackets : ((· != [']']) ∘ replaceAll old new) = fun line : List Char => line != [']'] := by
    funext line
    rw [Function.comp_apply, Bool.eq_iff_iff, bne_iff_ne, bne_iff_ne, ne_eq,
      closing_replaceAll renamed]
  rw [(texts_groupBody ms).1, (texts_groupBody ms).2, (texts_groupBody ls).1,
    (texts_groupBody ls).2, lines, List.takeWhile_map, List.dropWhile_map, brackets, List.map_drop]
  exact ⟨rfl, rfl⟩

/-- A member that is the token, or clear of it, is the same arrow or block afterwards. -/
theorem member_agrees {line : List Char} (spelled : line = old ∨ Clear old new line) :
    arrow? (replaceAll old new line) = arrow? line ∧
      after.resolve? (replaceAll old new line) = before.resolve? line := by
  rcases spelled with rfl | clear
  · rw [renamed.replaceAll_token, renamed.resolve?_new, renamed.resolve?_old,
      arrow?_eq_none (renamed.oldShaped.head?_ne (by decide)),
      arrow?_eq_none (renamed.newShaped.head?_ne (by decide))]
    exact ⟨rfl, rfl⟩
  · rw [clear.replaceAll_eq, renamed.resolve?_clear clear]
    exact ⟨rfl, rfl⟩

section Step
variable {w v : Walk} (same : Same w v)
include same

theorem Same.members (lines : texts ms = (texts ls).map (replaceAll old new))
    (spelled : ∀ m ∈ ls, m.text = old ∨ Clear old new m.text) (anchor : Option Nat) (group : Arrow)
    (label : Option String) :
    Same (ls.foldl (Walk.member before anchor group) (w, label)).1
      (ms.foldl (Walk.member after anchor group) (v, label)).1 := by
  induction ls generalizing ms w v label with
  | nil =>
      obtain rfl := List.map_eq_nil_iff.mp lines
      exact same
  | cons l ls ih =>
      obtain ⟨m, ms, rfl, text, rest⟩ := List.map_eq_cons_iff.mp lines
      obtain ⟨here, later⟩ := List.forall_mem_cons.mp spelled
      have agrees := member_agrees renamed here
      rw [← text] at agrees
      obtain ⟨next, labels⟩ := same.member agrees.1 agrees.2 anchor group label
      have done := ih next rest later (Walk.member before anchor group (w, label) l).2
      rw [List.foldl_cons, List.foldl_cons]
      conv at done => rhs; rw [labels]
      exact done

theorem Same.group (lines : texts ms = (texts ls).map (replaceAll old new))
    (spelled : ∀ m ∈ (groupBody ls).1, m.text = old ∨ Clear old new m.text) (anchor : Option Nat)
    (arrow : Arrow) (l m : Line) :
    Same (w.group before anchor arrow l ls) (v.group after anchor arrow m ms) := by
  unfold Walk.group
  exact (same.warnUnless _ _ _ _).members renamed (texts_groupBody_replaceAll renamed lines).1
    spelled anchor arrow none

theorem Same.step {l m : Line} (text : m.text = replaceAll old new l.text)
    (lines : texts ms = (texts ls).map (replaceAll old new))
    (agrees : Agrees old new before after l.text)
    (spelled : (statement before l.text).opensGroup = true →
      ∀ k ∈ (groupBody ls).1, k.text = old ∨ Clear old new k.text) :
    Same (w.step before l ls).1 (v.step after m ms).1 := by
  obtain ⟨said, named⟩ := agrees
  unfold Walk.step
  rw [text, said]
  generalize statement before l.text = told at named spelled ⊢
  cases told with
  | inlineBack source arrow target =>
      have arrived := same.arrive source
      simp only [Statement.rename, named target rfl]
      cases before.resolve? target with
      | some block => exact ⟨rfl, (arrived.link source block arrow true).pending,
          (arrived.link source block arrow true).edges⟩
      | none => exact ⟨rfl, arrived.pending, arrived.edges⟩
  | back arrow target =>
      have left := same.stand none none
      simp only [Statement.rename, named target rfl, same.previous]
      cases v.previous with
      | none => exact left.warn _ _
      | some source =>
          cases before.resolve? target with
          | some block => exact left.link source block arrow true
          | none => exact left.warn _ _
  | group arrow =>
      simp only [Statement.rename, same.previous]
      refine Same.group renamed ?_ lines (spelled rfl) v.previous arrow l m
      cases v.previous with
      | none => exact same.warn _ _
      | some source => exact same
  | merge reference arrow =>
      simp only [Statement.rename, named reference rfl, same.previous]
      cases before.resolve? reference with
      | some anchor =>
          exact (same.arrive anchor).group renamed lines (spelled rfl) (some anchor) arrow l m
      | none => exact (same.warn _ _).group renamed lines (spelled rfl) v.previous arrow l m
  | arrow arrow => exact ⟨same.previous, rfl, same.edges⟩
  | visit block => exact same.arrive block
  | unknown => exact same.warn _ _

end Step

/-- Over lines that spell the token exactly, the walks stay the same. -/
theorem Same.run {w v : Walk} (lines : texts ms = (texts ls).map (replaceAll old new))
    (spelled : SpelledLines i old new before after ls) (same : Same w v) :
    Same (w.run before ls) (v.run after ms) := by
  induction spelled generalizing w v ms with
  | nil =>
      obtain rfl := List.map_eq_nil_iff.mp lines
      rw [Walk.run, Walk.run]
      exact same
  | line spelled simple rest ih =>
      obtain ⟨m, ms, rfl, text, others⟩ := List.map_eq_cons_iff.mp lines
      have agrees := renamed.agrees spelled
      have next := same.step renamed text others agrees (by simp [simple])
      rw [Walk.run, Walk.run, step_left, step_left, text, agrees.said, Statement.opensGroup_rename,
        simple]
      exact ih others next
  | group spelled opens members rest ih =>
      obtain ⟨m, ms, rfl, text, others⟩ := List.map_eq_cons_iff.mp lines
      have agrees := renamed.agrees spelled
      have next := same.step renamed text others agrees fun _ => members
      rw [Walk.run, Walk.run, step_left, step_left, text, agrees.said, Statement.opensGroup_rename,
        opens]
      exact ih (texts_groupBody_replaceAll renamed others).2 next

end Renamed

end Walk
end Flowchart.Script
