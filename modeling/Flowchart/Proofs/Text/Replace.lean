import Flowchart.Text.Replace
import Flowchart.Proofs.Text.Blank
/-! Replacing. A text without the old part stays as it is, and replacing works piece by piece where
no place of the old part lies across the border of two pieces. -/
namespace Flowchart.Text

variable {old new front back cs : List Char}

/-- The old part never begins in `front` and ends in `back`. -/
def Uncut (old front back : List Char) : Prop :=
  ∀ p q, front = p ++ q → q ≠ [] → old <+: q ++ back → old <+: q

theorem Uncut.tail {c : Char} (uncut : Uncut old (c :: front) back) : Uncut old front back := by
  intro p q split
  exact uncut (c :: p) q (by rw [split]; rfl)

/-- No beginning of `back` is an end of the old part. -/
theorem uncut_of_apart (apart : ∀ r, r ≠ [] → r <+: back → ¬ r <:+ old) : Uncut old front back := by
  intro p q _ _ begins
  rcases List.prefix_or_prefix_of_prefix begins (List.prefix_append q back) with inside | across
  · exact inside
  · obtain ⟨r, rfl⟩ := across
    by_cases empty : r = []
    · exact ⟨[], by rw [empty, List.append_nil, List.append_nil]⟩
    · have behind : r <+: back := (List.prefix_append_right_inj q).mp begins
      exact absurd (List.suffix_append q r) (apart r empty behind)

theorem replaceFrom_append (uncut : Uncut old front back) {skip : Nat}
    (inside : skip ≤ front.length) :
    replaceFrom old new skip (front ++ back) =
      replaceFrom old new skip front ++ replaceAll old new back := by
  induction front generalizing skip with
  | nil =>
      obtain rfl := Nat.le_zero.mp inside
      rw [replaceFrom]
      rfl
  | cons c front ih =>
      cases skip with
      | succ skip =>
          rw [List.cons_append, replaceFrom, replaceFrom]
          exact ih uncut.tail (Nat.le_of_succ_le_succ inside)
      | zero =>
          rw [List.cons_append, replaceFrom, replaceFrom]
          by_cases begins : old <+: c :: front
          · have long := begins.length_le
            rw [List.length_cons] at long
            have across : old <+: c :: (front ++ back) :=
              begins.trans (List.prefix_append (c :: front) back)
            rw [if_pos (List.isPrefixOf_iff_prefix.mpr begins),
              if_pos (List.isPrefixOf_iff_prefix.mpr across), ih uncut.tail (by omega),
              List.append_assoc]
          · have nowhere : ¬ old <+: c :: (front ++ back) :=
              fun across => begins (uncut [] (c :: front) rfl (List.cons_ne_nil c front) across)
            rw [if_neg (mt List.isPrefixOf_iff_prefix.mp begins),
              if_neg (mt List.isPrefixOf_iff_prefix.mp nowhere), ih uncut.tail (Nat.zero_le _)]
            rfl

theorem replaceAll_append (uncut : Uncut old front back) :
    replaceAll old new (front ++ back) = replaceAll old new front ++ replaceAll old new back :=
  replaceFrom_append uncut (Nat.zero_le _)

theorem replaceAll_eq_self (absent : ¬ old <:+: cs) : replaceAll old new cs = cs := by
  induction cs with
  | nil => rfl
  | cons c cs ih =>
      rw [replaceAll, replaceFrom, if_neg]
      · rw [← replaceAll, ih fun inside => absent (inside.trans (List.suffix_cons c cs).isInfix)]
      · exact fun begins => absent (List.isPrefixOf_iff_prefix.mp begins).isInfix

theorem replaceFrom_length (front cs : List Char) :
    replaceFrom old new front.length (front ++ cs) = replaceAll old new cs := by
  induction front with
  | nil => rfl
  | cons c front ih => exact ih

/-- The old part at the beginning is replaced first. -/
theorem replaceAll_front (solid : old ≠ []) (cs : List Char) :
    replaceAll old new (old ++ cs) = new ++ replaceAll old new cs := by
  cases old with
  | nil => exact absurd rfl solid
  | cons c rest =>
      have begins : c :: rest <+: c :: (rest ++ cs) := List.prefix_append (c :: rest) cs
      rw [List.cons_append, replaceAll, replaceFrom,
        if_pos (List.isPrefixOf_iff_prefix.mpr begins), List.length_cons, Nat.add_sub_cancel,
        replaceFrom_length]

theorem replaceAll_self (solid : old ≠ []) : replaceAll old new old = new := by
  have front := @replaceAll_front old new solid []
  rwa [List.append_nil, replaceAll, replaceAll, replaceFrom, List.append_nil] at front

/-- Where the old part stands only at the end, only the end is replaced. -/
theorem replaceAll_last (solid : old ≠ []) (once : ¬ old <:+: (front ++ old).dropLast) :
    replaceAll old new (front ++ old) = front ++ new := by
  rw [List.dropLast_append_of_ne_nil solid] at once
  have absent : ¬ old <:+: front := fun inside =>
    once (inside.trans (List.prefix_append _ _).isInfix)
  have uncut : Uncut old front old := by
    rintro p q rfl some ⟨rest, begins⟩
    -- a place that begins further in front ends before the last character
    have long := congrArg List.length begins
    rw [List.length_append, List.length_append] at long
    have positive := List.length_pos_of_ne_nil some
    have left : rest ≠ [] := List.ne_nil_of_length_pos (by omega)
    refine absurd ?_ once
    rw [List.append_assoc, ← List.dropLast_append_of_ne_nil solid, ← begins,
      List.dropLast_append_of_ne_nil left]
    exact (List.prefix_append old _).isInfix.trans (List.suffix_append p _).isInfix
  rw [replaceAll_append uncut, replaceAll_eq_self absent, replaceAll_self solid]

theorem replaceAll_eq_nil_iff (solid : new ≠ []) : replaceAll old new cs = [] ↔ cs = [] := by
  cases cs with
  | nil => exact ⟨fun _ => rfl, fun _ => rfl⟩
  | cons c cs =>
      rw [replaceAll, replaceFrom]
      split
      · simp [solid]
      · simp

theorem mem_replaceAll (solid : old ≠ []) (occurs : old <:+: cs) {c : Char} (member : c ∈ new) :
    c ∈ replaceAll old new cs := by
  induction cs with
  | nil => exact absurd (List.infix_nil.mp occurs) solid
  | cons d cs ih =>
      rw [replaceAll, replaceFrom]
      split
      · exact List.mem_append_left _ member
      · next nowhere =>
        refine List.mem_cons_of_mem d (ih ?_)
        rcases List.infix_cons_iff.mp occurs with begins | later
        · exact absurd (List.isPrefixOf_iff_prefix.mpr begins) nowhere
        · exact later

theorem not_mem_replaceFrom {c : Char} (outside : c ∉ new) (absent : c ∉ cs) (skip : Nat) :
    c ∉ replaceFrom old new skip cs := by
  induction cs generalizing skip with
  | nil => exact List.not_mem_nil
  | cons d cs ih =>
      have later : c ∉ cs := fun member => absent (List.mem_cons_of_mem d member)
      cases skip with
      | succ skip => exact ih later skip
      | zero =>
          rw [replaceFrom]
          split
          · exact fun member => (List.mem_append.mp member).elim outside (ih later _)
          · intro member
            rcases List.mem_cons.mp member with rfl | inside
            · exact absent List.mem_cons_self
            · exact ih later 0 inside

theorem not_mem_replaceAll {c : Char} (outside : c ∉ new) (absent : c ∉ cs) :
    c ∉ replaceAll old new cs :=
  not_mem_replaceFrom outside absent 0

theorem uncut_newline (whole : '\n' ∉ old) : Uncut old front ('\n' :: back) := by
  refine uncut_of_apart ?_
  intro r some begins ends
  obtain ⟨c, rest, rfl⟩ := List.exists_cons_of_ne_nil some
  obtain rfl := (List.cons_prefix_cons.mp begins).1
  exact whole (ends.mem List.mem_cons_self)

/-- What stands in a text stands there for a first time. -/
theorem exists_first_infix (some : old ≠ []) (inside : old <:+: cs) :
    ∃ front behind, cs = front ++ (old ++ behind) ∧ ¬ old <:+: front := by
  induction cs with
  | nil => exact absurd (List.infix_nil.mp inside) some
  | cons c cs ih =>
      by_cases begins : old <+: c :: cs
      · obtain ⟨behind, split⟩ := begins
        exact ⟨[], behind, split.symm, fun found => some (List.infix_nil.mp found)⟩
      · obtain ⟨front, behind, rfl, first⟩ :=
          ih ((List.infix_cons_iff.mp inside).resolve_left begins)
        refine ⟨c :: front, behind, rfl, ?_⟩
        intro found
        rcases List.infix_cons_iff.mp found with here | later
        · exact begins (here.trans (List.prefix_append (c :: front) (old ++ behind)))
        · exact first later

/-- There is something in a text, and no blank at its ends. -/
structure Solid (cs : List Char) : Prop where
  ne_nil : cs ≠ []
  trimmed : Trimmed cs

/-- Whatever stands between two solid texts is not at the ends. -/
theorem Solid.append (first : Solid front) (mid : List Char) (last : Solid back) :
    Solid (front ++ (mid ++ back)) := by
  refine ⟨by simp [first.ne_nil], trimmed_iff.mpr ⟨?_, ?_⟩⟩
  · rw [List.head?_append_of_ne_nil _ first.ne_nil]
    exact (trimmed_iff.mp first.trimmed).1
  · rw [← List.append_assoc, List.getLast?_append_of_ne_nil _ last.ne_nil]
    exact (trimmed_iff.mp last.trimmed).2

section Blanks
variable {bs : List Char}

theorem Solid.not_allBlank (solid : Solid cs) : ¬ AllBlank cs := by
  intro blank
  obtain ⟨c, rest, rfl⟩ := List.exists_cons_of_ne_nil solid.ne_nil
  have head := (trimmed_iff.mp solid.trimmed).1 c rfl
  rw [blank c List.mem_cons_self] at head
  cases head

theorem Solid.not_infix (solid : Solid cs) (blank : AllBlank bs) : ¬ cs <:+: bs :=
  fun inside => solid.not_allBlank fun c member => blank c (inside.mem member)

theorem Solid.uncut (solid : Solid old) (blank : AllBlank bs) : Uncut old front bs := by
  refine uncut_of_apart ?_
  rintro r some begins ⟨rest, rfl⟩
  have last := (trimmed_iff.mp solid.trimmed).2 (r.getLast some)
    (by rw [List.getLast?_append_of_ne_nil _ some, List.getLast?_eq_some_getLast some])
  rw [blank _ (begins.mem (List.getLast_mem some))] at last
  cases last

theorem Solid.uncut_front (solid : Solid old) (blank : AllBlank bs) : Uncut old bs back := by
  rintro p q rfl some begins
  obtain ⟨c, rest, rfl⟩ := List.exists_cons_of_ne_nil some
  obtain ⟨d, old, rfl⟩ := List.exists_cons_of_ne_nil solid.ne_nil
  obtain rfl := (List.cons_prefix_cons.mp begins).1
  have head := (trimmed_iff.mp solid.trimmed).1 d rfl
  rw [blank d (List.mem_append_right p List.mem_cons_self)] at head
  cases head

/-- A solid text does not reach into the blanks behind another. -/
theorem Solid.infix_of_append_blank (solid : Solid old) (blank : AllBlank bs)
    (inside : old <:+: front ++ bs) : old <:+: front := by
  obtain ⟨p, behind, split⟩ := inside
  rw [List.append_assoc] at split
  have nowhere {q : List Char} (late : bs = q ++ (old ++ behind)) : False :=
    solid.not_infix blank ⟨q, behind, by rw [late, List.append_assoc]⟩
  rcases List.append_eq_append_iff.mp split with ⟨q, rfl, tail⟩ | ⟨q, -, tail⟩
  · by_cases empty : q = []
    · subst empty
      exact (@nowhere [] tail.symm).elim
    · have begins := solid.uncut blank p q rfl empty ⟨behind, tail⟩
      exact begins.isInfix.trans (List.suffix_append p q).isInfix
  · exact (nowhere tail).elim

theorem Solid.replaceAll_blank (solid : Solid old) (blank : AllBlank bs) (cs : List Char) :
    replaceAll old new (bs ++ cs) = bs ++ replaceAll old new cs := by
  rw [replaceAll_append (solid.uncut_front blank), replaceAll_eq_self (solid.not_infix blank)]

/-- Blanks around a text stay. -/
theorem Solid.replaceAll_blanks (solid : Solid old) {after : List Char} (before : AllBlank bs)
    (behind : AllBlank after) :
    replaceAll old new (bs ++ (cs ++ after)) = bs ++ (replaceAll old new cs ++ after) := by
  rw [solid.replaceAll_blank before, replaceAll_append (solid.uncut behind),
    replaceAll_eq_self (solid.not_infix behind)]

end Blanks

theorem Solid.trim_append_ne_nil (solid : Solid cs) (rest : List Char) :
    trim (cs ++ rest) ≠ [] := by
  intro empty
  obtain ⟨before, behind, split, front, back⟩ := exists_trim (cs ++ rest)
  rw [empty, List.nil_append] at split
  refine solid.not_infix ?_ (List.prefix_append cs rest).isInfix
  rw [split]
  exact fun c member => (List.mem_append.mp member).elim (front c) (back c)

section Trim
variable (solid : Solid new)
include solid

theorem Solid.head_replaceAll (first : ∀ c, cs.head? = some c → isBlank c = false) (c : Char)
    (head : (replaceAll old new cs).head? = some c) : isBlank c = false := by
  cases cs with
  | nil => cases head
  | cons d cs =>
      rw [replaceAll, replaceFrom] at head
      split at head
      · rw [List.head?_append_of_ne_nil _ solid.ne_nil] at head
        exact (trimmed_iff.mp solid.trimmed).1 c head
      · exact first c head

theorem Solid.last_replaceFrom (final : ∀ c, cs.getLast? = some c → isBlank c = false) (skip : Nat)
    (c : Char) (last : (replaceFrom old new skip cs).getLast? = some c) : isBlank c = false := by
  induction cs generalizing skip with
  | nil => cases skip <;> cases last
  | cons d cs ih =>
      have later : ∀ c, cs.getLast? = some c → isBlank c = false := by
        intro e same
        refine final e ?_
        rw [List.getLast?_cons, same, Option.getD_some]
      cases skip with
      | succ skip => exact ih later skip last
      | zero =>
          rw [replaceFrom] at last
          split at last
          · rw [List.getLast?_append] at last
            cases rest : (replaceFrom old new (old.length - 1) cs).getLast? with
            | none =>
                rw [rest, Option.none_or] at last
                exact (trimmed_iff.mp solid.trimmed).2 c last
            | some e =>
                rw [rest, Option.some_or] at last
                exact ih later _ (rest.trans last)
          · rw [List.getLast?_cons, Option.some.injEq] at last
            cases rest : (replaceFrom old new 0 cs).getLast? with
            | none =>
                rw [rest, Option.getD_none] at last
                have empty := List.getLast?_eq_none_iff.mp rest
                rw [← replaceAll, replaceAll_eq_nil_iff solid.ne_nil] at empty
                exact final c (by rw [empty, last]; rfl)
            | some e =>
                rw [rest, Option.getD_some] at last
                exact ih later 0 (rest.trans (congrArg some last))

theorem Solid.trimmed_replaceAll (trimmed : Trimmed cs) : Trimmed (replaceAll old new cs) :=
  trimmed_iff.mpr ⟨solid.head_replaceAll (trimmed_iff.mp trimmed).1,
    solid.last_replaceFrom (trimmed_iff.mp trimmed).2 0⟩

/-- Trimming and replacing can be done in either order. -/
theorem Solid.trim_replaceAll (oldSolid : Solid old) (cs : List Char) :
    trim (replaceAll old new cs) = replaceAll old new (trim cs) := by
  obtain ⟨before, behind, split, front, back⟩ := exists_trim cs
  have moved : replaceAll old new cs = before ++ (replaceAll old new (trim cs) ++ behind) := by
    conv => lhs; rw [split]
    exact oldSolid.replaceAll_blanks front back
  rw [moved, front.trim_append, trim_append_blank _ back]
  exact solid.trimmed_replaceAll (trim_trim cs)

end Trim

end Flowchart.Text
