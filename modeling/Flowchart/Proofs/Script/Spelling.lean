import Flowchart.Proofs.Script.Rename
/-! Exact spelling. A line that writes the token of a renamed block exactly, or is clear of it, says
the same about the renamed blocks when the new token is written in place of the old one. -/
namespace Flowchart.Script
open Flowchart.Text

section Opening
variable {token rest : List Char}

/-- No group opens inside a token. -/
def Unopened (token rest : List Char) : Prop :=
  ∀ inner, inner ≠ [] → inner <:+ token → groupOpen? (inner ++ rest) = none

theorem Unopened.of_last (last : (token ++ rest).getLast? ≠ some '[') : Unopened token rest := by
  rintro inner some ⟨front, rfl⟩
  rw [List.append_assoc, List.getLast?_append_of_ne_nil front (by simp [some])] at last
  cases opened : groupOpen? (inner ++ rest) with
  | none => rfl
  | some arrow =>
      obtain ⟨before, split⟩ := bracket_of_groupOpen? opened
      rw [← split, List.getLast?_concat] at last
      exact absurd rfl last

theorem mergeFrom?_skip (unopened : Unopened token rest) (before : List Char) :
    mergeFrom? before (token ++ rest) = mergeFrom? (token.reverse ++ before) rest := by
  induction token generalizing before with
  | nil => rfl
  | cons c token ih =>
      have here := unopened (c :: token) (List.cons_ne_nil c token) List.suffix_rfl
      have later : Unopened token rest := fun inner some part =>
        unopened inner some (part.trans (List.suffix_cons c token))
      rw [List.cons_append] at here ⊢
      simp only [mergeFrom?, here]
      rw [ih later, List.reverse_cons, List.append_assoc, List.singleton_append]

end Opening

section Reference
variable {front token : List Char} {arrow : Arrow}

theorem head_of_arrow? (read : arrow? front = some arrow) : front.head? = some 'a' := by
  by_contra other
  rw [arrow?_eq_none other] at read
  cases read

/-- The target of a back-reference is the token behind its mark. -/
theorem backReference?_token (shaped : Shaped token) (read : arrow? front = some arrow)
    (unmarked : '!' ∉ front) : backReference? (front ++ '!' :: token) = some (arrow, token) := by
  rw [backReference?_mark unmarked shaped.ne_nil, read, Option.map_some, shaped.trimmed]

theorem trim_reference {bs : List Char} (blank : AllBlank bs) (shaped : Shaped token)
    (read : arrow? front = some arrow) :
    trim (bs ++ (front ++ '!' :: token)) = front ++ '!' :: token := by
  rw [blank.trim_append]
  refine trimmed_iff.mpr ⟨?_, ?_⟩
  · intro c head
    rw [List.head?_append, head_of_arrow? read, Option.some_or, Option.some.injEq] at head
    subst head
    decide
  · intro c last
    rw [List.getLast?_append_of_ne_nil _ (List.cons_ne_nil _ _),
      List.getLast?_cons_of_ne_nil shaped.ne_nil] at last
    exact (trimmed_iff.mp shaped.trimmed).2 c last

/-- A back-reference behind a token, with blanks between them. -/
theorem statement_reference (read : arrow? front = some arrow) (unmarked : '!' ∉ front)
    {blocks : Registry} (sound : blocks.Sound) {i : Nat} {b : Block} (present : blocks[i]? = some b)
    (shaped : Shaped token) {bs : List Char} (blank : AllBlank bs)
    (alone : Alone blocks b.token.toList (bs ++ (front ++ '!' :: token))) :
    statement blocks (b.token.toList ++ (bs ++ (front ++ '!' :: token))) =
      .inlineBack i arrow token := by
  have member := List.mem_of_getElem? present
  rw [statement_of_token sound present (sound.shaped member) (by rw [key]) alone,
    trim_reference blank shaped read, backReference?_token shaped read unmarked]

end Reference

/-- No key goes on behind the token, so only the token itself names a block. -/
theorem resolve?_alone {blocks : Registry} {i : Nat} {token rest part : List Char}
    (found : blocks.resolve? token = some i) (alone : Alone blocks token rest)
    (front : part <+: rest) :
    blocks.resolve? (trim (token ++ part)) = if strip part = [] then some i else none := by
  split
  · next blank =>
    rw [Registry.resolve?, strip_trim, strip_append, blank, List.append_nil]
    exact found
  · next solid =>
    refine Registry.resolve?_eq_none_iff.mpr ?_
    intro b member same
    rw [strip_trim] at same
    obtain ⟨behind, rfl⟩ := front
    have begins : key b <+: strip (token ++ (part ++ behind)) := by
      rw [same, ← List.append_assoc, strip_append (token ++ part)]
      exact List.prefix_append _ _
    have short := alone b member begins
    rw [same, strip_append, List.length_append] at short
    exact solid (List.eq_nil_of_length_eq_zero (by omega))

/-- A line says of the renamed blocks what it said before, and what it names are the same blocks. -/
structure Agrees (old new : List Char) (before after : Registry) (line : List Char) : Prop where
  said : statement after (replaceAll old new line) =
    (statement before line).rename (replaceAll old new)
  named : ∀ name ∈ (statement before line).named?,
    after.resolve? (replaceAll old new name) = before.resolve? name

theorem Agrees.of_said {old new line : List Char} {before after : Registry} {said : Statement}
    (told : statement before line = said)
    (retold : statement after (replaceAll old new line) = said.rename (replaceAll old new))
    (named : ∀ name ∈ said.named?,
      after.resolve? (replaceAll old new name) = before.resolve? name) :
    Agrees old new before after line := by
  subst told
  exact ⟨retold, named⟩

/-- The ways in which a line may mention a block: not at all, by its token at the beginning, as the
target of a back-reference on its own or behind the token of another block, or as both ends of one. -/
inductive Spelled (i : Nat) (old new : List Char) (before after : Registry) : List Char → Prop
  | clear {line : List Char} (clear : Clear old new line) : Spelled i old new before after line
  | begins {rest : List Char} (clear : Clear old new rest) (oldAlone : Alone before old rest)
      (newAlone : Alone after new rest) (oldUnopened : Unopened old rest)
      (newUnopened : Unopened new rest) : Spelled i old new before after (old ++ rest)
  | returns {front : List Char} {arrow : Arrow} (read : arrow? front = some arrow)
      (unmarked : '!' ∉ front) (once : ¬ old <:+: (front ++ '!' :: old).dropLast) :
      Spelled i old new before after (front ++ '!' :: old)
  | links {j : Nat} {b : Block} {bs front : List Char} {arrow : Arrow}
      (present : before[j]? = some b) (other : j ≠ i) (blank : AllBlank bs)
      (read : arrow? front = some arrow) (unmarked : '!' ∉ front)
      (once : ¬ old <:+: (b.token.toList ++ (bs ++ (front ++ '!' :: old))).dropLast)
      (oldAlone : Alone before b.token.toList (bs ++ (front ++ '!' :: old)))
      (newAlone : Alone after b.token.toList (bs ++ (front ++ '!' :: new))) :
      Spelled i old new before after (b.token.toList ++ (bs ++ (front ++ '!' :: old)))
  | loops {bs front : List Char} {arrow : Arrow} (blank : AllBlank bs)
      (read : arrow? front = some arrow) (unmarked : '!' ∉ front)
      (once : ¬ old <:+: (bs ++ (front ++ '!' :: old)).dropLast)
      (oldAlone : Alone before old (bs ++ (front ++ '!' :: old)))
      (newAlone : Alone after new (bs ++ (front ++ '!' :: new))) :
      Spelled i old new before after (old ++ (bs ++ (front ++ '!' :: old)))

/-- A line that is the token. -/
theorem Spelled.token {i : Nat} {old new : List Char} {before after : Registry}
    (oldShaped : Shaped old) (newShaped : Shaped new) : Spelled i old new before after old := by
  have unopened {token : List Char} (shaped : Shaped token) : Unopened token [] := by
    refine .of_last ?_
    rw [List.append_nil]
    exact shaped.getLast?_ne (by decide)
  have absent {token : List Char} (shaped : Shaped token) : ¬ strip token <:+: strip [] := by
    obtain ⟨c, -, head⟩ := shaped.head_strip
    exact fun inside => List.ne_nil_of_mem (List.mem_of_head? head) (List.infix_nil.mp inside)
  have spelled := @Spelled.begins i old new before after [] ⟨absent oldShaped, absent newShaped⟩
    (.nil before old) (.nil after new) (unopened oldShaped) (unopened newShaped)
  rwa [List.append_nil] at spelled

namespace Renamed
variable {i : Nat} {old new : List Char} {before after : Registry}
  (renamed : Renamed i old new before after)
include renamed

theorem oldShaped : Shaped old := by
  obtain ⟨b, present, rfl⟩ := renamed.old_token
  exact renamed.before_sound.shaped (List.mem_of_getElem? present)

theorem newShaped : Shaped new := by
  obtain ⟨b, present, rfl⟩ := renamed.new_token
  exact renamed.after_sound.shaped (List.mem_of_getElem? present)

theorem agrees_clear {line : List Char} (clear : Clear old new line) :
    Agrees old new before after line := by
  have kept : ∀ name ∈ (statement before line).named?, Clear old new name := fun name said =>
    clear.of_infix (named_part before line name said)
  refine .of_said rfl ?_ ?_
  · rw [clear.replaceAll_eq, renamed.statement_clear clear]
    exact (Statement.rename_eq_self fun name said => (kept name said).replaceAll_eq).symm
  · intro name said
    rw [(kept name said).replaceAll_eq, renamed.resolve?_clear (kept name said)]

theorem replaceAll_token : replaceAll old new old = new :=
  replaceAll_self renamed.oldShaped.ne_nil

/-- A statement that names the token exactly names the renamed block afterwards. -/
theorem agrees_token {line changed : List Char} {said : Statement}
    (replaced : replaceAll old new line = changed) (told : statement before line = said)
    (retold : statement after changed = said.rename (replaceAll old new))
    (exact : ∀ name ∈ said.named?, name = old) : Agrees old new before after line := by
  refine .of_said told (replaced ▸ retold) ?_
  intro name member
  rw [exact name member, renamed.replaceAll_token, renamed.resolve?_new, renamed.resolve?_old]

section Begins
variable {rest : List Char}

theorem replaceAll_begins (clear : Clear old new rest) :
    replaceAll old new (old ++ rest) = new ++ rest := by
  rw [replaceAll_front renamed.oldShaped.ne_nil, clear.replaceAll_eq]

theorem replaceAll_trim_begins (clear : Clear old new rest) :
    replaceAll old new (trim (old ++ rest)) = trim (new ++ rest) := by
  rw [← renamed.newShaped.solid.trim_replaceAll renamed.oldShaped.solid,
    renamed.replaceAll_begins clear]

theorem mergeFrom?_begins {before : List Char} (clear : Clear old new (before.reverse ++ rest)) :
    mergeFrom? (before ++ new.reverse) rest =
      (mergeFrom? (before ++ old.reverse) rest).map fun found =>
        (replaceAll old new found.1, found.2) := by
  induction rest generalizing before with
  | nil => rfl
  | cons c rest ih =>
      have later : Clear old new ((c :: before).reverse ++ rest) := by
        rwa [List.reverse_cons, List.append_assoc, List.singleton_append]
      have here : Clear old new before.reverse := clear.of_infix (List.prefix_append _ _).isInfix
      have solid {token : List Char} (shaped : Shaped token) :
          (trim (before ++ token.reverse).reverse).isEmpty = false := by
        rw [List.reverse_append, List.reverse_reverse]
        simpa using shaped.solid.trim_append_ne_nil before.reverse
      simp only [mergeFrom?, solid renamed.oldShaped, solid renamed.newShaped,
        Bool.false_eq_true, if_false]
      cases groupOpen? (c :: rest) with
      | none => exact ih later
      | some arrow =>
          rw [Option.map_some, List.reverse_append, List.reverse_reverse, List.reverse_append,
            List.reverse_reverse, renamed.replaceAll_trim_begins here]

theorem mergeOpen?_begins (clear : Clear old new rest) (oldUnopened : Unopened old rest)
    (newUnopened : Unopened new rest) :
    mergeOpen? (new ++ rest) = (mergeOpen? (old ++ rest)).map fun found =>
      (replaceAll old new found.1, found.2) := by
  have skipped := @mergeFrom?_begins i old new before after renamed rest [] clear
  rw [mergeOpen?, mergeOpen?, mergeFrom?_skip oldUnopened, mergeFrom?_skip newUnopened,
    List.append_nil, List.append_nil]
  exact skipped

/-- The reference of a group that is opened behind the token is the token, or it is nothing. -/
theorem resolve?_begins (clear : Clear old new rest) (oldAlone : Alone before old rest)
    (newAlone : Alone after new rest) (unopened : Unopened old rest) {reference : List Char}
    {arrow : Arrow} (opened : mergeOpen? (old ++ rest) = some (reference, arrow)) :
    after.resolve? (replaceAll old new reference) = before.resolve? reference := by
  rw [mergeOpen?, mergeFrom?_skip unopened, List.append_nil] at opened
  obtain ⟨part, front, rfl⟩ := exists_of_mergeFrom? opened
  rw [List.reverse_reverse, renamed.replaceAll_trim_begins (clear.of_infix front.isInfix),
    resolve?_alone renamed.resolve?_new newAlone front,
    resolve?_alone renamed.resolve?_old oldAlone front]

theorem agrees_begins (clear : Clear old new rest) (oldAlone : Alone before old rest)
    (newAlone : Alone after new rest) (oldUnopened : Unopened old rest)
    (newUnopened : Unopened new rest) : Agrees old new before after (old ++ rest) := by
  obtain ⟨b, oldPresent, oldToken⟩ := renamed.old_token
  obtain ⟨c, newPresent, newToken⟩ := renamed.new_token
  have told := statement_of_token renamed.before_sound oldPresent renamed.oldShaped
    (by rw [key, oldToken]) oldAlone
  have retold := statement_of_token renamed.after_sound newPresent renamed.newShaped
    (by rw [key, newToken]) newAlone
  rw [renamed.mergeOpen?_begins clear oldUnopened newUnopened] at retold
  rw [← renamed.replaceAll_begins clear] at retold
  cases reference : backReference? (trim rest) with
  | some found =>
      obtain ⟨arrow, target⟩ := found
      rw [reference] at told retold
      have kept : Clear old new target :=
        clear.of_infix ((target_part reference).trans (trim_part rest))
      refine .of_said told ?_ ?_
      · rw [retold, Statement.rename, kept.replaceAll_eq]
      · rintro _ ⟨⟩
        rw [kept.replaceAll_eq, renamed.resolve?_clear kept]
  | none =>
      rw [reference] at told retold
      cases opened : mergeOpen? (old ++ rest) with
      | none =>
          rw [opened] at told retold
          refine .of_said told retold ?_
          intro name absent
          cases absent
      | some found =>
          obtain ⟨anchor, arrow⟩ := found
          rw [opened] at told retold
          refine .of_said told retold ?_
          rintro _ ⟨⟩
          exact renamed.resolve?_begins clear oldAlone newAlone oldUnopened opened

end Begins

section Reference
variable {front bs : List Char} {arrow : Arrow} (read : arrow? front = some arrow)
  (unmarked : '!' ∉ front)
include read unmarked

theorem agrees_returns (once : ¬ old <:+: (front ++ '!' :: old).dropLast) :
    Agrees old new before after (front ++ '!' :: old) := by
  have said {blocks : Registry} (sound : blocks.Sound) {token : List Char} (shaped : Shaped token) :
      statement blocks (front ++ '!' :: token) = .back arrow token := by
    have head : (front ++ '!' :: token).head? = some 'a' := by
      rw [List.head?_append, head_of_arrow? read, Option.some_or]
    have last : (front ++ '!' :: token).getLast? ≠ some '[' := by
      rw [List.getLast?_append_of_ne_nil front (List.cons_ne_nil _ _),
        List.getLast?_cons_of_ne_nil shaped.ne_nil]
      exact shaped.getLast?_ne (by decide)
    rw [statement_of_arrow sound head last, backReference?_token shaped read unmarked]
  have replaced : replaceAll old new (front ++ '!' :: old) = front ++ '!' :: new := by
    have last := @replaceAll_last old new (front ++ ['!']) renamed.oldShaped.ne_nil
    simp only [List.append_assoc, List.singleton_append] at last
    exact last once
  have told := said renamed.before_sound renamed.oldShaped
  have retold := said renamed.after_sound renamed.newShaped
  refine renamed.agrees_token replaced told ?_ ?_
  · rw [retold, Statement.rename, renamed.replaceAll_token]
  · rintro _ ⟨⟩
    rfl

theorem agrees_links {j : Nat} {b : Block} (present : before[j]? = some b) (other : j ≠ i)
    (blank : AllBlank bs)
    (once : ¬ old <:+: (b.token.toList ++ (bs ++ (front ++ '!' :: old))).dropLast)
    (oldAlone : Alone before b.token.toList (bs ++ (front ++ '!' :: old)))
    (newAlone : Alone after b.token.toList (bs ++ (front ++ '!' :: new))) :
    Agrees old new before after (b.token.toList ++ (bs ++ (front ++ '!' :: old))) := by
  have kept : after[j]? = some b := (renamed.others j other).trans present
  have replaced : replaceAll old new (b.token.toList ++ (bs ++ (front ++ '!' :: old))) =
      b.token.toList ++ (bs ++ (front ++ '!' :: new)) := by
    have last := @replaceAll_last old new (b.token.toList ++ (bs ++ (front ++ ['!'])))
      renamed.oldShaped.ne_nil
    simp only [List.append_assoc, List.singleton_append] at last
    exact last once
  have told := statement_reference read unmarked renamed.before_sound present renamed.oldShaped
    blank oldAlone
  have retold := statement_reference read unmarked renamed.after_sound kept renamed.newShaped
    blank newAlone
  refine renamed.agrees_token replaced told ?_ ?_
  · rw [retold, Statement.rename, renamed.replaceAll_token]
  · rintro _ ⟨⟩
    rfl

theorem agrees_loops (blank : AllBlank bs)
    (once : ¬ old <:+: (bs ++ (front ++ '!' :: old)).dropLast)
    (oldAlone : Alone before old (bs ++ (front ++ '!' :: old)))
    (newAlone : Alone after new (bs ++ (front ++ '!' :: new))) :
    Agrees old new before after (old ++ (bs ++ (front ++ '!' :: old))) := by
  obtain ⟨b, oldPresent, rfl⟩ := renamed.old_token
  obtain ⟨c, newPresent, rfl⟩ := renamed.new_token
  have solid := renamed.oldShaped.ne_nil
  have replaced : replaceAll b.token.toList c.token.toList
      (b.token.toList ++ (bs ++ (front ++ '!' :: b.token.toList))) =
      c.token.toList ++ (bs ++ (front ++ '!' :: c.token.toList)) := by
    have last := @replaceAll_last b.token.toList c.token.toList (bs ++ (front ++ ['!'])) solid
    simp only [List.append_assoc, List.singleton_append] at last
    rw [replaceAll_front solid, last once]
  have told := statement_reference read unmarked renamed.before_sound oldPresent renamed.oldShaped
    blank oldAlone
  have retold := statement_reference read unmarked renamed.after_sound newPresent renamed.newShaped
    blank newAlone
  refine renamed.agrees_token replaced told ?_ ?_
  · rw [retold, Statement.rename, renamed.replaceAll_token]
  · rintro _ ⟨⟩
    rfl

end Reference

theorem agrees {line : List Char} (spelled : Spelled i old new before after line) :
    Agrees old new before after line := by
  cases spelled with
  | clear clear => exact renamed.agrees_clear clear
  | begins clear oldAlone newAlone oldUnopened newUnopened =>
      exact renamed.agrees_begins clear oldAlone newAlone oldUnopened newUnopened
  | returns read unmarked once => exact renamed.agrees_returns read unmarked once
  | links present other blank read unmarked once oldAlone newAlone =>
      exact renamed.agrees_links read unmarked present other blank once oldAlone newAlone
  | loops blank read unmarked once oldAlone newAlone =>
      exact renamed.agrees_loops read unmarked blank once oldAlone newAlone

end Renamed
end Flowchart.Script
