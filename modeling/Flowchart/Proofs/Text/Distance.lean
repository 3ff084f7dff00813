import Flowchart.Text.Distance
import Mathlib.Order.Bounds.Basic
import Mathlib.Order.MinMax
/-! Edit distance. The last entry of the last row is the least number of single characters that have
to be put in, taken out or exchanged to turn one text into the other. -/
namespace Flowchart.Text

/-- One character is put in, taken out or exchanged, anywhere in a text. -/
inductive Edit : List Char → List Char → Prop
  | insert (front back : List Char) (c : Char) : Edit (front ++ back) (front ++ c :: back)
  | delete (front back : List Char) (c : Char) : Edit (front ++ c :: back) (front ++ back)
  | exchange (front back : List Char) (c d : Char) : Edit (front ++ c :: back) (front ++ d :: back)

/-- So many edits, one after another, turn one text into another. -/
inductive Edits : Nat → List Char → List Char → Prop
  | nil (cs : List Char) : Edits 0 cs cs
  | cons {n : Nat} {as bs cs : List Char} (first : Edit as bs) (later : Edits n bs cs) :
      Edits (n + 1) as cs

section Least

/-- The number of edits, found by their first characters. -/
def leastEdits : List Char → List Char → Nat
  | [], bs => bs.length
  | as, [] => as.length
  | a :: as, b :: bs =>
    min (min (leastEdits as (b :: bs) + 1) (leastEdits (a :: as) bs + 1))
      (leastEdits as bs + if a == b then 0 else 1)

variable {n : Nat} {as bs cs : List Char}

theorem Edit.cons (edit : Edit as bs) (c : Char) : Edit (c :: as) (c :: bs) := by
  cases edit with
  | insert front back d => exact .insert (c :: front) back d
  | delete front back d => exact .delete (c :: front) back d
  | exchange front back d e => exact .exchange (c :: front) back d e

theorem Edits.cons_both (edits : Edits n as bs) (c : Char) : Edits n (c :: as) (c :: bs) := by
  induction edits with
  | nil cs => exact .nil (c :: cs)
  | cons first later ih => exact .cons (first.cons c) ih

theorem edits_insert (bs : List Char) : Edits bs.length [] bs := by
  induction bs with
  | nil => exact .nil []
  | cons b bs ih => exact .cons (.insert [] [] b) (ih.cons_both b)

theorem edits_delete (as : List Char) : Edits as.length as [] := by
  induction as with
  | nil => exact .nil []
  | cons a as ih => exact .cons (.delete [] as a) ih

theorem leastEdits_nil_left (bs : List Char) : leastEdits [] bs = bs.length := by
  rw [leastEdits]

theorem leastEdits_nil_right (as : List Char) : leastEdits as [] = as.length := by
  cases as with
  | nil => exact leastEdits_nil_left []
  | cons a as => rw [leastEdits]; exact nofun

theorem edits_leastEdits (as bs : List Char) : Edits (leastEdits as bs) as bs := by
  induction as, bs using leastEdits.induct with
  | case1 bs => rw [leastEdits_nil_left]; exact edits_insert bs
  | case2 as some => rw [leastEdits_nil_right]; exact edits_delete as
  | case3 a as b bs deleted inserted kept =>
      rw [leastEdits]
      rcases min_choice (min (leastEdits as (b :: bs) + 1) (leastEdits (a :: as) bs + 1))
        (leastEdits as bs + if a == b then 0 else 1) with first | last
      · rw [first]
        rcases min_choice (leastEdits as (b :: bs) + 1) (leastEdits (a :: as) bs + 1) with
          delete | insert
        · rw [delete]
          exact .cons (.delete [] as a) deleted
        · rw [insert]
          exact .cons (.insert [] (a :: as) b) (inserted.cons_both b)
      · rw [last]
        by_cases same : a = b
        · subst same
          simpa using kept.cons_both a
        · simp only [beq_iff_eq, same, if_false]
          exact .cons (.exchange [] as a b) (kept.cons_both b)

theorem leastEdits_self (cs : List Char) : leastEdits cs cs = 0 := by
  induction cs with
  | nil => exact leastEdits_nil_left []
  | cons c cs ih => simp [leastEdits, ih]

theorem leastEdits_longer (as : List Char) (b : Char) (bs : List Char) :
    leastEdits as (b :: bs) ≤ leastEdits as bs + 1 := by
  cases as with
  | nil => simp [leastEdits_nil_left]
  | cons a as =>
      rw [leastEdits]
      exact (min_le_left _ _).trans (min_le_right _ _)

theorem leastEdits_delete (c : Char) (as cs : List Char) :
    leastEdits (c :: as) cs ≤ leastEdits as cs + 1 := by
  cases cs with
  | nil => simp [leastEdits_nil_right]
  | cons d cs =>
      rw [leastEdits]
      exact (min_le_left _ _).trans (min_le_left _ _)

theorem leastEdits_insert (c : Char) (as cs : List Char) :
    leastEdits as cs ≤ leastEdits (c :: as) cs + 1 := by
  induction cs with
  | nil => simp only [leastEdits_nil_right, List.length_cons]; omega
  | cons d cs ih =>
      have longer := leastEdits_longer as d cs
      rw [leastEdits]
      omega

theorem leastEdits_exchange (c d : Char) (as cs : List Char) :
    leastEdits (c :: as) cs ≤ leastEdits (d :: as) cs + 1 := by
  induction cs with
  | nil => simp only [leastEdits_nil_right, List.length_cons]; omega
  | cons e cs ih =>
      rw [leastEdits, leastEdits]
      split <;> split <;> omega

/-- An edit behind the first character saves no more than it costs, if one at the front does not. -/
theorem leastEdits_cons (c : Char) (near : ∀ cs, leastEdits as cs ≤ leastEdits bs cs + 1)
    (cs : List Char) : leastEdits (c :: as) cs ≤ leastEdits (c :: bs) cs + 1 := by
  induction cs with
  | nil => simpa [leastEdits_nil_right] using near []
  | cons d cs ih =>
      have whole := near (d :: cs)
      have rest := near cs
      rw [leastEdits, leastEdits]
      omega

theorem leastEdits_append (front : List Char)
    (near : ∀ cs, leastEdits as cs ≤ leastEdits bs cs + 1) (cs : List Char) :
    leastEdits (front ++ as) cs ≤ leastEdits (front ++ bs) cs + 1 := by
  induction front generalizing cs with
  | nil => exact near cs
  | cons c front ih => exact leastEdits_cons c ih cs

/-- No edit saves more than it costs. -/
theorem Edit.leastEdits_le (edit : Edit as bs) (cs : List Char) :
    leastEdits as cs ≤ leastEdits bs cs + 1 := by
  cases edit with
  | insert front back c => exact leastEdits_append front (leastEdits_insert c back) cs
  | delete front back c => exact leastEdits_append front (leastEdits_delete c back) cs
  | exchange front back c d => exact leastEdits_append front (leastEdits_exchange c d back) cs

theorem Edits.leastEdits_le (edits : Edits n as bs) : leastEdits as bs ≤ n := by
  induction edits with
  | nil cs => exact (leastEdits_self cs).le
  | cons first later ih => exact (first.leastEdits_le _).trans (Nat.add_le_add_right ih 1)

theorem leastEdits_isLeast (as bs : List Char) :
    IsLeast {n | Edits n as bs} (leastEdits as bs) :=
  ⟨edits_leastEdits as bs, fun _ edits => edits.leastEdits_le⟩

theorem Edit.reverse (edit : Edit as bs) : Edit as.reverse bs.reverse := by
  cases edit with
  | insert front back c => simpa using Edit.insert back.reverse front.reverse c
  | delete front back c => simpa using Edit.delete back.reverse front.reverse c
  | exchange front back c d => simpa using Edit.exchange back.reverse front.reverse c d

theorem Edits.reverse (edits : Edits n as bs) : Edits n as.reverse bs.reverse := by
  induction edits with
  | nil cs => exact .nil cs.reverse
  | cons first later ih => exact .cons first.reverse ih

theorem edits_reverse_iff : Edits n as.reverse bs.reverse ↔ Edits n as bs := by
  refine ⟨fun edits => ?_, Edits.reverse⟩
  simpa using edits.reverse

end Least

section Row

/-- The entries of a row: the distances of one text from the beginnings of another. Both texts are
given backwards, as far as they have been read. -/
def entries (as : List Char) : List Char → List Char → List Nat
  | _, [] => []
  | bs, c :: cs => leastEdits as (c :: bs) :: entries as (c :: bs) cs

/-- The corner, the entry on the left and the row above give the entries of the next row. -/
theorem nextRow_entries (a : Char) (as bs cs : List Char) :
    nextRow a (leastEdits as bs) (leastEdits (a :: as) bs) (entries as bs cs) cs =
      entries (a :: as) bs cs := by
  induction cs generalizing bs with
  | nil => rfl
  | cons c cs ih =>
      have entry : leastEdits (a :: as) (c :: bs) =
          min (min (leastEdits as (c :: bs) + 1) (leastEdits (a :: as) bs + 1))
            (leastEdits as bs + if a == c then 0 else 1) := leastEdits.eq_3 ..
      rw [entries, entries, nextRow, ← entry, ih]

theorem lastRow_entries (as read bs : List Char) :
    lastRow bs as read.length (entries read [] bs) =
      ((as.reverse ++ read).length, entries (as.reverse ++ read) [] bs) := by
  induction as generalizing read with
  | nil => rfl
  | cons a as ih =>
      have next := nextRow_entries a read [] bs
      rw [leastEdits_nil_right, leastEdits_nil_right] at next
      rw [lastRow, ← List.length_cons, next, ih, List.reverse_cons, List.append_assoc]
      rfl

theorem entries_nil (read bs : List Char) :
    entries [] read bs = List.range' (read.length + 1) bs.length := by
  induction bs generalizing read with
  | nil => rfl
  | cons b bs ih =>
      rw [entries, ih, leastEdits_nil_left, List.length_cons, List.length_cons, List.range'_succ]

theorem getLastD_entries (as read bs : List Char) :
    (entries as read bs).getLastD (leastEdits as read) = leastEdits as (bs.reverse ++ read) := by
  induction bs generalizing read with
  | nil => rfl
  | cons b bs ih =>
      rw [entries, List.getLastD_cons, ih, List.reverse_cons, List.append_assoc]
      rfl

theorem distance_eq (as bs : List Char) : distance as bs = leastEdits as.reverse bs.reverse := by
  have rows := lastRow_entries as [] bs
  have last := getLastD_entries as.reverse [] bs
  rw [entries_nil] at rows
  rw [leastEdits_nil_right] at last
  simp only [List.append_nil] at rows last
  simp only [distance]
  rw [← last]
  exact congrArg (fun r => r.2.getLastD r.1) rows

end Row

/-- The distance is the least number of edits. -/
theorem distance_isLeast (as bs : List Char) : IsLeast {n | Edits n as bs} (distance as bs) := by
  have least := leastEdits_isLeast as.reverse bs.reverse
  simp only [edits_reverse_iff] at least
  rwa [distance_eq]

example : distance "server".toList "servr".toList = 1 := by decide +kernel

end Flowchart.Text
