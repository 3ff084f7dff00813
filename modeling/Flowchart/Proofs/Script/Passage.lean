import Flowchart.Proofs.Script.Appending
/-! Passages. A passage is a line of a script with the lines behind it that belong to it: those of a
composite block, or the members of a group and its bracket. Both phases read a script passage by
passage, and a passage stays what it is when other passages around it are left out. -/
namespace Flowchart.Script
open Flowchart.Text

structure Passage where
  head : Line
  tail : List Line
  deriving DecidableEq

namespace Passage

def lines (p : Passage) : List Line := p.head :: p.tail

def last (p : Passage) : Line := p.tail.getLastD p.head

def span (p : Passage) : Span := ⟨p.head.start, p.last.stop⟩

def map (f : Line → Line) (p : Passage) : Passage := ⟨f p.head, p.tail.map f⟩

theorem exists_last (p : Passage) : ∃ front, p.lines = front ++ [p.last] := by
  rcases List.eq_nil_or_concat p.tail with alone | ⟨front, l, more⟩
  · exact ⟨[], by rw [lines, last, alone]; rfl⟩
  · refine ⟨p.head :: front, ?_⟩
    rw [lines, last, more, List.concat_eq_append, List.getLastD_concat]
    rfl

theorem last_mem (p : Passage) : p.last ∈ p.lines := by
  obtain ⟨front, split⟩ := p.exists_last
  rw [split]
  exact List.mem_append_right front List.mem_cons_self

end Passage

def Line.alone (l : Line) : Passage := ⟨l, []⟩

/-- How many of the lines behind a line belong to it, told by the texts. When some are left, it does
not matter which. -/
structure Cut where
  count : List Char → List (List Char) → Nat
  steady : ∀ {text : List Char} {ls : List (List Char)} (more : List (List Char)),
    count text ls < ls.length → count text (ls.take (count text ls) ++ more) = count text ls

namespace Cut
variable (c : Cut)

def passages : List Line → List Passage
  | [] => []
  | l :: ls =>
    ⟨l, ls.take (c.count l.text (texts ls))⟩ :: passages (ls.drop (c.count l.text (texts ls)))
  termination_by ls => ls.length
  decreasing_by
    rw [List.length_drop, List.length_cons]
    exact Nat.lt_succ_of_le (Nat.sub_le _ _)

theorem passages_cons (l : Line) (ls : List Line) :
    c.passages (l :: ls) = ⟨l, ls.take (c.count l.text (texts ls))⟩ ::
      c.passages (ls.drop (c.count l.text (texts ls))) := by
  rw [passages]

/-- The passages are all there is. -/
theorem lines_passages (ls : List Line) : (c.passages ls).flatMap (·.lines) = ls := by
  induction ls using Cut.passages.induct c with
  | case1 => rw [passages]; rfl
  | case2 l ls ih =>
      rw [passages_cons, List.flatMap_cons, ih, Passage.lines, List.cons_append,
        List.take_append_drop]

theorem tail_of_mem_passages {p : Passage} {ls : List Line} (member : p ∈ c.passages ls) :
    ∃ behind : List Line, p.tail = behind.take (c.count p.head.text (texts behind)) := by
  induction ls using Cut.passages.induct c with
  | case1 =>
      rw [passages] at member
      cases member
  | case2 l ls ih =>
      rw [passages_cons] at member
      rcases List.mem_cons.mp member with rfl | later
      · exact ⟨ls, rfl⟩
      · exact ih later

theorem passages_map {f : Line → Line} (same : ∀ l, (f l).text = l.text) (ls : List Line) :
    c.passages (ls.map f) = (c.passages ls).map (·.map f) := by
  have texts_map (ls : List Line) : texts (ls.map f) = texts ls := by
    rw [texts, List.map_map]
    exact List.map_congr_left fun l _ => same l
  induction ls using Cut.passages.induct c with
  | case1 => rw [List.map_nil, passages]; rfl
  | case2 l ls ih =>
      rw [List.map_cons, passages_cons, passages_cons, List.map_cons, texts_map, same,
        ← List.map_take, ← List.map_drop, ih]
      rfl

/-- A passage takes its lines, whatever is left behind them. -/
theorem passages_passage (l : Line) {ls rest : List Line}
    (ends : ls.drop (c.count l.text (texts ls)) = [] → rest = []) :
    c.passages (l :: (ls.take (c.count l.text (texts ls)) ++ rest)) =
      ⟨l, ls.take (c.count l.text (texts ls))⟩ :: c.passages rest := by
  rw [passages_cons]
  by_cases inside : c.count l.text (texts ls) < ls.length
  · have same : c.count l.text (texts (ls.take (c.count l.text (texts ls)) ++ rest)) =
        c.count l.text (texts ls) := by
      rw [texts, List.map_append, List.map_take]
      exact c.steady (texts rest) (by rwa [texts, List.length_map])
    have long : (ls.take (c.count l.text (texts ls))).length = c.count l.text (texts ls) :=
      List.length_take_of_le inside.le
    rw [same, List.take_left' long, List.drop_left' long]
  · have past : ls.length ≤ c.count l.text (texts ls) := Nat.le_of_not_lt inside
    obtain rfl := ends (List.drop_of_length_le past)
    rw [List.append_nil, List.take_of_length_le past, List.take_of_length_le past,
      List.drop_of_length_le past]

/-- Some passages of a script are the passages of a shorter script. -/
theorem passages_filter (keep : Passage → Bool) (ls : List Line) :
    c.passages (((c.passages ls).filter keep).flatMap (·.lines)) = (c.passages ls).filter keep := by
  induction ls using Cut.passages.induct c with
  | case1 => rw [passages]; exact passages.eq_1 c
  | case2 l ls ih =>
      rw [passages_cons, List.filter_cons]
      cases keep ⟨l, ls.take (c.count l.text (texts ls))⟩ with
      | false => exact ih
      | true =>
          rw [if_pos rfl, List.flatMap_cons, Passage.lines, List.cons_append, passages_passage, ih]
          intro none
          rw [none, passages]
          rfl

end Cut

section Declaring

/-- How many lines a composite block takes while its braces are open. -/
def openLines (depth : Int) : List (List Char) → Nat
  | [] => 0
  | text :: ls => if 0 < depth then openLines (depth + braceDepth text) ls + 1 else 0

theorem openLines_steady {depth : Int} {ls : List (List Char)} (more : List (List Char))
    (inside : openLines depth ls < ls.length) :
    openLines depth (ls.take (openLines depth ls) ++ more) = openLines depth ls := by
  induction ls generalizing depth with
  | nil => cases inside
  | cons text ls ih =>
      rw [openLines] at inside ⊢
      split at inside
      · next opened =>
        rw [if_pos opened, List.take_succ_cons, List.cons_append, openLines, if_pos opened,
          ih (Nat.lt_of_succ_lt_succ inside)]
      · next closed =>
        rw [if_neg closed, List.take_zero, List.nil_append]
        cases more with
        | nil => rfl
        | cons next more => rw [openLines, if_neg closed]

/-- Composite blocks take the lines up to their last brace. -/
def declaring : Cut where
  count text ls := if ['B', '\x7b'].isPrefixOf text then openLines (braceDepth text) ls else 0
  steady {text ls} more inside := by
    split at inside
    · next composite =>
      simp only [composite, if_true]
      exact openLines_steady more inside
    · next simple => simp only [simple]; rfl

def Passage.declaration (p : Passage) : Declaration :=
  ⟨p.head.text ++ p.tail.flatMap (' ' :: ·.text), p.span⟩

theorem gather_eq (token : List Char) (start : Nat) (last : Line) (depth : Int) (ls : List Line) :
    gather ⟨token, ⟨start, last.stop⟩⟩ depth ls =
      (⟨token ++ (ls.take (openLines depth (texts ls))).flatMap (' ' :: ·.text),
        ⟨start, ((ls.take (openLines depth (texts ls))).getLastD last).stop⟩⟩,
        ls.drop (openLines depth (texts ls))) := by
  induction ls generalizing token last depth with
  | nil => simp [gather]
  | cons l ls ih =>
      rw [gather, texts, List.map_cons, openLines]
      split
      · rw [ih, ← texts, List.take_succ_cons, List.drop_succ_cons, List.flatMap_cons,
          List.getLastD_cons, List.append_assoc]
      · simp

theorem nextDeclaration_eq (l : Line) (ls : List Line) :
    nextDeclaration l ls =
      (Passage.declaration ⟨l, ls.take (declaring.count l.text (texts ls))⟩,
        ls.drop (declaring.count l.text (texts ls))) := by
  unfold nextDeclaration
  simp only [declaring]
  split
  · exact gather_eq l.text l.start l _ ls
  · simp [Passage.declaration, Passage.span, Passage.last, Line.span]

theorem declarations_eq (ls : List Line) :
    declarations ls = (declaring.passages ls).map (·.declaration) := by
  induction ls using Cut.passages.induct declaring with
  | case1 => rw [declarations, Cut.passages]; rfl
  | case2 l ls ih =>
      rw [declarations, nextDeclaration_eq, Cut.passages_cons, List.map_cons, ih]

end Declaring

section Connecting

theorem takeWhile_steady {p : List Char → Bool} {ls : List (List Char)} (more : List (List Char))
    (inside : (ls.takeWhile p).length < ls.length) :
    (ls.take ((ls.takeWhile p).length + 1) ++ more).takeWhile p = ls.takeWhile p := by
  induction ls with
  | nil => cases inside
  | cons text ls ih =>
      rw [List.takeWhile_cons] at inside ⊢
      split at inside
      · next pass =>
        rw [if_pos pass, List.length_cons, List.take_succ_cons, List.cons_append,
          List.takeWhile_cons_of_pos pass, ih (Nat.lt_of_succ_lt_succ inside)]
      · next stop => simp [stop]

/-- Groups take the lines up to their bracket. -/
def connecting (blocks : Registry) : Cut where
  count text ls :=
    if (statement blocks text).opensGroup then (ls.takeWhile (· != [']'])).length + 1 else 0
  steady {text ls} more inside := by
    split at inside
    · next opens =>
      simp only [opens, if_true]
      rw [takeWhile_steady more (Nat.lt_of_succ_lt inside)]
    · next simple => simp only [simple]; rfl

theorem tail_of_simple {blocks : Registry} {p : Passage} {ls : List Line}
    (member : p ∈ (connecting blocks).passages ls)
    (simple : (statement blocks p.head.text).opensGroup = false) : p.tail = [] := by
  obtain ⟨behind, tail⟩ := (connecting blocks).tail_of_mem_passages member
  rw [tail]
  simp only [connecting, simple]
  rfl

namespace Walk
variable (blocks : Registry)

/-- The walk over a passage. -/
def pass (w : Walk) (p : Passage) : Walk := (w.step blocks p.head p.tail).1

theorem step_passage (w : Walk) (l : Line) (ls : List Line) :
    w.step blocks l ls =
      (w.pass blocks ⟨l, ls.take ((connecting blocks).count l.text (texts ls))⟩,
        ls.drop ((connecting blocks).count l.text (texts ls))) := by
  rw [pass]
  simp only [connecting]
  cases opens : (statement blocks l.text).opensGroup with
  | false =>
      have simple : (statement blocks l.text).opensGroup = true → isClosed [] = true := by
        rw [opens]
        exact nofun
      have alone := step_append simple w ls
      rw [List.nil_append, step_left, opens] at alone
      exact alone
  | true =>
      rw [if_pos rfl]
      cases closed : isClosed ls with
      | false =>
          have whole := (groupBody_unclosed closed []).1
          have taken : ls.takeWhile (·.text != [']']) = ls := congrArg Prod.fst whole
          have past : ls.length ≤ ((texts ls).takeWhile (· != [']'])).length + 1 := by
            rw [texts, List.takeWhile_map, List.length_map]
            exact (congrArg List.length taken).ge.trans (Nat.le_succ _)
          rw [List.take_of_length_le past, List.drop_of_length_le past]
          refine Prod.ext rfl ?_
          rw [step_left, if_pos opens, whole]
      | true =>
          obtain ⟨body, bracket, rest, rfl, closes, others⟩ := exists_bracket closed
          have pass : ∀ text ∈ texts body, (text != [']']) = true := by
            simpa [texts] using others
          have stop : ((texts (body ++ bracket :: rest)).takeWhile (· != [']'])).length + 1 =
              (body ++ [bracket]).length := by
            rw [texts, List.map_append, List.map_cons, ← texts,
              List.takeWhile_append_of_pos pass, List.takeWhile_cons_of_neg (by simp [closes])]
            simp [texts]
          have ends : isClosed (body ++ [bracket]) = true := by simp [isClosed, closes]
          have nothing : (w.step blocks l (body ++ [bracket])).2 = [] := by
            rw [step_left, if_pos opens, groupBody_eq closes others]
          rw [stop, ← List.singleton_append, ← List.append_assoc, List.take_left, List.drop_left,
            step_append fun _ => ends, nothing, List.nil_append]

theorem run_eq (w : Walk) (ls : List Line) :
    w.run blocks ls = ((connecting blocks).passages ls).foldl (pass blocks) w := by
  induction w, ls using Walk.run.induct blocks with
  | case1 w => rw [Walk.run, Cut.passages]; rfl
  | case2 w l ls ih =>
      rw [Walk.run, ih, Cut.passages_cons, List.foldl_cons, step_passage]

end Walk
end Connecting
end Flowchart.Script
