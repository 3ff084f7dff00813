import Flowchart.Proofs.Script.Effect
import Flowchart.Proofs.Script.Reload
/-! More lines behind the structure of a script. They add connections behind those that are made
already: only a group that is not closed takes any of them, and it goes on where it ended. -/
namespace Flowchart.Script
open Flowchart.Text

section Edges

theorem prefix_foldl_insertEdge (edges made : List Edge) :
    edges <+: made.foldl insertEdge edges := by
  induction made generalizing edges with
  | nil => exact List.prefix_refl edges
  | cons e made ih =>
      refine List.IsPrefix.trans ?_ (ih (insertEdge edges e))
      rw [insertEdge]
      split
      · exact List.prefix_refl edges
      · exact List.prefix_append edges [e]

theorem foldl_insertEdge_mono {made more : List Edge} (part : made <+: more) (edges : List Edge) :
    made.foldl insertEdge edges <+: more.foldl insertEdge edges := by
  obtain ⟨later, rfl⟩ := part
  rw [List.foldl_append]
  exact prefix_foldl_insertEdge _ later

end Edges

section Body
variable (blocks : Registry)

theorem bodyMade_append (anchor : Nat) (group : Arrow) (label : Option String)
    (body more : List Line) :
    bodyMade blocks anchor group label body <+:
      bodyMade blocks anchor group label (body ++ more) := by
  induction body generalizing label with
  | nil => exact List.nil_prefix
  | cons l body ih =>
      rw [List.cons_append, bodyMade, bodyMade]
      cases arrow? l.text with
      | some arrow => exact ih arrow.label
      | none =>
          cases blocks.resolve? l.text with
          | some block => exact List.cons_prefix_cons.mpr ⟨rfl, ih none⟩
          | none => exact ih none

theorem groupMade_mono (anchor : Option Nat) (group : Arrow) {body longer : List Line}
    (part : body <+: longer) :
    groupMade blocks anchor group none body <+: groupMade blocks anchor group none longer := by
  obtain ⟨more, rfl⟩ := part
  cases anchor with
  | none => exact List.prefix_refl _
  | some anchor => exact bodyMade_append blocks anchor group none body more

end Body

section Lines
variable {ls : List Line}

theorem exists_separator (separated : ∃ l ∈ ls, l.isSeparator = true) :
    ∃ declared separator structural, ls = declared ++ separator :: structural ∧
      separator.isSeparator = true ∧ ∀ l ∈ declared, l.isSeparator = false := by
  obtain ⟨separator, found⟩ := Option.isSome_iff_exists.mp (List.find?_isSome.mpr separated)
  obtain ⟨dots, declared, structural, split, solid⟩ := List.find?_eq_some_iff_append.mp found
  exact ⟨declared, separator, structural, split, dots, by simpa using solid⟩

/-- Lines behind a script that has a separator are lines of its structure. -/
theorem phases_append (separated : ∃ l ∈ ls, l.isSeparator = true) (more : List Line) :
    phases (ls ++ more) = ((phases ls).1, (phases ls).2 ++ more) := by
  obtain ⟨declared, separator, structural, rfl, dots, solid⟩ := exists_separator separated
  rw [List.append_assoc, List.cons_append, phases_eq dots solid, phases_eq dots solid]

theorem exists_bracket (closed : isClosed ls = true) :
    ∃ body bracket rest, ls = body ++ bracket :: rest ∧ bracket.text = [']'] ∧
      ∀ l ∈ body, l.text ≠ [']'] := by
  obtain ⟨bracket, found⟩ :=
    Option.isSome_iff_exists.mp (List.find?_isSome.mpr (List.any_eq_true.mp closed))
  obtain ⟨closes, body, rest, split, others⟩ := List.find?_eq_some_iff_append.mp found
  exact ⟨body, bracket, rest, split, by simpa using closes, by simpa using others⟩

/-- The first bracket closes a group. -/
theorem groupBody_eq {body rest : List Line} {bracket : Line} (closes : bracket.text = [']'])
    (others : ∀ l ∈ body, l.text ≠ [']']) : groupBody (body ++ bracket :: rest) = (body, rest) := by
  have pass : ∀ l ∈ body, (l.text != [']']) = true := by simpa using others
  rw [groupBody, List.takeWhile_append_of_pos pass, List.dropWhile_append_of_pos pass,
    List.takeWhile_cons_of_neg (by simp [closes]), List.dropWhile_cons_of_neg (by simp [closes]),
    List.append_nil]
  rfl

/-- A group that is closed does not read past its bracket. -/
theorem groupBody_append (closed : isClosed ls = true) (more : List Line) :
    groupBody (ls ++ more) = ((groupBody ls).1, (groupBody ls).2 ++ more) := by
  obtain ⟨body, bracket, rest, rfl, closes, others⟩ := exists_bracket closed
  rw [List.append_assoc, List.cons_append, groupBody_eq closes others, groupBody_eq closes others]

theorem isClosed_append (closed : isClosed ls = true) (more : List Line) :
    isClosed (ls ++ more) = true := by
  rw [isClosed, List.any_append]
  exact Bool.or_eq_true_iff.mpr (.inl closed)

/-- A group that is not closed takes all lines, and more when there are more. -/
theorem groupBody_unclosed (closed : isClosed ls = false) (more : List Line) :
    groupBody ls = (ls, []) ∧ (groupBody ls).1 <+: (groupBody (ls ++ more)).1 := by
  have pass : ∀ l ∈ ls, (l.text != [']']) = true := by
    simpa [isClosed, bne] using closed
  rw [groupBody, groupBody, List.takeWhile_append_of_pos pass, List.takeWhile_eq_self_iff.mpr pass,
    List.dropWhile_eq_nil_iff.mpr pass]
  exact ⟨rfl, List.prefix_append ls _⟩

end Lines

namespace Statement
variable {said : Statement} {ls : List Line} (closed : said.opensGroup = true → isClosed ls = true)
include closed

theorem made_append (blocks : Registry) (c : Cursor) (more : List Line) :
    said.made blocks c (ls ++ more) = said.made blocks c ls := by
  cases said with
  | group arrow => simp only [made, groupBody_append (closed rfl)]
  | merge reference arrow => simp only [made, groupBody_append (closed rfl)]
  | inlineBack source arrow target => rfl
  | back arrow target => rfl
  | arrow arrow => rfl
  | visit block => rfl
  | unknown => rfl

theorem complaints_append (blocks : Registry) (c : Cursor) (l : Line) (more : List Line) :
    said.complaints blocks c l (ls ++ more) = said.complaints blocks c l ls := by
  have same (opens : said.opensGroup = true) :
      groupComplaints blocks l (ls ++ more) = groupComplaints blocks l ls := by
    rw [groupComplaints, groupComplaints, groupBody_append (closed opens),
      isClosed_append (closed opens), closed opens]
  cases said with
  | group arrow => simp only [complaints, same rfl]
  | merge reference arrow => simp only [complaints, same rfl]
  | inlineBack source arrow target => rfl
  | back arrow target => rfl
  | arrow arrow => rfl
  | visit block => rfl
  | unknown => rfl

end Statement

namespace Walk
variable (blocks : Registry)

theorem edges_step (w : Walk) (l : Line) (ls : List Line) :
    w.edges <+: (w.step blocks l ls).1.edges := by
  rw [step_eq]
  exact prefix_foldl_insertEdge _ _

/-- A walk keeps the connections that it has made, in order. -/
theorem edges_run (w : Walk) (ls : List Line) : w.edges <+: (w.run blocks ls).edges := by
  induction w, ls using Walk.run.induct blocks with
  | case1 w => rw [Walk.run]
  | case2 w l ls ih =>
      rw [Walk.run]
      exact (edges_step blocks w l ls).trans ih

variable {blocks}

/-- A statement whose group, if any, is closed leaves the lines behind it alone. -/
theorem step_append {l : Line} {ls : List Line}
    (closed : (statement blocks l.text).opensGroup = true → isClosed ls = true) (w : Walk)
    (more : List Line) :
    w.step blocks l (ls ++ more) = ((w.step blocks l ls).1, (w.step blocks l ls).2 ++ more) := by
  refine Prod.ext ?_ ?_
  · rw [step_eq, step_eq, Statement.made_append closed, Statement.complaints_append closed]
  · rw [step_left, step_left]
    cases opens : (statement blocks l.text).opensGroup with
    | true => rw [if_pos rfl, if_pos rfl, groupBody_append (closed opens)]
    | false => rfl

/-- What a group that is not closed makes comes first when it goes on. -/
theorem step_unclosed {l : Line} {ls : List Line}
    (opens : (statement blocks l.text).opensGroup = true) (closed : isClosed ls = false) (w : Walk)
    (more : List Line) :
    (w.step blocks l ls).2 = [] ∧
      (w.step blocks l ls).1.edges <+: (w.step blocks l (ls ++ more)).1.edges := by
  obtain ⟨whole, part⟩ := groupBody_unclosed closed more
  constructor
  · rw [step_left, if_pos opens, whole]
  · rw [step_eq, step_eq]
    refine foldl_insertEdge_mono ?_ w.edges
    cases said : statement blocks l.text with
    | group arrow => exact groupMade_mono blocks _ _ part
    | merge reference arrow =>
        simp only [Statement.made]
        split
        · exact (List.prefix_append_right_inj _).mpr (groupMade_mono blocks _ _ part)
        · exact groupMade_mono blocks _ _ part
    | inlineBack source arrow target => simp [said, Statement.opensGroup] at opens
    | back arrow target => simp [said, Statement.opensGroup] at opens
    | arrow arrow => simp [said, Statement.opensGroup] at opens
    | visit block => simp [said, Statement.opensGroup] at opens
    | unknown => simp [said, Statement.opensGroup] at opens

/-- The connections of a walk come first when there are more lines. -/
theorem run_append (w : Walk) (ls more : List Line) :
    (w.run blocks ls).edges <+: (w.run blocks (ls ++ more)).edges := by
  induction w, ls using Walk.run.induct blocks with
  | case1 w =>
      rw [Walk.run, List.nil_append]
      exact edges_run blocks w more
  | case2 w l ls ih =>
      rw [List.cons_append, Walk.run, Walk.run]
      by_cases closed : (statement blocks l.text).opensGroup = true → isClosed ls = true
      · rw [step_append closed]
        exact ih
      · -- the group takes the lines to the end, so the shorter walk ends with it
        obtain ⟨opens, unclosed⟩ := Classical.not_imp.mp closed
        obtain ⟨left, part⟩ := step_unclosed opens (Bool.eq_false_iff.mpr unclosed) w more
        rw [left, Walk.run]
        exact part.trans (edges_run blocks _ _)

end Walk

/-- Whatever is written behind a script that has a separator: the blocks stay the same, and the
connections that the script made come first, as they are and in order. -/
theorem parse_append {source : String}
    (separated : ∃ l ∈ lines source.toList, l.isSeparator = true) (more : String) :
    (parse (source ++ "\n" ++ more)).blocks = (parse source).blocks ∧
      (parse source).edges <+: (parse (source ++ "\n" ++ more)).edges := by
  have text : (source ++ "\n" ++ more).toList = source.toList ++ '\n' :: more.toList := by simp
  have phased := phases_append separated
    (trimLines (byteSize source.toList + 1) (rawLines more.toList))
  rw [← lines_append, ← text] at phased
  have blocks : (parse (source ++ "\n" ++ more)).blocks = (parse source).blocks := by
    rw [parse, phased]
    rfl
  refine ⟨blocks, ?_⟩
  rw [parse_edges, parse_edges, blocks, phased]
  exact Walk.run_append _ _ _

/-- A group that is open at the end takes the lines that are appended, and after the bracket an
arrow and a repeated connection follow. -/
theorem parse_append_open_group :
    let source := "ts()\np[Ask]\nte()\n...\nts()\na*go*>\nma*or*>[\np[Ask]"
    let more := "te()\n]\np[Ask]\na>\nte()\np[Ask]\na>\nte()"
    (∃ l ∈ lines source.toList, l.isSeparator = true) ∧
      (parse (source ++ "\n" ++ more)).blocks = (parse source).blocks ∧
      (parse source).edges <+: (parse (source ++ "\n" ++ more)).edges ∧
      (parse source).edges = [⟨0, 1, some "or", false⟩] ∧
      (parse (source ++ "\n" ++ more)).edges = [⟨0, 1, some "or", false⟩, ⟨0, 2, some "or", false⟩,
        ⟨0, 1, some "go", false⟩, ⟨1, 2, none, false⟩] := by
  intro source more
  have separated : ∃ l ∈ lines source.toList, l.isSeparator = true := by decide +kernel
  obtain ⟨blocks, edges⟩ := parse_append separated more
  exact ⟨separated, blocks, edges, by decide +kernel, by decide +kernel⟩

end Flowchart.Script
