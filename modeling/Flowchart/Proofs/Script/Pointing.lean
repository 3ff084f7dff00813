import Flowchart.Report
import Flowchart.Proofs.Script.Place
/-! Where diagnostics point. Each is about a passage of its phase, and they come in the order of the
source: a group complains about its opening first and about its members after that. -/
namespace Flowchart.Script
open Flowchart.Text

/-- What a diagnostic quotes from the source. -/
def Diagnostic.quote? : Diagnostic → Option String
  | .unrecognizedBlock text _ | .unrecognizedStatement text _ => some text
  | .unresolvedReference _ _ _ | .missingSource _ | .unclosedGroup _ => none

/-- A diagnostic points at a passage, and what it quotes is there. -/
structure Diagnostic.Concerns (d : Diagnostic) (p : Passage) : Prop where
  span : d.span = p.span
  quote : ∀ text ∈ d.quote?, text.toList = p.declaration.token

theorem Diagnostic.Concerns.of_unquoted {d : Diagnostic} {p : Passage} (unquoted : d.quote? = none)
    (span : d.span = p.span) : d.Concerns p :=
  ⟨span, by simp [unquoted]⟩

/-- What is reported about passages, in their order. -/
inductive Reports : List Passage → List Diagnostic → Prop
  | done : Reports [] []
  | here {p : Passage} {ps : List Passage} {d : Diagnostic} {ds : List Diagnostic}
      (concerns : d.Concerns p) (more : Reports (p :: ps) ds) : Reports (p :: ps) (d :: ds)
  | next {p : Passage} {ps : List Passage} {ds : List Diagnostic} (later : Reports ps ds) :
      Reports (p :: ps) ds

namespace Reports
variable {ps qs : List Passage} {ds es : List Diagnostic}

theorem nothing (ps : List Passage) : Reports ps [] := by
  induction ps with
  | nil => exact .done
  | cons p ps ih => exact .next ih

theorem append (first : Reports ps ds) (second : Reports qs es) :
    Reports (ps ++ qs) (ds ++ es) := by
  induction first with
  | done => exact second
  | here concerns more ih => exact .here concerns ih
  | next later ih => exact .next ih

theorem extend (first : Reports ps ds) (qs : List Passage) : Reports (ps ++ qs) ds := by
  have all := first.append (.nothing qs)
  rwa [List.append_nil] at all

theorem singleton {p : Passage} (concerns : ∀ d ∈ ds, d.Concerns p) : Reports [p] ds := by
  induction ds with
  | nil => exact .nothing [p]
  | cons d ds ih =>
      obtain ⟨first, others⟩ := List.forall_mem_cons.mp concerns
      exact .here first (ih others)

theorem concerns (reports : Reports ps ds) : ∀ d ∈ ds, ∃ p ∈ ps, d.Concerns p := by
  induction reports with
  | done => exact List.forall_mem_nil _
  | here concerns more ih => exact List.forall_mem_cons.mpr ⟨⟨_, List.mem_cons_self, concerns⟩, ih⟩
  | next later ih =>
      intro d member
      obtain ⟨p, inside, concerns⟩ := ih d member
      exact ⟨p, List.mem_cons_of_mem _ inside, concerns⟩

/-- Diagnostics about passages in order are in order. -/
theorem sorted (reports : Reports ps ds) (order : ps.Pairwise (·.span.start ≤ ·.span.start)) :
    ds.Pairwise (·.span.start ≤ ·.span.start) := by
  induction reports with
  | done => exact List.Pairwise.nil
  | next later ih => exact ih (List.pairwise_cons.mp order).2
  | @here p ps d ds concerns more ih =>
      refine List.pairwise_cons.mpr ⟨fun e member => ?_, ih order⟩
      obtain ⟨q, inside, about⟩ := more.concerns e member
      rw [concerns.span, about.span]
      rcases List.mem_cons.mp inside with rfl | later
      · exact Nat.le_refl _
      · exact (List.pairwise_cons.mp order).1 q later

end Reports

section Phases

theorem reports_declarations (ps : List Passage) :
    Reports ps (declarationDiagnostics (ps.map (·.declaration))) := by
  induction ps with
  | nil => exact .done
  | cons p ps ih =>
      rw [declarationDiagnostics, List.map_cons, List.filterMap_cons, ← declarationDiagnostics]
      split
      · exact .next ih
      · next d made =>
        split at made
        · obtain rfl := Option.some.inj made
          exact .here ⟨rfl, by simp [Diagnostic.quote?]⟩ (.next ih)
        · cases made

variable (blocks : Registry)

theorem concerns_stranger (token : List Char) (l : Line) :
    ∀ d ∈ stranger blocks token l, d.Concerns l.alone := by
  intro d member
  rw [stranger] at member
  split at member
  · obtain rfl := List.mem_singleton.mp member
    exact .of_unquoted rfl rfl
  · cases member

theorem reports_members (body : List Line) :
    Reports (body.map (·.alone)) (body.flatMap (memberComplaints blocks)) := by
  induction body with
  | nil => exact .done
  | cons l body ih =>
      have first : Reports [l.alone] (memberComplaints blocks l) := by
        rw [memberComplaints]
        split
        · exact .nothing _
        · exact .singleton (concerns_stranger blocks l.text l)
      exact first.append ih

theorem reports_group {l : Line} {ds : List Diagnostic} (first : ∀ d ∈ ds, d.Concerns l.alone)
    (ls : List Line) : Reports ((l :: ls).map (·.alone)) (ds ++ groupComplaints blocks l ls) := by
  have opening : Reports [l.alone] (ds ++ if isClosed ls then [] else [.unclosedGroup l.span]) := by
    refine .singleton fun d member => ?_
    rcases List.mem_append.mp member with other | unclosed
    · exact first d other
    · split at unclosed
      · cases unclosed
      · obtain rfl := List.mem_singleton.mp unclosed
        exact .of_unquoted rfl rfl
  have lines : (l :: ls).map (·.alone) = [l.alone] ++
      ((groupBody ls).1.map (·.alone) ++ (ls.dropWhile (·.text != [']'])).map (·.alone)) := by
    rw [← List.map_append, groupBody, List.takeWhile_append_dropWhile]
    rfl
  rw [lines, groupComplaints, ← List.append_assoc ds]
  exact opening.append ((reports_members blocks (groupBody ls).1).extend _)

/-- A statement complains about its line, and about the lines of its group after that. -/
theorem reports_complaints (c : Cursor) (l : Line) (ls : List Line) :
    Reports ((l :: ls).map (·.alone))
      ((statement blocks l.text).complaints blocks c l ls) := by
  have here {ds : List Diagnostic} (concerns : ∀ d ∈ ds, d.Concerns l.alone) :
      Reports ((l :: ls).map (·.alone)) ds :=
    (Reports.singleton concerns).extend (ls.map Line.alone)
  have missing : ∀ d ∈ [Diagnostic.missingSource l.span], d.Concerns l.alone :=
    List.forall_mem_singleton.mpr (Diagnostic.Concerns.of_unquoted rfl rfl)
  cases statement blocks l.text with
  | inlineBack source arrow target => exact here (concerns_stranger blocks target l)
  | back arrow target =>
      simp only [Statement.complaints]
      split
      · exact here missing
      · exact here (concerns_stranger blocks target l)
  | group arrow =>
      refine reports_group blocks ?_ ls
      split
      · exact missing
      · exact List.forall_mem_nil _
  | merge reference arrow => exact reports_group blocks (concerns_stranger blocks reference l) ls
  | arrow arrow => exact .nothing _
  | visit block => exact .nothing _
  | unknown =>
      refine here (List.forall_mem_singleton.mpr ⟨rfl, fun text quoted => ?_⟩)
      obtain rfl := Option.some.inj quoted
      simp [Passage.declaration, Line.alone]

theorem Walk.reports_run {w : Walk} {ps : List Passage} (before : Reports ps w.diagnostics)
    (ls : List Line) : Reports (ps ++ ls.map (·.alone)) (w.run blocks ls).diagnostics := by
  rw [run_eq]
  -- passage by passage, since a group complains about lines that are behind its own
  conv => arg 1; rw [← (connecting blocks).lines_passages ls]
  induction (connecting blocks).passages ls generalizing w ps with
  | nil => simpa using before
  | cons p passages ih =>
      have after : Reports (ps ++ p.lines.map (·.alone)) (w.pass blocks p).diagnostics := by
        rw [pass, step_eq]
        exact before.append (reports_complaints blocks w.cursor p.head p.tail)
      rw [List.flatMap_cons, List.map_append, ← List.append_assoc]
      exact ih after

end Phases

/-- The passages that a source is read by: those that declare, and each line that connects. -/
def sourcePassages (source : List Char) : List Passage :=
  declaring.passages (phases (lines source)).1 ++ (phases (lines source)).2.map (·.alone)

theorem reports_parse (source : String) :
    Reports (sourcePassages source.toList) (parse source).diagnostics := by
  have declared := reports_declarations (declaring.passages (phases (lines source.toList)).1)
  rw [← declarations_eq] at declared
  exact declared.append (Walk.reports_run (w := {}) _ .done _)

section Source
variable (source : List Char)

theorem lines_sourcePassages : (sourcePassages source).flatMap (·.lines) =
    (phases (lines source)).1 ++ (phases (lines source)).2 := by
  have alone : ((phases (lines source)).2.map (·.alone)).flatMap (·.lines) =
      (phases (lines source)).2 := by
    rw [List.flatMap_map]
    exact List.flatMap_singleton' _
  rw [sourcePassages, List.flatMap_append, Cut.lines_passages, alone]

theorem sourcePassages_sorted :
    (sourcePassages source).Pairwise (·.span.start ≤ ·.span.start) := by
  obtain ⟨solid, order⟩ := (laid_lines source).ordered
  have part : ((sourcePassages source).flatMap (·.lines)).Sublist (lines source) := by
    rw [lines_sourcePassages]
    conv => rhs; rw [phases_parts (lines source)]
    exact (List.Sublist.refl _).append (List.sublist_append_right _ _)
  have apart := (List.pairwise_flatMap.mp (order.sublist part)).2
  refine apart.imp_of_mem fun {p q} inside _ later => ?_
  have head : p.head ∈ (sourcePassages source).flatMap (·.lines) :=
    List.mem_flatMap.mpr ⟨p, inside, List.mem_cons_self⟩
  have long := (solid p.head (part.subset head)).2
  exact long.le.trans (later p.head List.mem_cons_self q.head List.mem_cons_self)

theorem infix_lines {p : Passage} (inside : p ∈ sourcePassages source) :
    p.lines <:+: lines source := by
  conv => rhs; rw [phases_parts (lines source)]
  rcases List.mem_append.mp inside with declared | connecting
  · have part : p.lines <:+: (phases (lines source)).1 := by
      conv => rhs; rw [← declaring.lines_passages (phases (lines source)).1]
      exact List.infix_of_mem_flatten (List.mem_map_of_mem declared)
    exact part.trans (List.prefix_append _ _).isInfix
  · obtain ⟨l, member, rfl⟩ := List.mem_map.mp connecting
    obtain ⟨before, behind, split⟩ := List.append_of_mem member
    have part : [l] <:+: (phases (lines source)).2 := ⟨before, behind, by simp [split]⟩
    rw [← List.append_assoc]
    exact part.trans (List.suffix_append _ _).isInfix

end Source

theorem charCount?_append (front back : List Char) :
    Report.charCount? (byteSize front) (front ++ back) = some front.length := by
  induction front with
  | nil => simp [byteSize, Report.charCount?]
  | cons c front ih =>
      obtain ⟨bytes, size⟩ := Nat.exists_eq_succ_of_ne_zero
        (byteSize_pos (List.cons_ne_nil c front)).ne'
      have fits : c.utf8Size ≤ bytes + 1 := (Nat.le_add_right _ _).trans size.le
      have left : bytes + 1 - c.utf8Size = byteSize front := by
        rw [← Nat.succ_eq_add_one, ← size, byteSize, Nat.add_sub_cancel_left]
      rw [size, List.cons_append, Report.charCount?, if_pos fits, left, ih]
      rfl

/-- A passage that a source is read by takes up a piece of it. -/
theorem exists_slice {source : List Char} {p : Passage} (inside : p ∈ sourcePassages source) :
    ∃ before slice behind, source = before ++ (slice ++ behind) ∧
      p.span = ⟨byteSize before, byteSize (before ++ slice)⟩ ∧ Solid slice ∧
      unbroken slice = p.declaration.token := by
  obtain ⟨before, behind, split⟩ := infix_lines source inside
  have laid := laid_lines source
  rw [← split, List.append_assoc] at laid
  obtain ⟨front, rest, rfl, here⟩ := laid.skip
  obtain ⟨gap, slice, rest, rfl, -, -, start, stop, solid, token⟩ := here.passage
  refine ⟨front ++ gap, slice, rest, by rw [List.append_assoc], ?_, solid, token⟩
  rw [Passage.span, stop, start, byteSize_append, byteSize_append, byteSize_append, Nat.zero_add]

/-- Every diagnostic points at a piece of the source that begins and ends with something visible.
What it quotes is that piece, with a space for each break, and a report finds both ends of it among
the characters. Diagnostics come in the order of the source. -/
theorem parse_diagnostics_placed (source : String) :
    (parse source).diagnostics.Pairwise (·.span.start ≤ ·.span.start) ∧
      ∀ d ∈ (parse source).diagnostics,
        d.span.start < d.span.stop ∧ d.span.stop ≤ byteSize source.toList ∧
        ∃ before slice behind, source.toList = before ++ (slice ++ behind) ∧
          d.span = ⟨byteSize before, byteSize (before ++ slice)⟩ ∧
          (∃ c ∈ slice.head?, isBlank c = false) ∧ (∃ c ∈ slice.getLast?, isBlank c = false) ∧
          (∀ text ∈ d.quote?, text.toList = unbroken slice) ∧
          Report.charCount? d.span.start source.toList = some before.length ∧
          Report.charCount? d.span.stop source.toList = some (before ++ slice).length := by
  have reports := reports_parse source
  refine ⟨reports.sorted (sourcePassages_sorted source.toList), fun d member => ?_⟩
  obtain ⟨p, inside, concerns⟩ := reports.concerns d member
  obtain ⟨before, slice, behind, split, span, solid, token⟩ := exists_slice inside
  have placed : d.span = ⟨byteSize before, byteSize (before ++ slice)⟩ := concerns.span.trans span
  obtain ⟨head, tail⟩ := trimmed_iff.mp solid.trimmed
  have first := List.head?_eq_some_head solid.ne_nil
  have last := List.getLast?_eq_some_getLast solid.ne_nil
  have size : byteSize source.toList = byteSize (before ++ slice) + byteSize behind := by
    rw [split, ← List.append_assoc, byteSize_append]
  have long : byteSize before < byteSize (before ++ slice) := by
    rw [byteSize_append]
    exact Nat.lt_add_of_pos_right (byteSize_pos solid.ne_nil)
  rw [placed]
  refine ⟨long, size.symm ▸ Nat.le_add_right _ _, before, slice, behind, split, rfl,
    ⟨_, first, head _ first⟩, ⟨_, last, tail _ last⟩, ?_, ?_, ?_⟩
  · exact fun text quoted => (concerns.quote text quoted).trans token.symm
  · rw [split]
    exact charCount?_append before _
  · rw [split, ← List.append_assoc]
    exact charCount?_append (before ++ slice) behind

end Flowchart.Script
