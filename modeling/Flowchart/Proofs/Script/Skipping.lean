import Flowchart.Proofs.Script.Moving
/-! What is skipped. A script says the same without its unrecognized passages, and whatever else
there is to report about it stays, at the places to which it moves up. -/
namespace Flowchart.Script
open Flowchart.Text

section Declaring

def Passage.isReadable (p : Passage) : Bool := (readBlock? p.declaration.token).isSome

theorem Passage.token_map (f : Nat → Nat) (p : Passage) :
    (p.map (·.moved f)).declaration.token = p.declaration.token := by
  simp only [declaration, map, Line.text_moved, List.flatMap_map]

/-- What cannot be read declares nothing. -/
theorem declaredBlocks_readable (f : Nat → Nat) (ps : List Passage) :
    declaredBlocks (((ps.filter (·.isReadable)).map (·.map (·.moved f))).map (·.declaration)) =
      declaredBlocks (ps.map (·.declaration)) := by
  suffices all : ∀ blocks : Registry,
      (((ps.filter (·.isReadable)).map (·.map (·.moved f))).map (·.declaration)).foldl
          Registry.add blocks =
        (ps.map (·.declaration)).foldl Registry.add blocks from all []
  intro blocks
  induction ps generalizing blocks with
  | nil => rfl
  | cons p ps ih =>
      have same : blocks.add (p.map (·.moved f)).declaration = blocks.add p.declaration := by
        rw [Registry.add, p.token_map, ← Registry.add]
      rw [List.filter_cons]
      cases readable : p.isReadable with
      | true =>
          rw [if_pos rfl, List.map_cons, List.map_cons, List.foldl_cons, same, ih]
          rfl
      | false =>
          have nothing : blocks.add p.declaration = blocks := by
            have none := Option.isNone_iff_eq_none.mp (Option.isSome_eq_false_iff.mp readable)
            rw [Registry.add, none]
          rw [List.map_cons, List.foldl_cons, nothing]
          exact ih blocks

theorem declarationDiagnostics_eq (ps : List Passage) :
    declarationDiagnostics (ps.map (·.declaration)) =
      (ps.filter (!·.isReadable)).map fun p =>
        .unrecognizedBlock (String.ofList p.declaration.token) p.span := by
  induction ps with
  | nil => rfl
  | cons p ps ih =>
      rw [declarationDiagnostics] at ih ⊢
      rw [List.map_cons, List.filterMap_cons, ih, List.filter_cons, Passage.isReadable]
      cases readBlock? p.declaration.token <;> rfl

theorem isUnrecognized_of_declared (ps : List Passage) :
    ∀ d ∈ declarationDiagnostics (ps.map (·.declaration)), d.isUnrecognized = true := by
  intro d member
  rw [declarationDiagnostics_eq] at member
  obtain ⟨p, -, rfl⟩ := List.mem_map.mp member
  rfl

/-- The spans of unrecognized declarations are those of their passages. -/
theorem unrecognized_declarations (ps : List Passage) :
    ((declarationDiagnostics (ps.map (·.declaration))).filter (·.isUnrecognized)).map (·.span) =
      (ps.filter (!·.isReadable)).map (·.span) := by
  rw [List.filter_eq_self.mpr (isUnrecognized_of_declared ps), declarationDiagnostics_eq,
    List.map_map]
  rfl

end Declaring

section Connecting
variable (blocks : Registry)

def Passage.isKnown (p : Passage) : Bool := statement blocks p.head.text != .unknown

theorem Passage.isKnown_eq_true {p : Passage} :
    p.isKnown blocks = true ↔ statement blocks p.head.text ≠ .unknown := by
  simp [isKnown]

theorem Passage.isKnown_eq_false {p : Passage} :
    p.isKnown blocks = false ↔ statement blocks p.head.text = .unknown := by
  simp [isKnown]

namespace Walk
variable {blocks} {f : Nat → Nat} {w v : Walk}

/-- A walk stands where another one does, and has the same to report but for what is unrecognized,
at other places. -/
structure Skips (f : Nat → Nat) (w v : Walk) : Prop where
  cursor : v.cursor = w.cursor
  edges : v.edges = w.edges
  diagnostics : v.diagnostics = (w.diagnostics.filter (!·.isUnrecognized)).map (·.moved f)

theorem pass_unknown (w : Walk) {p : Passage} (unknown : p.isKnown blocks = false) :
    w.pass blocks p = w.warn (.unrecognizedStatement (String.ofList p.head.text) p.head.span) := by
  rw [pass, step, (Passage.isKnown_eq_false blocks).mp unknown]

theorem Skips.skip (skips : Skips f w v) {p : Passage} (unknown : p.isKnown blocks = false) :
    Skips f (w.pass blocks p) v := by
  rw [pass_unknown w unknown]
  refine ⟨skips.cursor, skips.edges, ?_⟩
  rw [skips.diagnostics, warn, List.filter_append]
  simp [Diagnostic.isUnrecognized]

theorem Skips.follow (skips : Skips f w v) {p : Passage} (known : p.isKnown blocks = true)
    (rigid : ∀ l ∈ p.lines, l.Rigid f) :
    Skips f (w.pass blocks p) (v.pass blocks (p.map (·.moved f))) := by
  have said := (Passage.isKnown_eq_true blocks).mp known
  obtain ⟨first, others⟩ := List.forall_mem_cons.mp rigid
  have recognized := List.filter_eq_self.mpr fun d member => congrArg Bool.not
    (recognized_complaints blocks said w.cursor p.head p.tail d member)
  rw [Walk.pass, Walk.pass, step_eq, step_eq]
  simp only [Passage.map, Line.text_moved, skips.cursor, Statement.made_moved,
    Statement.complaints_moved _ _ first others]
  constructor
  case cursor => rfl
  case edges => simp only [extend, skips.edges]
  case diagnostics =>
    simp only [extend, skips.diagnostics, List.filter_append, List.map_append]
    rw [recognized]

theorem Skips.passes (skips : Skips f w v) {ps : List Passage}
    (rigid : ∀ p ∈ ps, p.isKnown blocks = true → ∀ l ∈ p.lines, l.Rigid f) :
    Skips f (ps.foldl (pass blocks) w)
      (((ps.filter (·.isKnown blocks)).map (·.map (·.moved f))).foldl (pass blocks) v) := by
  induction ps generalizing w v with
  | nil => exact skips
  | cons p ps ih =>
      obtain ⟨first, others⟩ := List.forall_mem_cons.mp rigid
      rw [List.filter_cons]
      cases known : p.isKnown blocks with
      | true => exact ih (skips.follow known (first known)) others
      | false => exact ih (skips.skip known) others

/-- The spans of unrecognized statements are those of their passages. -/
theorem unrecognized_passes (w : Walk) {ps : List Passage}
    (alone : ∀ p ∈ ps, p.isKnown blocks = false → p.tail = []) :
    ((ps.foldl (Walk.pass blocks) w).diagnostics.filter (·.isUnrecognized)).map (·.span) =
      (w.diagnostics.filter (·.isUnrecognized)).map (·.span) ++
        (ps.filter (!·.isKnown blocks)).map (·.span) := by
  induction ps generalizing w with
  | nil => simp
  | cons p ps ih =>
      obtain ⟨first, others⟩ := List.forall_mem_cons.mp alone
      rw [List.foldl_cons, ih _ others, List.filter_cons]
      cases known : p.isKnown blocks with
      | true =>
          have said := (Passage.isKnown_eq_true blocks).mp known
          have recognized : ∀ d ∈ (statement blocks p.head.text).complaints blocks w.cursor p.head
              p.tail, ¬ d.isUnrecognized = true := by
            intro d member
            rw [recognized_complaints blocks said w.cursor p.head p.tail d member]
            exact Bool.false_ne_true
          rw [Walk.pass, step_eq, extend, List.filter_append, List.filter_eq_nil_iff.mpr recognized,
            List.append_nil]
          rfl
      | false =>
          have span : p.span = p.head.span := by
            rw [Passage.span, Passage.last, first known]
            rfl
          rw [pass_unknown w known, warn, List.filter_append, List.map_append, List.append_assoc,
            Bool.not_false, if_pos rfl, List.map_cons, span]
          rfl

end Walk
end Connecting

section Marks

/-- Lines of a passage are between its first and its last. -/
theorem Passage.covers {p : Passage} (order : p.lines.Pairwise (·.stop ≤ ·.start))
    (some : ∀ l ∈ p.lines, l.start < l.stop) {l : Line} (member : l ∈ p.lines) :
    p.span.start ≤ l.start ∧ l.stop ≤ p.span.stop := by
  constructor
  · rcases List.mem_cons.mp member with rfl | later
    · exact Nat.le_refl _
    · have first := some p.head List.mem_cons_self
      exact first.le.trans ((List.pairwise_cons.mp order).1 l later)
  · obtain ⟨front, split⟩ := p.exists_last
    rw [split] at order some member
    rcases List.mem_append.mp member with earlier | last
    · have long := some p.last (List.mem_append_right front List.mem_cons_self)
      have apart := (List.pairwise_append.mp order).2.2 l earlier p.last List.mem_cons_self
      exact apart.trans long.le
    · rw [List.mem_singleton.mp last]
      exact Nat.le_refl _

/-- Passages in order, some of them marked. The spans of those that are marked meet their lines and
no others. -/
theorem meets_marked {marks : List (Passage × Bool)}
    (order : (marks.flatMap (·.1.lines)).Pairwise (·.stop ≤ ·.start))
    (some : ∀ l ∈ marks.flatMap (·.1.lines), l.start < l.stop) {m : Passage × Bool}
    (member : m ∈ marks) {l : Line} (inside : l ∈ m.1.lines) :
    ((marks.filter (·.2)).map (·.1.span)).any (·.meets l.span) = m.2 := by
  obtain ⟨within, apart⟩ := List.pairwise_flatMap.mp order
  have long {n : Passage × Bool} (there : n ∈ marks) : ∀ l ∈ n.1.lines, l.start < l.stop :=
    fun l inside => some l (List.mem_flatMap.mpr ⟨n, there, inside⟩)
  have here := long member l inside
  rw [Bool.eq_iff_iff, List.any_map, List.any_eq_true]
  constructor
  · rintro ⟨n, marked, meets⟩
    obtain ⟨there, mark⟩ := List.mem_filter.mp marked
    by_cases same : n = m
    · exact same ▸ mark
    · have first := long there n.1.head List.mem_cons_self
      have last := long there n.1.last n.1.last_mem
      obtain ⟨starts, stops⟩ : n.1.head.start < l.stop ∧ l.start < n.1.last.stop :=
        Span.meets_iff.mp meets
      -- another passage ends before the line or begins behind it
      rcases pairwise_or apart there member same with before | behind
      · have gap := before n.1.last n.1.last_mem l inside
        omega
      · have gap := behind l inside n.1.head List.mem_cons_self
        omega
  · intro mark
    obtain ⟨front, back⟩ := Passage.covers (within m member) (long member) inside
    exact ⟨m, List.mem_filter.mpr ⟨member, mark⟩,
      Span.meets_iff.mpr ⟨front.trans_lt here, here.trans_le back⟩⟩

end Marks

section Phases

/-- Leaving out lines other than the separator leaves out lines of the phases. -/
theorem phases_filter {keep : Line → Bool} {ls : List Line}
    (separator : ∀ l ∈ (ls.dropWhile (!·.isSeparator)).take 1, keep l = true) :
    phases (ls.filter keep) = ((phases ls).1.filter keep, (phases ls).2.filter keep) := by
  induction ls with
  | nil => rfl
  | cons l ls ih =>
      cases dots : l.isSeparator with
      | true =>
          have kept := separator l (by simp [dots])
          simp [phases, dots, kept]
      | false =>
          have later := ih (by simpa [dots] using separator)
          simp only [phases, Prod.mk.injEq] at later
          cases kept : keep l <;> simp [phases, dots, kept, later]

theorem phases_moved (f : Nat → Nat) (ls : List Line) :
    phases (ls.map (·.moved f)) =
      ((phases ls).1.map (·.moved f), (phases ls).2.map (·.moved f)) := by
  rw [phases, phases, List.takeWhile_map, List.dropWhile_map, ← List.map_drop]
  rfl

end Phases

section Source

/-- The places of what is unrecognized in a source. -/
def skippedSpans (source : String) : List Span :=
  ((parse source).diagnostics.filter (·.isUnrecognized)).map (·.span)

/-- Nothing in a line, or a piece of the source, is unrecognized. -/
def isLeft (source : String) (l : Line) : Bool := !(skippedSpans source).any (·.meets l.span)

/-- The source without the lines that something unrecognized is in. -/
def withoutSkipped (source : String) : String :=
  String.ofList ((keptPieces (isLeft source) source.toList).flatMap (·.text))

/-- Where a place of the source is without those lines. -/
def newPlace (source : String) : Nat → Nat :=
  bytesBefore (keptPieces (isLeft source) source.toList)

variable (source : String)

/-- The passages of both phases and the separator, marked where they are unrecognized. -/
def marked : List (Passage × Bool) :=
  let ls := lines source.toList
  ((declaring.passages (phases ls).1).map fun p => (p, !p.isReadable)) ++
    (((ls.dropWhile (!·.isSeparator)).take 1).map (fun l => (l.alone, false)) ++
      ((connecting (parse source).blocks).passages (phases ls).2).map fun p =>
        (p, !p.isKnown (parse source).blocks))

theorem lines_marked : (marked source).flatMap (·.1.lines) = lines source.toList := by
  have alone (ls : List Line) : ls.flatMap (·.alone.lines) = ls := List.flatMap_singleton' ls
  conv => rhs; rw [phases_parts (lines source.toList)]
  simp only [marked, List.flatMap_append, List.flatMap_map, Cut.lines_passages, alone]

theorem parse_blocks (source : String) : (parse source).blocks =
    declaredBlocks (declarations (phases (lines source.toList)).1) := rfl

theorem parse_diagnostics (source : String) : (parse source).diagnostics =
    declarationDiagnostics (declarations (phases (lines source.toList)).1) ++
      (Walk.run (parse source).blocks {} (phases (lines source.toList)).2).diagnostics := rfl

theorem skippedSpans_eq :
    skippedSpans source = ((marked source).filter (·.2)).map (·.1.span) := by
  have declared := unrecognized_declarations (declaring.passages (phases (lines source.toList)).1)
  rw [← declarations_eq] at declared
  have alone : ∀ p ∈ (connecting (parse source).blocks).passages (phases (lines source.toList)).2,
      p.isKnown (parse source).blocks = false → p.tail = [] := by
    intro p member unknown
    refine tail_of_simple member ?_
    rw [(Passage.isKnown_eq_false _).mp unknown]
    rfl
  have connected := Walk.unrecognized_passes {} alone
  rw [← Walk.run_eq] at connected
  rw [skippedSpans, parse_diagnostics, List.filter_append, List.map_append, declared, connected,
    marked]
  generalize ((lines source.toList).dropWhile (!·.isSeparator)).take 1 = separators
  simp [List.filter_map, Function.comp_def]

variable {source}

theorem mem_marked_connecting {p : Passage}
    (member : p ∈ (connecting (parse source).blocks).passages (phases (lines source.toList)).2) :
    (p, !p.isKnown (parse source).blocks) ∈ marked source :=
  List.mem_append_right _ (List.mem_append_right _ (List.mem_map_of_mem member))

theorem isLeft_marked {m : Passage × Bool} (member : m ∈ marked source) {l : Line}
    (inside : l ∈ m.1.lines) : isLeft source l = !m.2 := by
  obtain ⟨solid, order⟩ := (laid_lines source.toList).ordered
  rw [← lines_marked] at solid order
  rw [isLeft, skippedSpans_eq, meets_marked order (fun l here => (solid l here).2) member inside]

theorem isLeft_piece {piece : Line} (member : piece ∈ pieces 0 (rawLines source.toList)) {l : Line}
    (inside : l ∈ piece.trimmed) : isLeft source l = isLeft source piece := by
  have placed {m : Passage × Bool} (there : m ∈ marked source) {l : Line} (within : l ∈ m.1.lines) :
      l ∈ lines source.toList := by
    rw [← lines_marked]
    exact List.mem_flatMap.mpr ⟨m, there, within⟩
  rw [isLeft, isLeft, Bool.not_inj_iff, Bool.eq_iff_iff, List.any_eq_true, List.any_eq_true]
  refine exists_congr fun s => and_congr_right fun skipped => ?_
  rw [skippedSpans_eq] at skipped
  obtain ⟨m, marked, rfl⟩ := List.mem_map.mp skipped
  have there := (List.mem_filter.mp marked).1
  rw [meets_piece (placed there List.mem_cons_self) (placed there m.1.last_mem) rfl rfl member
    inside]

theorem lines_withoutSkipped (source : String) : lines (withoutSkipped source).toList =
    ((lines source.toList).filter (isLeft source)).map (·.moved (newPlace source)) := by
  rw [withoutSkipped, String.toList_ofList]
  exact lines_keptPieces fun _ member _ inside => isLeft_piece member inside

theorem rigid_newPlace {l : Line} (member : l ∈ (lines source.toList).filter (isLeft source)) :
    l.Rigid (newPlace source) :=
  stop_moved (fun _ there _ inside => isLeft_piece there inside) member

/-- The passages of both phases that are left. -/
theorem phases_left (source : String) :
    (phases (lines source.toList)).1.filter (isLeft source) =
        ((declaring.passages (phases (lines source.toList)).1).filter (·.isReadable)).flatMap
          (·.lines) ∧
      (phases (lines source.toList)).2.filter (isLeft source) =
        (((connecting (parse source).blocks).passages (phases (lines source.toList)).2).filter
          (·.isKnown (parse source).blocks)).flatMap (·.lines) := by
  constructor
  · conv => lhs; rw [← declaring.lines_passages (phases (lines source.toList)).1]
    refine filter_flatMap_of_same fun p member l inside => ?_
    have mark : (p, !p.isReadable) ∈ marked source :=
      List.mem_append_left _ (List.mem_map_of_mem member)
    exact (isLeft_marked mark inside).trans (Bool.not_not _)
  · conv => lhs; rw [← (connecting (parse source).blocks).lines_passages (phases _).2]
    refine filter_flatMap_of_same fun p member l inside => ?_
    exact (isLeft_marked (mem_marked_connecting member) inside).trans (Bool.not_not _)

theorem phases_withoutSkipped (source : String) :
    phases (lines (withoutSkipped source).toList) =
      (((phases (lines source.toList)).1.filter (isLeft source)).map (·.moved (newPlace source)),
        ((phases (lines source.toList)).2.filter (isLeft source)).map
          (·.moved (newPlace source))) := by
  rw [lines_withoutSkipped, phases_moved, phases_filter]
  intro l separator
  have mark : (l.alone, false) ∈ marked source :=
    List.mem_append_right _ (List.mem_append_left _ (List.mem_map_of_mem separator))
  exact isLeft_marked mark List.mem_cons_self

theorem declarations_withoutSkipped (source : String) :
    declarations (phases (lines (withoutSkipped source).toList)).1 =
      (((declaring.passages (phases (lines source.toList)).1).filter (·.isReadable)).map
        (·.map (·.moved (newPlace source)))).map (·.declaration) := by
  rw [phases_withoutSkipped, (phases_left source).1, declarations_eq,
    Cut.passages_map _ (Line.text_moved _), Cut.passages_filter]

theorem declarationDiagnostics_withoutSkipped (source : String) :
    declarationDiagnostics (declarations (phases (lines (withoutSkipped source).toList)).1) =
      [] := by
  refine declarationDiagnostics_eq_nil fun d member => ?_
  rw [declarations_withoutSkipped] at member
  obtain ⟨q, moved, rfl⟩ := List.mem_map.mp member
  obtain ⟨p, readable, rfl⟩ := List.mem_map.mp moved
  rw [p.token_map]
  exact (List.mem_filter.mp readable).2

theorem blocks_withoutSkipped (source : String) :
    (parse (withoutSkipped source)).blocks = (parse source).blocks := by
  have declared := declaredBlocks_readable (newPlace source)
    (declaring.passages (phases (lines source.toList)).1)
  rw [parse_blocks, parse_blocks, declarations_withoutSkipped, declared, declarations_eq]

theorem run_withoutSkipped (source : String) :
    Walk.Skips (newPlace source)
      (Walk.run (parse source).blocks {} (phases (lines source.toList)).2)
      (Walk.run (parse source).blocks {} (phases (lines (withoutSkipped source).toList)).2) := by
  have start : Walk.Skips (newPlace source) {} {} := ⟨rfl, rfl, rfl⟩
  have rigid : ∀ p ∈ (connecting (parse source).blocks).passages (phases (lines source.toList)).2,
      p.isKnown (parse source).blocks = true → ∀ l ∈ p.lines, l.Rigid (newPlace source) := by
    intro p member known l inside
    have mark := mem_marked_connecting member
    have left : isLeft source l = true := (isLeft_marked mark inside).trans (by simp [known])
    refine rigid_newPlace (List.mem_filter.mpr ⟨?_, left⟩)
    rw [← lines_marked]
    exact List.mem_flatMap.mpr ⟨_, mark, inside⟩
  rw [phases_withoutSkipped, (phases_left source).2, Walk.run_eq, Walk.run_eq,
    Cut.passages_map _ (Line.text_moved _), Cut.passages_filter]
  exact start.passes rigid

end Source

/-- A script without the lines of what is unrecognized in it has the same blocks and connections.
Nothing in it is unrecognized, and what else there was to report is reported in the same words and
order, at the places to which it moves up. -/
theorem parse_withoutSkipped (source : String) :
    let rest := parse (withoutSkipped source)
    rest.blocks = (parse source).blocks ∧ rest.edges = (parse source).edges ∧
      (∀ d ∈ rest.diagnostics, d.isUnrecognized = false) ∧
      rest.diagnostics = ((parse source).diagnostics.filter (!·.isUnrecognized)).map
        (·.moved (newPlace source)) := by
  intro rest
  have blocks : rest.blocks = (parse source).blocks := blocks_withoutSkipped source
  have walks := run_withoutSkipped source
  have edges : rest.edges = (parse source).edges := by
    rw [parse_edges, parse_edges, blocks, walks.edges]
  have diagnostics : rest.diagnostics = ((parse source).diagnostics.filter
      (!·.isUnrecognized)).map (·.moved (newPlace source)) := by
    have declared : (declarationDiagnostics (declarations (phases (lines source.toList)).1)).filter
        (!·.isUnrecognized) = [] := by
      rw [declarations_eq]
      refine List.filter_eq_nil_iff.mpr fun d member => ?_
      rw [isUnrecognized_of_declared _ d member]
      exact Bool.false_ne_true
    rw [parse_diagnostics, parse_diagnostics, blocks, walks.diagnostics, List.filter_append,
      declared, declarationDiagnostics_withoutSkipped]
    rfl
  refine ⟨blocks, edges, ?_, diagnostics⟩
  rw [diagnostics]
  intro d member
  obtain ⟨e, left, rfl⟩ := List.mem_map.mp member
  rw [Diagnostic.isUnrecognized_moved]
  simpa using (List.mem_filter.mp left).2

example :
    withoutSkipped "ts()\nB\x7b\n\x7dx\nte()\n...\nts()\na>\nzz\n te()" =
      "ts()\nte()\n...\nts()\na>\n te()" := by
  decide +kernel

end Flowchart.Script
