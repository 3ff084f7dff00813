import Flowchart.Proofs.Script.Instruction
import Flowchart.Proofs.Script.Redeclare
/-! Programs: what a walk does with instructions that are written one after the other. It makes the
connections that they mean, in order and each of them once, and it complains about nothing but a
back-reference or a group without a block to start from. -/
namespace Flowchart.Script
open Flowchart.Text
open Walk (edgeOf)

section Edges

/-- Add a connection unless there is the same one. -/
def insertEdge (edges : List Edge) (e : Edge) : List Edge :=
  if edges.any e.sameConnection then edges else edges ++ [e]

/-- Connections that are added one by one are those without the later of the same ones. -/
theorem foldl_insertEdge (edges : List Edge) :
    edges.foldl insertEdge [] = edges.eraseDupsBy Edge.sameConnection := by
  suffices all : ∀ kept, edges.foldl insertEdge kept.reverse =
      List.eraseDupsBy.loop Edge.sameConnection edges kept from all []
  induction edges with
  | nil => exact fun kept => rfl
  | cons e edges ih =>
      intro kept
      rw [List.foldl_cons, List.eraseDupsBy.loop, insertEdge, List.any_reverse]
      cases known : kept.any e.sameConnection with
      | true => exact ih kept
      | false =>
          rw [if_neg Bool.false_ne_true, ← List.reverse_cons]
          exact ih (e :: kept)

end Edges

namespace Walk

def cursor (w : Walk) : Cursor := ⟨w.previous, w.pending⟩

/-- The walk after an instruction whose first line is there. -/
def follow (w : Walk) (i : Instruction) (span : Span) : Walk where
  previous := (i.next w.cursor).previous
  pending := (i.next w.cursor).pending
  edges := (i.made w.cursor).foldl insertEdge w.edges
  diagnostics := w.diagnostics ++ i.complaints w.cursor span

theorem link_insert (w : Walk) (anchor other : Nat) (arrow : Arrow) (back : Bool) :
    w.link anchor other arrow back =
      { w with edges := insertEdge w.edges (edgeOf anchor other arrow back) } := by
  rw [link_eq, insertEdge]
  split <;> rfl

theorem arrive_eq (w : Walk) (block : Nat) :
    w.arrive block = ⟨some block, none, (w.cursor.completed block).foldl insertEdge w.edges,
      w.diagnostics⟩ := by
  obtain ⟨previous, pending, edges, diagnostics⟩ := w
  unfold arrive
  cases previous with
  | none => rfl
  | some previous =>
      cases pending with
      | none => rfl
      | some arrow =>
          simp only [link_insert]
          rfl

section Group
variable {blocks : Registry} (sound : blocks.Sound) {members : List Member}
  (writable : ∀ m ∈ members, m.Writable blocks)
include sound

theorem member_token {block : Nat} (inside : block < blocks.length) {l : Line}
    (text : l.text = tokenText blocks.tokens block) (anchor : Option Nat) (group : Arrow)
    (w : Walk) (own : Option Arrow) :
    member blocks anchor group (w, own.bind (·.label)) l =
      ({ w with edges := (membersMade anchor group [⟨own, block⟩]).foldl insertEdge w.edges },
        none) := by
  have other := (shaped_name sound inside).head?_ne (c := 'a') (by decide)
  unfold member
  simp only [text, arrow?_eq_none other, resolve?_name sound inside]
  cases anchor with
  | none => rfl
  | some anchor =>
      simp only [link_insert]
      rfl

include writable

theorem foldl_member (anchor : Option Nat) (group : Arrow) (w : Walk) {body : List Line}
    (written : texts body = members.flatMap (·.lines blocks.tokens)) :
    body.foldl (member blocks anchor group) (w, none) =
      ({ w with edges := (membersMade anchor group members).foldl insertEdge w.edges }, none) := by
  induction members generalizing w body with
  | nil =>
      obtain rfl := List.map_eq_nil_iff.mp written
      cases anchor <;> rfl
  | cons m members ih =>
      obtain ⟨first, others⟩ := List.forall_mem_cons.mp writable
      rw [List.flatMap_cons] at written
      obtain ⟨here, rest, rfl, lines, later⟩ := List.map_eq_append_iff.mp written
      have split : membersMade anchor group (m :: members) =
          membersMade anchor group [m] ++ membersMade anchor group members := by
        cases anchor <;> rfl
      have one : here.foldl (member blocks anchor group) (w, none) =
          ({ w with edges := (membersMade anchor group [m]).foldl insertEdge w.edges }, none) := by
        obtain ⟨own, block⟩ := m
        cases own with
        | none =>
            obtain ⟨l, _, rfl, text, others⟩ := List.map_eq_cons_iff.mp lines
            obtain rfl := List.map_eq_nil_iff.mp others
            exact member_token sound first.inside text anchor group w none
        | some arrow =>
            obtain ⟨k, _, rfl, label, others⟩ := List.map_eq_cons_iff.mp lines
            obtain ⟨l, _, rfl, text, others⟩ := List.map_eq_cons_iff.mp others
            obtain rfl := List.map_eq_nil_iff.mp others
            have read : arrow? k.text = some arrow := by
              rw [label]
              exact arrow?_text (first.own arrow rfl).clean
            have labelled : member blocks anchor group (w, none) k = (w, arrow.label) := by
              unfold member
              simp only [read]
            rw [List.foldl_cons, labelled]
            exact member_token sound first.inside text anchor group w (some arrow)
      rw [List.foldl_append, one, ih others _ later, split, List.foldl_append]

/-- No member of a group closes it. -/
theorem not_closing {body : List Line}
    (written : texts body = members.flatMap (·.lines blocks.tokens)) :
    ∀ l ∈ body, l.text ≠ [']'] := by
  intro l member
  have line : l.text ∈ members.flatMap (·.lines blocks.tokens) :=
    written ▸ List.mem_map_of_mem member
  obtain ⟨m, inside, here⟩ := List.mem_flatMap.mp line
  rcases List.mem_append.mp here with label | token
  · obtain ⟨arrow, -, text⟩ := Option.map_eq_some_iff.mp (Option.mem_toList.mp label)
    rw [← text]
    exact fun same => absurd (List.cons.inj same).1 (by decide)
  · have other := (shaped_name sound (writable m inside).inside).head?_ne (c := ']') (by decide)
    rw [List.mem_singleton.mp token]
    exact fun same => other (congrArg List.head? same)

/-- A group that is written is closed, and takes the lines up to its bracket. -/
theorem group_written (anchor : Option Nat) (arrow : Arrow) (w : Walk) (l : Line)
    {body : List Line}
    (written : texts body = members.flatMap (·.lines blocks.tokens) ++ [[']']])
    (rest : List Line) :
    w.group blocks anchor arrow l (body ++ rest) =
        { w with edges := (membersMade anchor arrow members).foldl insertEdge w.edges } ∧
      (groupBody (body ++ rest)).2 = rest := by
  obtain ⟨named, _, rfl, lines, others⟩ := List.map_eq_append_iff.mp written
  obtain ⟨closing, _, rfl, bracket, others⟩ := List.map_eq_cons_iff.mp others
  obtain rfl := List.map_eq_nil_iff.mp others
  have open' : ∀ l ∈ named, (l.text != [']']) = true := by
    simpa using not_closing sound writable lines
  have split : groupBody (named ++ [closing] ++ rest) = (named, rest) := by
    rw [groupBody, List.append_assoc, List.takeWhile_append_of_pos open',
      List.dropWhile_append_of_pos open', List.singleton_append,
      List.takeWhile_cons_of_neg (by simp [bracket]),
      List.dropWhile_cons_of_neg (by simp [bracket]), List.append_nil]
    rfl
  have closed : isClosed (named ++ [closing] ++ rest) = true :=
    List.any_eq_true.mpr ⟨closing, by simp, by simp [bracket]⟩
  rw [group, closed, split, if_pos rfl, foldl_member sound writable anchor arrow w lines]
  exact ⟨rfl, rfl⟩

end Group

section Step
variable {blocks : Registry} (sound : blocks.Sound)
include sound

/-- An instruction that is written is followed as it is meant. -/
theorem step_written {i : Instruction} (writable : i.Writable blocks) (w : Walk) {l : Line}
    {body : List Line} (head : l.text = i.head blocks.tokens)
    (lines : texts body = i.body blocks.tokens) (rest : List Line) :
    w.step blocks l (body ++ rest) = (w.follow i l.span, rest) := by
  unfold step
  rw [head, statement_head sound writable]
  cases writable with
  | visit inside =>
      obtain rfl := List.map_eq_nil_iff.mp lines
      simp [arrive_eq, follow, Instruction.complaints]
  | arrow label unmarked =>
      obtain rfl := List.map_eq_nil_iff.mp lines
      simp [follow, Instruction.complaints, cursor]
  | back label unmarked inside =>
      obtain rfl := List.map_eq_nil_iff.mp lines
      cases previous : w.previous with
      | none => simp [follow, Instruction.complaints, cursor, previous, warn]
      | some source =>
          simp [resolve?_name sound inside, link_insert, follow, Instruction.complaints, cursor,
            previous]
  | inlineBack spaced label unmarked start inside alone =>
      obtain rfl := List.map_eq_nil_iff.mp lines
      simp [resolve?_name sound inside, arrive_eq, link_insert, follow, Instruction.complaints]
  | @branch arrow members label writable =>
      obtain ⟨made, left⟩ := group_written sound writable w.previous arrow
        (if w.previous.isNone then w.warn (.missingSource l.span) else w) l lines rest
      simp only [Instruction.statement, made, left]
      cases previous : w.previous with
      | none => simp [follow, Instruction.complaints, cursor, previous, warn]
      | some anchor => simp [follow, Instruction.complaints, cursor, previous]
  | @merge anchor gap arrow members spaced label writable inside starless alone =>
      obtain ⟨made, left⟩ :=
        group_written sound writable (some anchor) arrow (w.arrive anchor) l lines rest
      simp only [Instruction.statement, resolve?_name sound inside, made, left]
      simp [arrive_eq, follow, Instruction.complaints]

/-- The lines of an instruction are one step, whatever lines come after them. -/
theorem run_instruction {i : Instruction} (writable : i.Writable blocks) (w : Walk) (start : Nat)
    (ls : List Line) :
    w.run blocks (located start (i.lines blocks.tokens) ++ ls) =
      (w.follow i ⟨start, start + byteSize (i.head blocks.tokens)⟩).run blocks ls := by
  rw [Instruction.lines, located, List.cons_append, Walk.run,
    step_written sound writable w rfl (texts_located _ _) ls]
  rfl

/-- A program that is written is run as it is meant. -/
theorem run_written {program : List Instruction} (writable : ∀ i ∈ program, i.Writable blocks)
    (w : Walk) (start : Nat) :
    w.run blocks (located start (program.flatMap (·.lines blocks.tokens))) =
      { previous := (leadsTo w.cursor program).previous
        pending := (leadsTo w.cursor program).pending
        edges := (madeBy w.cursor program).foldl insertEdge w.edges
        diagnostics := w.diagnostics ++ complaintsAbout blocks.tokens start w.cursor program } := by
  induction program generalizing w start with
  | nil => simp [located, Walk.run, leadsTo, cursor, madeBy, complaintsAbout]
  | cons i program ih =>
      obtain ⟨first, others⟩ := List.forall_mem_cons.mp writable
      rw [List.flatMap_cons, located_append, run_instruction sound first, ih others, leadsTo,
        madeBy, List.foldl_append, complaintsAbout, ← List.append_assoc]
      rfl

end Step

end Walk

section Parse

/-- The declarations as they stand, a separator, and the program in the notation. -/
def script (declared : String) (program : List Instruction) : String :=
  declared ++ String.ofList ('\n' :: joinLines (['.', '.', '.'] ::
    program.flatMap (·.lines (parse declared).blocks.tokens)))

variable {declared : String} {program : List Instruction}
  (only : ∀ l ∈ lines declared.toList, l.isSeparator = false)
include only

theorem parse_declared : parse declared = readLines (lines declared.toList) [] := by
  have pass : ∀ l ∈ lines declared.toList, (!l.isSeparator) = true := by simpa using only
  have phased : phases (lines declared.toList) = (lines declared.toList, []) := by
    rw [phases, List.takeWhile_eq_self_iff.mpr pass, List.dropWhile_eq_nil_iff.mpr pass]
    rfl
  rw [parse, phased]

theorem phases_script (writable : ∀ i ∈ program, i.Writable (parse declared).blocks) :
    phases (lines (script declared program).toList) =
      (lines declared.toList, located (byteSize declared.toList + 5)
        (program.flatMap (·.lines (parse declared).blocks.tokens))) := by
  have written : ∀ l ∈ ['.', '.', '.'] :: program.flatMap (·.lines (parse declared).blocks.tokens),
      l ≠ [] ∧ Trimmed l ∧ '\n' ∉ l := by
    refine List.forall_mem_cons.mpr ⟨by decide, ?_⟩
    intro l member
    obtain ⟨i, inside, here⟩ := List.mem_flatMap.mp member
    obtain ⟨solid, whole⟩ := (writable i inside).lines_written (declaredBlocks_sound _)
      (fun b => not_mem_newline_token) l here
    exact ⟨solid.ne_nil, solid.trimmed, whole⟩
  rw [script, String.toList_append, String.toList_ofList, lines_append,
    trimLines_joinLines _ written, located]
  exact phases_eq rfl only

/-- Whatever blocks a script declares, and whatever program is written behind them: the connections
are those that the program means, in order and without the later of the same ones, and nothing is
complained about but what was declared wrongly and what has no block to start from. -/
theorem parse_script (writable : ∀ i ∈ program, i.Writable (parse declared).blocks) :
    parse (script declared program) =
      { blocks := (parse declared).blocks
        edges := (madeBy {} program).eraseDupsBy Edge.sameConnection
        diagnostics := (parse declared).diagnostics ++
          complaintsAbout (parse declared).blocks.tokens (byteSize declared.toList + 5) {}
            program } := by
  have blocks : (parse declared).blocks =
      declaredBlocks (declarations (lines declared.toList)) := by
    rw [parse_declared only]
    rfl
  have said : (parse declared).diagnostics =
      declarationDiagnostics (declarations (lines declared.toList)) := by
    rw [parse_declared only, readLines, Walk.run]
    exact List.append_nil _
  have sound : (parse declared).blocks.Sound := declaredBlocks_sound _
  rw [parse, phases_script only writable]
  simp only [readLines, ← blocks, ← said]
  rw [Walk.run_written sound writable, foldl_insertEdge]
  rfl

end Parse

/-- Every form, a connection that is made twice, and two instructions without a source. -/
theorem parse_script_forms :
    let declared := "ts()\np[Ask]\nd<ok?>\nte()"
    let program : List Instruction := [.back ⟨none, .forward⟩ 0, .visit 0,
      .arrow ⟨some "go", .forward⟩, .merge 1 [' '] ⟨some "or!", .backward⟩
        [⟨none, 2⟩, ⟨some ⟨some "yes", .forward⟩, 3⟩],
      .arrow ⟨none, .forward⟩, .branch ⟨none, .forward⟩ [⟨none, 2⟩],
      .inlineBack 2 [' '] ⟨some "no", .forward⟩ 1, .branch ⟨none, .forward⟩ [⟨none, 0⟩],
      .visit 0, .arrow ⟨some "go", .forward⟩, .visit 1]
    (script declared program = "ts()\np[Ask]\nd<ok?>\nte()\n...\na>!ts()\nts()\na*go*>\n" ++
        "p[Ask] ma*or!*<[\nd<ok?>\na*yes*>\nte()\n]\na>\nma>[\nd<ok?>\n]\n" ++
        "d<ok?> a*no*>!p[Ask]\nma>[\nts()\n]\nts()\na*go*>\np[Ask]\n") ∧
      (∀ l ∈ lines declared.toList, l.isSeparator = false) ∧
      (∀ i ∈ program, i.Writable (parse declared).blocks) ∧
      (parse (script declared program)).edges = [⟨0, 1, some "go", false⟩,
        ⟨2, 1, some "or!", false⟩, ⟨3, 1, some "yes", false⟩, ⟨1, 2, none, false⟩,
        ⟨2, 1, some "no", true⟩] ∧
      (parse (script declared program)).diagnostics =
        [.missingSource ⟨28, 35⟩, .missingSource ⟨125, 129⟩] := by
  intro declared program
  have only : ∀ l ∈ lines declared.toList, l.isSeparator = false := by decide +kernel
  have blocks : (parse declared).blocks =
      [{ kind := .terminatorStart, text := "Start", token := "ts()" },
        { kind := .process, text := "Ask", token := "p[Ask]" },
        { kind := .decision, text := "ok?", token := "d<ok?>" },
        { kind := .terminatorEnd, text := "End", token := "te()" }] := by decide +kernel
  have plain : LineLabel none := ⟨by decide, by decide⟩
  have go : LineLabel (some "go") := ⟨by decide, by decide⟩
  have space : Gap [' '] := ⟨by simp [AllBlank, isBlank], by decide⟩
  have writable : ∀ i ∈ program, i.Writable (parse declared).blocks := by
    rw [blocks]
    simp only [program, List.forall_mem_cons]
    refine ⟨.back plain (by decide) (by decide), .visit (by decide), .arrow go (by decide), ?_,
      .arrow plain (by decide), ?_, ?_, ?_, .visit (by decide), .arrow go (by decide),
      .visit (by decide), List.forall_mem_nil _⟩
    · refine .merge space ⟨by decide, by decide⟩ ?_ (by decide) (by decide +kernel)
        (by decide +kernel)
      simp only [List.forall_mem_cons]
      exact ⟨⟨by decide, by simp⟩, ⟨by decide, by rintro a ⟨⟩; exact ⟨by decide, by decide⟩⟩,
        List.forall_mem_nil _⟩
    · refine .branch plain ?_
      simp only [List.forall_mem_cons]
      exact ⟨⟨by decide, by simp⟩, List.forall_mem_nil _⟩
    · exact .inlineBack space ⟨by decide, by decide⟩ (by decide) (by decide) (by decide)
        (by decide +kernel)
    · refine .branch plain ?_
      simp only [List.forall_mem_cons]
      exact ⟨⟨by decide, by simp⟩, List.forall_mem_nil _⟩
  have read := parse_script only writable
  refine ⟨by decide +kernel, only, writable, ?_, ?_⟩
  · rw [read]
    decide +kernel
  · rw [read]
    decide +kernel

end Flowchart.Script
