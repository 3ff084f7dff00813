import Flowchart.Proofs.Script.Chart
import Flowchart.Proofs.Script.Program
/-! Writing a chart in the notation. Any list of tokens and any list of connections between them can
be written down, and the script is read as exactly these. -/
namespace Flowchart.Script
open Flowchart.Text

/-- A forward arrow with its label between stars. -/
def arrowText : Option String → List Char
  | none => ['a', '>']
  | some label => 'a' :: '*' :: (label.toList ++ ['*', '>'])

/-- The source of a connection, its arrow and its target; the target of a back-reference stands on
the line of the arrow. -/
def edgeLines (tokens : List String) (e : Edge) : List (List Char) :=
  if e.back then
    [tokenText tokens e.source, arrowText e.label ++ '!' :: tokenText tokens e.target]
  else [tokenText tokens e.source, arrowText e.label, tokenText tokens e.target]

def scriptLines (tokens : List String) (edges : List Edge) : List (List Char) :=
  tokens.map (·.toList) ++ ['.', '.', '.'] :: edges.flatMap (edgeLines tokens)

def write (tokens : List String) (edges : List Edge) : String :=
  String.ofList (joinLines (scriptLines tokens edges))

/-- Tokens are read as blocks, stand on one line and differ when blanks do not count, and a composite
block closes its braces. Connections lead from token to token and differ from each other. Their
labels are trimmed and not empty, stand on one line and have no exclamation mark. -/
structure Writable (tokens : List String) (edges : List Edge) : Prop where
  read : ∀ t ∈ tokens, (readBlock? t.toList).isSome = true
  braces_closed : ∀ t ∈ tokens, ∀ b ∈ readBlock? t.toList, b.kind = .subBlock →
    t.toList.count '\x7b' ≤ t.toList.count '\x7d'
  tokens_whole : ∀ t ∈ tokens, '\n' ∉ t.toList
  tokens_distinct : tokens.Pairwise fun t u => strip t.toList ≠ strip u.toList
  ends_lt : ∀ e ∈ edges, e.source < tokens.length ∧ e.target < tokens.length
  edges_distinct : edges.Pairwise fun e f =>
    (e.source, e.target, e.label) ≠ (f.source, f.target, f.label)
  labels_clean : ∀ e ∈ edges, CleanLabel e.label
  labels_whole : ∀ e ∈ edges, ∀ text ∈ e.label, '\n' ∉ text.toList
  labels_unmarked : ∀ e ∈ edges, ∀ text ∈ e.label, '!' ∉ text.toList

section Program

theorem arrowText_eq (label : Option String) :
    arrowText label = (⟨label, .forward⟩ : Arrow).text := by
  cases label with
  | none => rfl
  | some text =>
      rw [arrowText, Arrow.text, starred, List.cons_append, List.append_assoc]
      rfl

/-- The instructions that a connection is written as. -/
def edgeProgram (e : Edge) : List Instruction :=
  if e.back then [.visit e.source, .back ⟨e.label, .forward⟩ e.target]
  else [.visit e.source, .arrow ⟨e.label, .forward⟩, .visit e.target]

theorem edgeLines_eq (tokens : List String) (edges : List Edge) :
    edges.flatMap (edgeLines tokens) = (edges.flatMap edgeProgram).flatMap (·.lines tokens) := by
  have one (e : Edge) : edgeLines tokens e = (edgeProgram e).flatMap (·.lines tokens) := by
    rw [edgeLines, edgeProgram, arrowText_eq]
    split <;> rfl
  rw [List.flatMap_assoc]
  exact congrArg (edges.flatMap ·) (funext one)

theorem edgeOf_forward (e : Edge) :
    Walk.edgeOf e.source e.target ⟨e.label, .forward⟩ e.back = e := rfl

theorem Cursor.completed_idle {c : Cursor} (idle : c.pending = none) (block : Nat) :
    c.completed block = [] := by
  unfold completed
  rw [idle]
  cases c.previous <;> rfl

/-- Connections are what their instructions mean, and there is nothing to complain about. -/
theorem madeBy_edges {c : Cursor} (idle : c.pending = none) (edges : List Edge)
    (tokens : List String) (start : Nat) :
    madeBy c (edges.flatMap edgeProgram) = edges ∧
      complaintsAbout tokens start c (edges.flatMap edgeProgram) = [] := by
  induction edges generalizing c start with
  | nil => exact ⟨rfl, rfl⟩
  | cons e edges ih =>
      have edge := edgeOf_forward e
      rw [List.flatMap_cons, edgeProgram]
      cases back : e.back with
      | true =>
          rw [back] at edge
          simp only [if_pos, List.cons_append, List.nil_append, madeBy, complaintsAbout,
            Instruction.made, Instruction.next, Cursor.completed_idle idle, edge]
          simpa [Instruction.complaints] using @ih {} rfl _
      | false =>
          rw [back] at edge
          have arrives : (⟨some e.source, some ⟨e.label, .forward⟩⟩ : Cursor).completed e.target =
              [e] := congrArg ([·]) edge
          simp only [Bool.false_eq_true, if_false, List.cons_append, List.nil_append, madeBy,
            complaintsAbout, Instruction.made, Instruction.next, Cursor.completed_idle idle,
            arrives]
          simpa [Instruction.complaints] using @ih { previous := some e.target } rfl _

theorem foldl_insertEdge_distinct {kept edges : List Edge}
    (distinct : (kept ++ edges).Pairwise fun e f => e.sameConnection f = false) :
    edges.foldl insertEdge kept = kept ++ edges := by
  induction edges generalizing kept with
  | nil => rw [List.foldl_nil, List.append_nil]
  | cons e edges ih =>
      rw [List.foldl_cons, insertEdge, any_sameConnection_eq_false distinct,
        if_neg Bool.false_ne_true, ih, List.append_assoc, List.singleton_append]
      rwa [List.append_assoc, List.singleton_append]

end Program

section Parse
variable {tokens : List String} {edges : List Edge}

/-- The blocks that tokens are read as. -/
def readTokens (tokens : List String) : Registry := tokens.filterMap fun t => readBlock? t.toList

theorem map_token_readTokens (read : ∀ t ∈ tokens, (readBlock? t.toList).isSome = true) :
    (readTokens tokens).map (·.token) = tokens := by
  induction tokens with
  | nil => rfl
  | cons t tokens ih =>
      obtain ⟨first, others⟩ := List.forall_mem_cons.mp read
      obtain ⟨b, same⟩ := Option.isSome_iff_exists.mp first
      have token : b.token = t := String.toList_injective (toList_token same)
      have split : readTokens (t :: tokens) = b :: readTokens tokens := by
        rw [readTokens, List.filterMap_cons, same]
        rfl
      rw [split, List.map_cons, token, ih others]

namespace Writable

theorem sound (writable : Writable tokens edges) : (readTokens tokens).Sound := by
  constructor
  case distinct =>
    have keys : (readTokens tokens).map key = tokens.map fun t => strip t.toList := by
      conv => rhs; rw [← map_token_readTokens writable.read]
      rw [List.map_map]
      rfl
    rw [keys]
    exact List.pairwise_map.mpr writable.tokens_distinct
  case read =>
    intro b member
    obtain ⟨t, -, read⟩ := List.mem_filterMap.mp member
    rw [toList_token read]
    exact read

theorem tokens_readTokens (writable : Writable tokens edges) :
    Registry.tokens (readTokens tokens) = tokens := map_token_readTokens writable.read

theorem whole (writable : Writable tokens edges) :
    ∀ b ∈ readTokens tokens, '\n' ∉ b.token.toList := by
  intro b member
  have token := List.mem_map_of_mem (f := (·.token)) member
  rw [map_token_readTokens writable.read] at token
  exact writable.tokens_whole _ token

theorem program (writable : Writable tokens edges) :
    ∀ i ∈ edges.flatMap edgeProgram, i.Writable (readTokens tokens) := by
  intro i member
  obtain ⟨e, present, inside⟩ := List.mem_flatMap.mp member
  have length := congrArg List.length (map_token_readTokens writable.read)
  rw [List.length_map] at length
  obtain ⟨source, target⟩ := writable.ends_lt e present
  rw [← length] at source target
  have label : LineLabel e.label :=
    ⟨writable.labels_clean e present, writable.labels_whole e present⟩
  have unmarked : Unmarked e.label := writable.labels_unmarked e present
  unfold edgeProgram at inside
  split at inside
  · rcases List.mem_pair.mp inside with rfl | rfl
    · exact .visit source
    · exact .back label unmarked target
  · rcases List.mem_cons.mp inside with rfl | inside
    · exact .visit source
    · rcases List.mem_pair.mp inside with rfl | rfl
      · exact .arrow label unmarked
      · exact .visit target

theorem lines_written (writable : Writable tokens edges) :
    ∀ l ∈ scriptLines tokens edges, l ≠ [] ∧ Trimmed l ∧ '\n' ∉ l := by
  intro l member
  rcases List.mem_append.mp member with declared | structural
  · obtain ⟨t, present, rfl⟩ := List.mem_map.mp declared
    obtain ⟨b, read⟩ := Option.isSome_iff_exists.mp (writable.read t present)
    have shaped := shaped_of_readBlock? read
    exact ⟨shaped.ne_nil, shaped.trimmed, writable.tokens_whole t present⟩
  · rcases List.mem_cons.mp structural with rfl | connecting
    · decide
    · rw [edgeLines_eq] at connecting
      obtain ⟨i, present, inside⟩ := List.mem_flatMap.mp connecting
      rw [← writable.tokens_readTokens] at inside
      obtain ⟨solid, whole⟩ := (writable.program i present).lines_written writable.sound
        writable.whole l inside
      exact ⟨solid.ne_nil, solid.trimmed, whole⟩

theorem closed (writable : Writable tokens edges) {t : String} (member : t ∈ tokens) :
    BracesClosed t.toList := by
  intro brace
  obtain ⟨b, read⟩ := Option.isSome_iff_exists.mp (writable.read t member)
  have balance := writable.braces_closed t member b read (kind_of_brace read brace)
  unfold braceDepth
  omega

/-- What is written is read as lines in two phases, the tokens and the connections. -/
theorem exists_phases (writable : Writable tokens edges) :
    ∃ declared start, phases (lines (write tokens edges).toList) =
        (declared, located start (edges.flatMap (edgeLines tokens))) ∧
      texts declared = tokens.map (·.toList) := by
  refine ⟨located 0 (tokens.map (·.toList)), byteSize (joinLines (tokens.map (·.toList))) + 4, ?_,
    texts_located _ _⟩
  rw [write, String.toList_ofList, Script.lines, trimLines_joinLines _ writable.lines_written,
    scriptLines, located_append, located, Nat.zero_add]
  refine phases_eq rfl ?_
  rintro ⟨text, start⟩ member
  have line := List.mem_map_of_mem (f := Line.text) member
  rw [← texts, texts_located] at line
  obtain ⟨t, present, rfl⟩ := List.mem_map.mp line
  obtain ⟨b, read⟩ := Option.isSome_iff_exists.mp (writable.read t present)
  exact (shaped_of_readBlock? read).not_separator start

/-- The written tokens declare the blocks that they are read as, without complaint. -/
theorem declared (writable : Writable tokens edges) {ls : List Line}
    (written : texts ls = tokens.map (·.toList)) :
    declaredBlocks (declarations ls) = readTokens tokens ∧
      declarationDiagnostics (declarations ls) = [] := by
  have token : ∀ l ∈ ls, ∃ t ∈ tokens, t.toList = l.text := fun l member =>
    List.mem_map.mp (written ▸ List.mem_map_of_mem member)
  have declarations : declarations ls = ls.map fun l => ⟨l.text, l.span⟩ := by
    refine declarations_of_closed ?_
    intro l member
    obtain ⟨t, present, text⟩ := token l member
    exact text ▸ writable.closed present
  rw [declarations]
  constructor
  · refine declaredBlocks_of_sound writable.sound ?_
    have tokens := congrArg (List.map String.toList) (map_token_readTokens writable.read)
    rw [List.map_map] at tokens
    rw [List.map_map]
    exact written.trans tokens.symm
  · refine declarationDiagnostics_eq_nil ?_
    intro d member
    obtain ⟨l, inside, rfl⟩ := List.mem_map.mp member
    obtain ⟨t, present, text⟩ := token l inside
    exact text ▸ writable.read t present

theorem parse (writable : Writable tokens edges) :
    parse (write tokens edges) = ⟨readTokens tokens, edges, []⟩ := by
  obtain ⟨declares, start, phased, tokenTexts⟩ := writable.exists_phases
  obtain ⟨blocks, silent⟩ := writable.declared tokenTexts
  obtain ⟨made, quiet⟩ := @madeBy_edges {} rfl edges tokens start
  have walked := Walk.run_written writable.sound writable.program {} start
  rw [writable.tokens_readTokens, ← edgeLines_eq] at walked
  have distinct : edges.Pairwise fun e f => e.sameConnection f = false :=
    writable.edges_distinct.imp Edge.sameConnection_eq_false.mpr
  unfold Script.parse
  rw [phased]
  simp only [readLines, blocks, silent, walked]
  change Chart.mk _ ((madeBy {} _).foldl insertEdge []) ([] ++ ([] ++ complaintsAbout _ _ {} _)) = _
  rw [made, quiet, @foldl_insertEdge_distinct [] edges distinct]
  rfl

end Writable

/-- Any writable chart is read back from the script written for it: the same tokens, the same
connections, and nothing to complain about. -/
theorem parse_write (writable : Writable tokens edges) :
    (parse (write tokens edges)).blocks.map (·.token) = tokens ∧
      (parse (write tokens edges)).edges = edges ∧
      (parse (write tokens edges)).diagnostics = [] := by
  rw [writable.parse]
  exact ⟨map_token_readTokens writable.read, rfl, rfl⟩

/-- A loop whose tokens and labels are full of marks that mean something elsewhere. -/
theorem parse_write_loop :
    let tokens := ["ts()", "p[ma*a>ts()]", "d<a>[>"]
    let edges : List Edge := [⟨0, 1, some "ma*x*>[", false⟩, ⟨1, 2, none, false⟩,
      ⟨2, 1, some "a*", true⟩]
    (parse (write tokens edges)).blocks.map (·.token) = tokens ∧
      (parse (write tokens edges)).edges = edges ∧
      (parse (write tokens edges)).diagnostics = [] := by
  refine parse_write ?_
  constructor
  case read => decide +kernel
  case braces_closed => decide +kernel
  case tokens_whole => decide
  case tokens_distinct => decide
  case ends_lt => decide
  case edges_distinct => decide
  case labels_clean => decide
  case labels_whole => decide
  case labels_unmarked => decide

end Parse
end Flowchart.Script
