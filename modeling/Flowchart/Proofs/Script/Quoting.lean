import Flowchart.Proofs.Script.Between
import Flowchart.Proofs.Script.LabelEdit
import Flowchart.Proofs.Script.Redeclare
/-! Quotes. Three quotes on both sides of a text never get mixed up with the text, a single one only
with a text that begins with the same quote, and a text that begins with no quote needs none. -/
namespace Flowchart.Script
open Flowchart.Text

/-- The quotes that a text can stand in. -/
inductive Quotable (text : List Char) : List Char → Prop
  | three {q : Char} (quote : isQuote q = true) : Quotable text [q, q, q]
  | one {q : Char} (quote : isQuote q = true) (other : text.head? ≠ some q) : Quotable text [q]
  | bare (plain : ∀ c ∈ text.head?, isQuote c = false) : Quotable text []

section Unquote
variable {inner : List Char} {q : Char}

theorem eq_of_isQuote {c : Char} (quote : isQuote c = true) : c = '"' ∨ c = '\'' := by
  simpa [isQuote] using quote

/-- Three quotes are tried before one, so whatever they enclose is read without all three. -/
theorem findSome?_three (quote : isQuote q = true) (some : inner ≠ []) :
    quoteMarks.findSome? (unquote? · ([q, q, q] ++ (inner ++ [q, q, q]))) = Option.some inner := by
  have read : unquote? [q, q, q] ([q, q, q] ++ (inner ++ [q, q, q])) = Option.some inner :=
    unquote?_eq_some_iff.mpr ⟨rfl, some⟩
  rcases eq_of_isQuote quote with rfl | rfl
  · rw [quoteMarks, List.findSome?_cons, read]
  · have other : unquote? ['"', '"', '"'] (['\'', '\'', '\''] ++ (inner ++ ['\'', '\'', '\''])) =
        none := unquote?_eq_none (by simp)
    rw [quoteMarks, List.findSome?_cons, other, List.findSome?_cons, read]

/-- One quote is not taken for three when another character follows. -/
theorem unquote?_three_of_head (some : inner ≠ []) (other : inner.head? ≠ Option.some q) :
    unquote? [q, q, q] ([q] ++ (inner ++ [q])) = none := by
  obtain ⟨c, inner, rfl⟩ := List.exists_cons_of_ne_nil some
  refine unquote?_eq_none ?_
  rintro ⟨rest, same⟩
  simp only [List.cons_append, List.nil_append, List.cons.injEq] at same
  exact other (congrArg Option.some same.2.1.symm)

theorem findSome?_one (quote : isQuote q = true) (some : inner ≠ [])
    (other : inner.head? ≠ Option.some q) :
    quoteMarks.findSome? (unquote? · ([q] ++ (inner ++ [q]))) = Option.some inner := by
  have read : unquote? [q] ([q] ++ (inner ++ [q])) = Option.some inner :=
    unquote?_eq_some_iff.mpr ⟨rfl, some⟩
  have three := unquote?_three_of_head some other
  rcases eq_of_isQuote quote with rfl | rfl
  · have apart : unquote? ['\'', '\'', '\''] (['"'] ++ (inner ++ ['"'])) = none :=
      unquote?_eq_none (by simp)
    simp only [quoteMarks, List.findSome?_cons, three, apart, read]
  · have apart {marks : List Char} : unquote? ('"' :: marks) (['\''] ++ (inner ++ ['\''])) = none :=
      unquote?_eq_none (by simp)
    simp only [quoteMarks, List.findSome?_cons, three, apart, read]

theorem unquoted_of_head {text : List Char} (plain : ∀ c ∈ text.head?, isQuote c = false) :
    Unquoted text := by
  refine unquoted_iff.mpr ?_
  intro mark member inner read
  obtain ⟨rfl, -⟩ := unquote?_eq_some_iff.mp read
  have quoted : ∀ mark ∈ quoteMarks, ∃ c rest, mark = c :: rest ∧ isQuote c = true := by
    simp [quoteMarks, isQuote]
  obtain ⟨c, rest, rfl, quote⟩ := quoted mark member
  exact absurd ((plain c rfl).symm.trans quote) Bool.false_ne_true

end Unquote

section Label
variable {text mark front back : List Char}

/-- Blanks in front of a text do not make it begin with a quote. -/
theorem head_padded {left right : List Char} (solid : Solid text) (blank : AllBlank left) {q : Char}
    (quote : isQuote q = true) (other : text.head? ≠ some q) :
    (left ++ (text ++ right)).head? ≠ some q := by
  cases left with
  | nil => rwa [List.nil_append, List.head?_append_of_ne_nil _ solid.ne_nil]
  | cons c left =>
      rintro same
      obtain rfl := Option.some.inj same
      have both := blank c List.mem_cons_self
      rcases eq_of_isQuote quote with rfl | rfl <;> exact absurd both (by decide)

/-- Blanks around the quotes and within them are taken off when the quotes are. -/
theorem labelText_quoted {before left right behind : List Char} (member : mark ∈ quoteMarks)
    (solid : Solid text) (blankBefore : AllBlank before) (blankLeft : AllBlank left)
    (blankRight : AllBlank right) (blankBehind : AllBlank behind)
    (read : quoteMarks.findSome? (unquote? · (mark ++ ((left ++ (text ++ right)) ++ mark))) =
      some (left ++ (text ++ right))) :
    labelText (before ++ ((mark ++ ((left ++ (text ++ right)) ++ mark)) ++ behind)) = text := by
  have kept : trim (mark ++ ((left ++ (text ++ right)) ++ mark)) =
      mark ++ ((left ++ (text ++ right)) ++ mark) := trimmed_quoted member _
  rw [labelText_eq, blankBefore.trim_append, trim_append_blank _ blankBehind, kept, read]
  exact trim_solid solid blankLeft blankRight

/-- A text is read from any of the quotes that it can stand in. -/
theorem labelText_quotable (framed : Framed mark front back) (quotable : Quotable text mark)
    (solid : Solid text) : labelText (front ++ (text ++ back)) = text := by
  obtain ⟨before, left, rfl, blankBefore, blankLeft⟩ := framed.front_eq
  obtain ⟨right, behind, rfl, blankRight, blankBehind⟩ := framed.back_eq
  have split : (before ++ (mark ++ left)) ++ (text ++ (right ++ (mark ++ behind))) =
      before ++ ((mark ++ ((left ++ (text ++ right)) ++ mark)) ++ behind) := by
    simp only [List.append_assoc]
  have some : left ++ (text ++ right) ≠ [] := by simp [solid.ne_nil]
  cases quotable with
  | bare plain => exact framed.labelText solid (unquoted_of_head plain)
  | @three q quote =>
      have member : [q, q, q] ∈ quoteMarks := by
        rcases eq_of_isQuote quote with rfl | rfl <;> decide
      rw [split]
      exact labelText_quoted member solid blankBefore blankLeft blankRight blankBehind
        (findSome?_three quote some)
  | @one q quote other =>
      have member : [q] ∈ quoteMarks := by
        rcases eq_of_isQuote quote with rfl | rfl <;> decide
      rw [split]
      exact labelText_quoted member solid blankBefore blankLeft blankRight blankBehind
        (findSome?_one quote some (head_padded solid blankLeft quote other))

end Label

section Declared
variable {token : List Char} {b : Block}

/-- A script that is one token declares its block and nothing else. -/
theorem parse_token (read : readBlock? token = some b) (simple : b.kind ≠ .subBlock)
    (whole : '\n' ∉ token) {before behind : List Char} (front : AllBlank before)
    (back : AllBlank behind) :
    parse (String.ofList (before ++ (token ++ behind))) = ⟨[b], [], []⟩ := by
  have shaped := shaped_of_readBlock? read
  have line := texts_lines_solid shaped.solid whole front back
  obtain ⟨l, rest, alone, text, nothing⟩ := List.map_eq_cons_iff.mp line
  obtain rfl := List.map_eq_nil_iff.mp nothing
  have visible : l.isSeparator = false := by
    have other := shaped.not_separator l.start
    rwa [← text] at other
  have closed : BracesClosed l.text := by
    intro brace
    rw [text] at brace
    exact absurd (kind_of_brace read brace) simple
  have split : phases (lines (before ++ (token ++ behind))) = ([l], []) := by
    rw [alone]
    simp [phases, visible]
  have declared : declarations [l] = [⟨l.text, l.span⟩] :=
    declarations_of_closed (List.forall_mem_singleton.mpr closed)
  have block : declaredBlocks [⟨l.text, l.span⟩] = [b] := by
    rw [declaredBlocks_eq, List.foldl_cons, List.foldl_nil, Registry.add, text, read]
    exact Registry.declare_of_fresh (List.forall_mem_nil _)
  have quiet : declarationDiagnostics [⟨l.text, l.span⟩] = [] :=
    declarationDiagnostics_eq_nil (by simp [text, read])
  rw [parse, String.toList_ofList, split]
  simp only [readLines, declared, block, quiet, Walk.run, List.nil_append]

/-- A declaration declares its block, unless another one is spelled like it but for blanks. -/
theorem mem_blocks_of_declared {ds : List Declaration} (read : readBlock? token = some b)
    (declared : ∃ d ∈ ds, d.token = token)
    (only : ∀ d ∈ ds, strip d.token = strip token → d.token = token) : b ∈ declaredBlocks ds := by
  obtain ⟨d, member, rfl⟩ := declared
  have known : strip d.token ∈ (ds.foldl Registry.add []).map key :=
    Registry.mem_keys_foldl_add.mpr (.inr ⟨d, member, by rw [read]; rfl, rfl⟩)
  obtain ⟨c, inside, same⟩ := List.mem_map.mp known
  have sound := declaredBlocks_sound ds
  obtain old | ⟨e, there, token⟩ := Registry.mem_foldl_add inside
  · cases old
  · have spelled : e.token = d.token := only e there (by rw [token]; exact same)
    have again := sound.read c inside
    rw [← token, spelled, read] at again
    exact Option.some.inj again ▸ inside

end Declared

/-- Quotes can be exchanged for others that a text can stand in. In any notation that has a text,
and with any blanks within and around the quotes, a text is declared as it is, whatever delimiters
and quotes are in it. -/
theorem readBlock?_quotable {e : Enclosure} (member : e ∈ enclosures)
    (editable : e.kind.hasEditableText = true) {text mark front back : List Char}
    (framed : Framed mark front back) (quotable : Quotable text mark) (solid : Solid text)
    (whole : '\n' ∉ e.token front text back) :
    let token := e.token front text back
    let b : Block :=
      { kind := e.kind, text := String.ofList text, token := String.ofList token }
    readBlock? token = some b ∧
      (∀ before behind, AllBlank before → AllBlank behind →
        parse (String.ofList (before ++ (token ++ behind))) = ⟨[b], [], []⟩) ∧
      ∀ source : String,
        let declared := declarations (phases (lines source.toList)).1
        (∃ d ∈ declared, d.token = token) →
          (∀ d ∈ declared, strip d.token = strip token → d.token = token) →
          b ∈ (parse source).blocks := by
  intro token b
  have some : front ++ (text ++ back) ≠ [] := by simp [solid.ne_nil]
  have read : readBlock? token = Option.some b := by
    have enclosed := readBlock?_enclosed member editable some
    rwa [labelText_quotable framed quotable solid] at enclosed
  refine ⟨read, ?_, ?_⟩
  · intro before behind blankBefore blankBehind
    refine parse_token read ?_ whole blankBefore blankBehind
    intro composite
    rw [show e.kind = .subBlock from composite] at editable
    cases editable
  · intro source declared found only
    exact mem_blocks_of_declared read found only

/-- A text that begins and ends with the quotes around it, and with a delimiter of its own. -/
theorem readBlock?_quotable_quotes :
    let e : Enclosure := ⟨['d', '<'], '>', .decision⟩
    let text := "\"a\" > '''b'''\"".toList
    let front := " \"\"\" ".toList
    let back := "\"\"\"\t".toList
    let token := "d< \"\"\" \"a\" > '''b'''\"\"\"\"\t>".toList
    let b : Block :=
      { kind := .decision, text := "\"a\" > '''b'''\"", token := String.ofList token }
    e ∈ enclosures ∧ Framed ['"', '"', '"'] front back ∧ Quotable text ['"', '"', '"'] ∧
      Solid text ∧ '\n' ∉ token ∧ readBlock? token = some b ∧
      parse (String.ofList ("\n ".toList ++ (token ++ "\n".toList))) = ⟨[b], [], []⟩ ∧
      b ∈ (parse
        ("B\x7b *tm:x\n\x7d\n " ++ String.ofList token ++ "\nd<a>\n...\nd<a>")).blocks := by
  intro e text front back token b
  have member : e ∈ enclosures := by simp [e, enclosures]
  have framed : Framed ['"', '"', '"'] front back := by
    constructor
    case mark_mem => decide
    case front_eq => exact ⟨[' '], [' '], by decide, by decide, by decide⟩
    case back_eq => exact ⟨[], ['\t'], by decide, by decide, by decide⟩
  have quotable : Quotable text ['"', '"', '"'] := .three rfl
  have solid : Solid text := by decide
  have whole : '\n' ∉ token := by decide
  obtain ⟨read, alone, among⟩ := readBlock?_quotable member rfl framed quotable solid whole
  exact ⟨member, framed, quotable, solid, whole, read, alone _ _ (by decide) (by decide),
    among _ (by decide +kernel) (by decide +kernel)⟩

end Flowchart.Script
