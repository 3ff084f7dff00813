import Flowchart.Script.Chart
import Flowchart.Proofs.Script.Line
import Flowchart.Proofs.Script.Token
/-! Declaring again with another token in the place of one. Where that token is a whole declaration
or stands in none, the same blocks are declared, but for the one that it names. -/
namespace Flowchart.Script
open Flowchart.Text

section Gather

theorem prefix_gather (d : Declaration) (depth : Int) (ls : List Line) :
    d.token <+: (gather d depth ls).1.token := by
  induction ls generalizing d depth with
  | nil => exact List.prefix_rfl
  | cons l ls ih =>
      rw [gather]
      split
      · have later := ih ⟨d.token ++ ' ' :: l.text, ⟨d.span.start, l.stop⟩⟩
          (depth + braceDepth l.text)
        exact (List.prefix_append d.token (' ' :: l.text)).trans later
      · exact List.prefix_rfl

theorem gather_left_suffix (d : Declaration) (depth : Int) (ls : List Line) :
    (gather d depth ls).2 <:+ ls := by
  induction ls generalizing d depth with
  | nil => exact List.suffix_rfl
  | cons l ls ih =>
      rw [gather]
      split
      · exact (ih _ _).trans (List.suffix_cons l ls)
      · exact List.suffix_rfl

theorem not_mem_gather {c : Char} (other : c ≠ ' ') {d : Declaration} (depth : Int) {ls : List Line}
    (absent : c ∉ d.token) (absents : ∀ l ∈ ls, c ∉ l.text) :
    c ∉ (gather d depth ls).1.token := by
  induction ls generalizing d depth with
  | nil => exact absent
  | cons l ls ih =>
      obtain ⟨first, others⟩ := List.forall_mem_cons.mp absents
      rw [gather]
      split
      · refine ih _ ?_ others
        simp [absent, other, first]
      · exact absent

/-- A character other than a space that is in no line is in no declared token. -/
theorem not_mem_declarations {c : Char} (other : c ≠ ' ') {ls : List Line}
    (absent : ∀ l ∈ ls, c ∉ l.text) : ∀ d ∈ declarations ls, c ∉ d.token := by
  induction ls using declarations.induct with
  | case1 => simp [declarations]
  | case2 l ls ih =>
      obtain ⟨first, others⟩ := List.forall_mem_cons.mp absent
      have next : c ∉ (nextDeclaration l ls).1.token ∧ (nextDeclaration l ls).2 <:+ ls := by
        unfold nextDeclaration
        simp only
        split
        · exact ⟨not_mem_gather other _ first others, gather_left_suffix _ _ ls⟩
        · exact ⟨first, List.suffix_rfl⟩
      rw [declarations]
      exact List.forall_mem_cons.mpr ⟨next.1, ih fun m member => others m (next.2.mem member)⟩

end Gather

section Lines
variable {old new : List Char} {ls ms : List Line}

theorem gather_replaceAll {d e : Declaration} (same : e.token = d.token) {depth : Int}
    (lines : texts ms = (texts ls).map (replaceAll old new))
    (absent : ¬ old <:+: (gather d depth ls).1.token) :
    (gather e depth ms).1.token = (gather d depth ls).1.token ∧
      texts (gather e depth ms).2 = (texts (gather d depth ls).2).map (replaceAll old new) := by
  induction ls generalizing d e depth ms with
  | nil =>
      obtain rfl := List.map_eq_nil_iff.mp lines
      exact ⟨same, rfl⟩
  | cons l ls ih =>
      obtain ⟨m, ms, rfl, text, rest⟩ := List.map_eq_cons_iff.mp lines
      rw [gather, gather]
      by_cases opened : 0 < depth
      · rw [gather, if_pos opened] at absent
        have kept : m.text = l.text := by
          rw [text]
          refine replaceAll_eq_self fun inside => absent ?_
          have joined : l.text <:+: d.token ++ ' ' :: l.text :=
            (List.suffix_cons ' ' l.text).isInfix.trans (List.suffix_append d.token _).isInfix
          have begins := prefix_gather ⟨d.token ++ ' ' :: l.text, ⟨d.span.start, l.stop⟩⟩
            (depth + braceDepth l.text) ls
          exact (inside.trans joined).trans begins.isInfix
        rw [if_pos opened, if_pos opened, kept]
        exact ih (by rw [same]) rest absent
      · rw [if_neg opened, if_neg opened]
        exact ⟨same, lines⟩

variable (solid : old ≠ []) (oldPlain : ¬ ['B', '\x7b'] <+: old)
  (newPlain : ¬ ['B', '\x7b'] <+: new)
include solid oldPlain newPlain

theorem nextDeclaration_replaceAll {l m : Line} (text : m.text = replaceAll old new l.text)
    (lines : texts ms = (texts ls).map (replaceAll old new))
    (exact : (nextDeclaration l ls).1.token = old ∨ ¬ old <:+: (nextDeclaration l ls).1.token) :
    (nextDeclaration m ms).1.token = replaceAll old new (nextDeclaration l ls).1.token ∧
      texts (nextDeclaration m ms).2 =
        (texts (nextDeclaration l ls).2).map (replaceAll old new) := by
  unfold nextDeclaration at exact ⊢
  simp only at exact ⊢
  by_cases brace : ['B', '\x7b'] <+: l.text
  · rw [if_pos (List.isPrefixOf_iff_prefix.mpr brace)] at exact ⊢
    have begins := prefix_gather ⟨l.text, l.span⟩ (braceDepth l.text) ls
    have absent : ¬ old <:+: (gather ⟨l.text, l.span⟩ (braceDepth l.text) ls).1.token := by
      refine exact.resolve_left ?_
      intro same
      exact oldPlain (same ▸ brace.trans begins)
    have kept : m.text = l.text := by
      rw [text]
      exact replaceAll_eq_self fun inside => absent (inside.trans begins.isInfix)
    rw [kept, if_pos (List.isPrefixOf_iff_prefix.mpr brace), replaceAll_eq_self absent]
    exact @gather_replaceAll old new ls ms ⟨l.text, l.span⟩ ⟨l.text, m.span⟩ rfl _ lines absent
  · rw [if_neg (mt List.isPrefixOf_iff_prefix.mp brace)] at exact ⊢
    have plain : ¬ ['B', '\x7b'] <+: m.text := by
      rw [text]
      rcases exact with rfl | absent
      · rwa [replaceAll_self solid]
      · rwa [replaceAll_eq_self absent]
    rw [if_neg (mt List.isPrefixOf_iff_prefix.mp plain)]
    exact ⟨text, lines⟩

/-- The declarations of the replaced lines are the declarations of the lines, replaced. -/
theorem declarations_replaceAll (lines : texts ms = (texts ls).map (replaceAll old new))
    (exact : ∀ d ∈ declarations ls, d.token = old ∨ ¬ old <:+: d.token) :
    (declarations ms).map (·.token) =
      (declarations ls).map fun d => replaceAll old new d.token := by
  induction ls using declarations.induct generalizing ms with
  | case1 =>
      obtain rfl := List.map_eq_nil_iff.mp lines
      rw [declarations]
      rfl
  | case2 l ls ih =>
      obtain ⟨m, ms, rfl, text, rest⟩ := List.map_eq_cons_iff.mp lines
      rw [declarations] at exact
      obtain ⟨first, others⟩ := List.forall_mem_cons.mp exact
      obtain ⟨token, left⟩ := nextDeclaration_replaceAll solid oldPlain newPlain text rest first
      rw [declarations, declarations, List.map_cons, List.map_cons, token, ih left others]

end Lines

namespace Registry
variable {blocks : Registry}

theorem mem_declare {b c : Block} (member : c ∈ blocks.declare b) : c ∈ blocks ∨ c = b := by
  unfold declare at member
  split at member
  · exact .inl member
  · exact (List.mem_append.mp member).imp_right List.mem_singleton.mp

theorem mem_keys_declare (b : Block) (k : List Char) :
    k ∈ (blocks.declare b).map key ↔ k ∈ blocks.map key ∨ k = key b := by
  by_cases known : ∃ c ∈ blocks, key c = key b
  · obtain ⟨c, member, same⟩ := known
    rw [declare_of_known member same]
    refine ⟨.inl, fun either => either.elim id ?_⟩
    rintro rfl
    exact same ▸ List.mem_map_of_mem member
  · rw [declare_of_fresh fun c member same => known ⟨c, member, same⟩]
    simp

/-- Every block comes from a declaration that is its token. -/
theorem mem_foldl_add {ds : List Declaration} {b : Block} (member : b ∈ ds.foldl add blocks) :
    b ∈ blocks ∨ ∃ d ∈ ds, d.token = b.token.toList := by
  induction ds generalizing blocks with
  | nil => exact .inl member
  | cons d ds ih =>
      rcases ih member with before | ⟨e, later, token⟩
      · unfold add at before
        split at before
        · next read =>
          rcases mem_declare before with old | rfl
          · exact .inl old
          · exact .inr ⟨d, List.mem_cons_self, (toList_token read).symm⟩
        · exact .inl before
      · exact .inr ⟨e, List.mem_cons_of_mem d later, token⟩

/-- The keys are those of all declarations that can be read. -/
theorem mem_keys_foldl_add {ds : List Declaration} {k : List Char} :
    k ∈ (ds.foldl add blocks).map key ↔
      k ∈ blocks.map key ∨ ∃ d ∈ ds, (readBlock? d.token).isSome = true ∧ strip d.token = k := by
  induction ds generalizing blocks with
  | nil => simp
  | cons d ds ih =>
      rw [List.foldl_cons, ih, add]
      cases read : readBlock? d.token with
      | none => simp [read]
      | some b =>
          have same : key b = strip d.token := by rw [key, toList_token read]
          simp only [mem_keys_declare, same, List.mem_cons, exists_eq_or_imp, read,
            Option.isSome_some, true_and]
          rw [or_assoc, eq_comm (a := k)]

section Relabel
variable {old new : List Char} {b : Block}

/-- A block, or another one in the place of the block with a given token. -/
def relabel (old : List Char) (b c : Block) : Block := if c.token.toList = old then b else c

/-- A block that has the old token, or neither token when blanks do not count. -/
def Apart (old new : List Char) (c : Block) : Prop :=
  c.token.toList = old ∨ key c ≠ strip old ∧ key c ≠ strip new

theorem key_relabel_iff (token : b.token.toList = new) {c e : Block} (left : Apart old new c)
    (right : Apart old new e) :
    key (relabel old b c) = key (relabel old b e) ↔ key c = key e := by
  have fresh : key b = strip new := by rw [key, token]
  have known {f : Block} (same : f.token.toList = old) : key f = strip old := by rw [key, same]
  unfold relabel
  by_cases first : c.token.toList = old
  · by_cases second : e.token.toList = old
    · rw [if_pos first, if_pos second, known first, known second]
      exact ⟨fun _ => rfl, fun _ => rfl⟩
    · obtain ⟨notOld, notNew⟩ := right.resolve_left second
      rw [if_pos first, if_neg second, fresh, known first]
      exact ⟨fun same => absurd same.symm notNew, fun same => absurd same.symm notOld⟩
  · obtain ⟨notOld, notNew⟩ := left.resolve_left first
    by_cases second : e.token.toList = old
    · rw [if_neg first, if_pos second, fresh, known second]
      exact ⟨fun same => absurd same notNew, fun same => absurd same notOld⟩
    · rw [if_neg first, if_neg second]

theorem declare_relabel (token : b.token.toList = new) {c : Block} (apart : Apart old new c)
    (aparts : ∀ e ∈ blocks, Apart old new e) :
    declare (blocks.map (relabel old b)) (relabel old b c) =
      (blocks.declare c).map (relabel old b) := by
  by_cases known : ∃ e ∈ blocks, key e = key c
  · obtain ⟨e, member, same⟩ := known
    rw [declare_of_known member same, declare_of_known (List.mem_map_of_mem member)]
    exact (key_relabel_iff token (aparts e member) apart).mpr same
  · have fresh : ∀ e ∈ blocks, key e ≠ key c := fun e member same => known ⟨e, member, same⟩
    rw [declare_of_fresh fresh, declare_of_fresh, List.map_append, List.map_singleton]
    intro _ member
    obtain ⟨e, inside, rfl⟩ := List.mem_map.mp member
    exact mt (key_relabel_iff token (aparts e inside) apart).mp (fresh e inside)

section Add
variable {a : Block} (readOld : readBlock? old = some a) (readNew : readBlock? new = some b)
include readOld readNew

theorem add_relabel {d e : Declaration} (token : e.token = replaceAll old new d.token)
    (exact : d.token = old ∨ ¬ old <:+: d.token)
    (apart : ∀ c, readBlock? d.token = some c → Apart old new c)
    (aparts : ∀ c ∈ blocks, Apart old new c) :
    add (blocks.map (relabel old b)) e = (blocks.add d).map (relabel old b) := by
  have fresh := toList_token readNew
  unfold add
  rcases exact with rfl | absent
  · have solid := (shaped_of_readBlock? readOld).ne_nil
    rw [token, replaceAll_self solid, readNew, readOld]
    have moved := declare_relabel fresh (apart a readOld) aparts
    rwa [relabel, if_pos (toList_token readOld)] at moved
  · rw [token, replaceAll_eq_self absent]
    cases read : readBlock? d.token with
    | none => rfl
    | some c =>
        have other : c.token.toList ≠ old := by
          rw [toList_token read]
          exact fun same => absent (same ▸ List.infix_rfl)
        have moved := declare_relabel fresh (apart c read) aparts
        rwa [relabel, if_neg other] at moved

theorem foldl_add_relabel {ds es : List Declaration}
    (tokens : es.map (·.token) = ds.map fun d => replaceAll old new d.token)
    (exact : ∀ d ∈ ds, d.token = old ∨ ¬ old <:+: d.token)
    (apart : ∀ d ∈ ds, ∀ c, readBlock? d.token = some c → Apart old new c)
    (aparts : ∀ c ∈ blocks, Apart old new c) :
    es.foldl add (blocks.map (relabel old b)) = (ds.foldl add blocks).map (relabel old b) := by
  induction ds generalizing blocks es with
  | nil =>
      obtain rfl := List.map_eq_nil_iff.mp tokens
      rfl
  | cons d ds ih =>
      obtain ⟨e, es, rfl, token, rest⟩ := List.map_eq_cons_iff.mp tokens
      obtain ⟨here, later⟩ := List.forall_mem_cons.mp exact
      obtain ⟨first, others⟩ := List.forall_mem_cons.mp apart
      rw [List.foldl_cons, List.foldl_cons, add_relabel readOld readNew token here first aparts]
      refine ih rest later others ?_
      intro c member
      unfold add at member
      split at member
      · next read =>
        rcases mem_declare member with inside | rfl
        · exact aparts c inside
        · exact first c read
      · exact aparts c member

end Add

/-- Where tokens are distinct, only one block is another one. -/
theorem map_relabel {i : Nat} {a : Block} (distinct : (blocks.map key).Nodup)
    (present : blocks[i]? = some a) (token : a.token.toList = old) :
    blocks.map (relabel old b) = blocks.set i b := by
  refine List.ext_getElem? fun j => ?_
  rw [List.getElem?_map]
  by_cases here : i = j
  · subst here
    rw [List.getElem?_set_self (List.getElem?_eq_some_iff.mp present).1, present, Option.map_some,
      relabel, if_pos token]
  · rw [List.getElem?_set_ne here]
    cases other : blocks[j]? with
    | none => rfl
    | some c =>
        rw [Option.map_some, relabel, if_neg]
        intro same
        exact here (index_unique distinct present other (by rw [key, key, token, same]))

end Relabel

end Registry

/-- The token of a block stands on one line. -/
theorem not_mem_newline_token {source : String} {b : Block} (member : b ∈ (parse source).blocks) :
    '\n' ∉ b.token.toList := by
  rcases Registry.mem_foldl_add member with absent | ⟨d, declared, token⟩
  · cases absent
  · rw [← token]
    refine not_mem_declarations (by decide) ?_ d declared
    intro l inside
    exact not_mem_newline_lines _ l ((List.takeWhile_prefix _).mem inside)

section Blocks
variable {ls ms : List Line} {i : Nat} {a b : Block}
  (present : (declaredBlocks (declarations ls))[i]? = some a)
  (exact : ∀ d ∈ declarations ls, d.token = a.token.toList ∨
    ¬ a.token.toList <:+: d.token ∧ strip d.token ≠ key a)
  (fresh : ∀ c ∈ (declaredBlocks (declarations ls)).eraseIdx i, key c ≠ key b)
include present exact fresh

/-- What is declared besides the block has neither its key nor the new one. -/
theorem apart_of_declared {d : Declaration} (member : d ∈ declarations ls) {c : Block}
    (made : readBlock? d.token = some c) : Registry.Apart a.token.toList b.token.toList c := by
  have token := toList_token made
  rcases exact d member with same | ⟨-, notOld⟩
  · exact .inl (token.trans same)
  · have named : key c = strip d.token := by rw [key, token]
    have declared : strip d.token ∈ (declaredBlocks (declarations ls)).map key :=
      Registry.mem_keys_foldl_add.mpr (.inr ⟨d, member, by rw [made]; rfl, rfl⟩)
    obtain ⟨e, inside, same⟩ := List.mem_map.mp declared
    obtain ⟨j, place⟩ := List.getElem?_of_mem inside
    refine .inr ⟨named ▸ notOld, ?_⟩
    rw [named, ← same]
    refine fresh e (List.mem_eraseIdx_iff_getElem?.mpr ⟨j, ?_, place⟩)
    rintro rfl
    obtain rfl := Option.some.inj (place.symm.trans present)
    exact notOld same.symm

/-- Where the token of a block is a whole declaration or in none, and no other block has the new
token, replacing it declares the new block in the place of the old one. -/
theorem declaredBlocks_replaceAll
    (lines : texts ms = (texts ls).map (replaceAll a.token.toList b.token.toList))
    (read : readBlock? b.token.toList = some b)
    (plain : a.kind ≠ .subBlock ∧ b.kind ≠ .subBlock) :
    declaredBlocks (declarations ms) = (declaredBlocks (declarations ls)).set i b := by
  have sound := declaredBlocks_sound (declarations ls)
  have readOld := sound.read a (List.mem_of_getElem? present)
  have whole : ∀ d ∈ declarations ls, d.token = a.token.toList ∨ ¬ a.token.toList <:+: d.token :=
    fun d member => (exact d member).imp_right And.left
  have tokens := declarations_replaceAll (shaped_of_readBlock? readOld).ne_nil
    (fun brace => plain.1 (kind_of_brace readOld brace))
    (fun brace => plain.2 (kind_of_brace read brace)) lines whole
  have moved := @Registry.foldl_add_relabel [] _ _ b a readOld read _ _ tokens whole
    (fun d member c made => apart_of_declared present exact fresh member made)
    (List.forall_mem_nil _)
  rw [declaredBlocks_eq, ← Registry.map_relabel sound.distinct present rfl, declaredBlocks_eq]
  exact moved

end Blocks
end Flowchart.Script
