import Flowchart.Script.Declaration
import Flowchart.Proofs.Script.Registry
/-! Declared blocks. Each block is what its own token says, and no two tokens are equal when blanks
do not count. -/
namespace Flowchart.Script
open Flowchart.Text

theorem token_blockOf (kind : BlockKind) (payload token : List Char) :
    (blockOf kind payload token).token = String.ofList token := by
  cases kind <;> rfl

theorem exists_of_readBlock? {token : List Char} {b : Block} (read : readBlock? token = some b) :
    ∃ kind payload, form? token = some (kind, payload) ∧ b = blockOf kind payload token := by
  obtain ⟨⟨kind, payload⟩, found, rfl⟩ := Option.map_eq_some_iff.mp read
  exact ⟨kind, payload, found, rfl⟩

theorem readBlock?_of_form? {token payload : List Char} {kind : BlockKind}
    (found : form? token = some (kind, payload)) :
    readBlock? token = some (blockOf kind payload token) := by
  rw [readBlock?, found]
  rfl

theorem toList_token {token : List Char} {b : Block} (read : readBlock? token = some b) :
    b.token.toList = token := by
  obtain ⟨kind, payload, -, rfl⟩ := exists_of_readBlock? read
  rw [token_blockOf, String.toList_ofList]

namespace Registry

/-- What is true of every list of declared blocks. -/
structure Sound (blocks : Registry) : Prop where
  distinct : (blocks.map key).Nodup
  read : ∀ b ∈ blocks, readBlock? b.token.toList = some b

variable {blocks : Registry}

theorem Sound.empty : Sound [] := ⟨List.nodup_nil, List.forall_mem_nil _⟩

theorem declare_of_fresh {b : Block} (fresh : ∀ c ∈ blocks, key c ≠ key b) :
    blocks.declare b = blocks ++ [b] := by
  have unknown : blocks.resolve? b.token.toList = none := resolve?_eq_none_iff.mpr fresh
  rw [declare, unknown, Option.isSome_none, if_neg Bool.false_ne_true]

theorem declare_of_known {b c : Block} (known : c ∈ blocks) (same : key c = key b) :
    blocks.declare b = blocks := by
  cases found : blocks.resolve? b.token.toList with
  | none => exact absurd same (resolve?_eq_none_iff.mp found c known)
  | some i => rw [declare, found, Option.isSome_some, if_pos rfl]

theorem Sound.declare (sound : Sound blocks) {token : List Char} {b : Block}
    (read : readBlock? token = some b) : Sound (blocks.declare b) := by
  by_cases known : ∃ c ∈ blocks, key c = key b
  · obtain ⟨c, member, same⟩ := known
    rw [declare_of_known member same]
    exact sound
  · have fresh : ∀ c ∈ blocks, key c ≠ key b := fun c member same => known ⟨c, member, same⟩
    rw [declare_of_fresh fresh]
    constructor
    case distinct =>
      rw [List.map_append, List.map_singleton]
      refine List.nodup_append.mpr ⟨sound.distinct, List.nodup_singleton _, ?_⟩
      simpa using fresh
    case read =>
      intro c member
      rcases List.mem_append.mp member with old | new
      · exact sound.read c old
      · obtain rfl := List.mem_singleton.mp new
        rw [toList_token read]
        exact read

/-- One more declaration. What cannot be read declares nothing. -/
def add (blocks : Registry) (d : Declaration) : Registry :=
  match readBlock? d.token with
  | some b => blocks.declare b
  | none => blocks

theorem Sound.add (sound : Sound blocks) (d : Declaration) : Sound (blocks.add d) := by
  unfold Registry.add
  split
  · next read => exact sound.declare read
  · exact sound

theorem Sound.addAll (sound : Sound blocks) (ds : List Declaration) :
    Sound (ds.foldl Registry.add blocks) := by
  induction ds generalizing blocks with
  | nil => exact sound
  | cons d ds ih => exact ih (sound.add d)

end Registry

theorem declaredBlocks_eq (ds : List Declaration) :
    declaredBlocks ds = ds.foldl Registry.add [] := rfl

theorem foldl_add {kept later : Registry} (sound : (kept ++ later).Sound) {ds : List Declaration}
    (same : ds.map (·.token) = later.map (·.token.toList)) :
    ds.foldl Registry.add kept = kept ++ later := by
  induction later generalizing kept ds with
  | nil =>
      obtain rfl := List.map_eq_nil_iff.mp same
      rw [List.foldl_nil, List.append_nil]
  | cons b later ih =>
      obtain ⟨d, ds, rfl, token, rest⟩ := List.map_eq_cons_iff.mp same
      have read := sound.read b (List.mem_append_right kept List.mem_cons_self)
      have fresh : ∀ c ∈ kept, key c ≠ key b := by
        have distinct := sound.distinct
        rw [List.map_append, List.map_cons] at distinct
        intro c member
        exact (List.nodup_append.mp distinct).2.2 _ (List.mem_map_of_mem member) _
          List.mem_cons_self
      have added : kept.add d = kept ++ [b] := by
        rw [Registry.add, token, read]
        exact Registry.declare_of_fresh fresh
      rw [List.foldl_cons, added, ih, List.append_assoc, List.singleton_append]
      · rwa [List.append_assoc, List.singleton_append]
      · exact rest

/-- Sound blocks are declared by their tokens, one after another. -/
theorem declaredBlocks_of_sound {blocks : Registry} (sound : blocks.Sound) {ds : List Declaration}
    (same : ds.map (·.token) = blocks.map (·.token.toList)) : declaredBlocks ds = blocks :=
  @foldl_add [] blocks sound ds same

theorem declarationDiagnostics_eq_nil {ds : List Declaration}
    (read : ∀ d ∈ ds, (readBlock? d.token).isSome = true) : declarationDiagnostics ds = [] := by
  refine List.filterMap_eq_nil_iff.mpr ?_
  intro d member
  rw [if_neg]
  simp [Option.isNone_iff_eq_none, Option.isSome_iff_ne_none.mp (read d member)]

section Lines

/-- A line that opens a composite block closes it. -/
def BracesClosed (text : List Char) : Prop := ['B', '\x7b'] <+: text → braceDepth text ≤ 0

theorem nextDeclaration_of_closed {l : Line} (closed : BracesClosed l.text) (ls : List Line) :
    nextDeclaration l ls = (⟨l.text, l.span⟩, ls) := by
  unfold nextDeclaration
  simp only
  split
  · next brace =>
    have depth := closed (List.isPrefixOf_iff_prefix.mp brace)
    cases ls with
    | nil => rfl
    | cons next ls => rw [gather, if_neg (Int.not_lt.mpr depth)]
  · rfl

theorem declarations_of_closed {ls : List Line} (closed : ∀ l ∈ ls, BracesClosed l.text) :
    declarations ls = ls.map fun l => ⟨l.text, l.span⟩ := by
  induction ls with
  | nil => rw [declarations]; rfl
  | cons l ls ih =>
      obtain ⟨first, others⟩ := List.forall_mem_cons.mp closed
      rw [declarations, nextDeclaration_of_closed first, ih others]
      rfl

end Lines

theorem declaredBlocks_sound (ds : List Declaration) : (declaredBlocks ds).Sound :=
  Registry.Sound.empty.addAll ds

end Flowchart.Script
