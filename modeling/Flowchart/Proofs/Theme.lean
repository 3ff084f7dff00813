import Flowchart.Theme.Reader
import Mathlib.Data.List.Nodup
/-! Themes do not depend on the order in which the palettes of a file are visited: either every
order gives the same theme, or every order fails. An error names the first name on the way that is
no kind of block, so only with two such names does it depend on the order which one it is. -/
namespace Flowchart

namespace BlockKind

theorem name_of_ofName? {name : String} {kind : BlockKind} (found : ofName? name = some kind) :
    kind.name = name := by
  simpa using List.find?_some found

theorem name_injective : Function.Injective name := by
  intro a b same
  have found := ofName?_name a
  rw [same, ofName?_name] at found
  exact (Option.some.inj found).symm

end BlockKind

namespace Theme

/-- The names among the entries that are no kinds of blocks, in order. -/
def strangers (entries : List (String × Palette)) : List String :=
  (entries.map (·.1)).filter fun name => (BlockKind.ofName? name).isNone

theorem strangers_cons (name : String) (palette : Palette) (entries : List (String × Palette)) :
    strangers ((name, palette) :: entries) =
      if (BlockKind.ofName? name).isNone then name :: strangers entries else strangers entries := by
  rw [strangers, List.map_cons, List.filter_cons]
  rfl

theorem strangers_perm {order entries : List (String × Palette)} (same : order.Perm entries) :
    (strangers order).Perm (strangers entries) := (same.map _).filter _

/-- The theme has the palettes of the entries, and is else as before. -/
structure Takes (entries : List (String × Palette)) (before theme : Theme) : Prop where
  name : theme.name = before.name
  canvas : theme.canvas = before.canvas
  arrow : theme.arrow = before.arrow
  named : ∀ kind palette, (kind.name, palette) ∈ entries → theme.palette kind = palette
  others : ∀ kind, kind.name ∉ entries.map (·.1) → theme.palette kind = before.palette kind

section Entries
variable {entries order : List (String × Palette)} {before : Theme}

/-- Two themes that take the same entries are one. -/
theorem Takes.unique {a b : Theme} (left : Takes entries before a)
    (right : Takes entries before b) : a = b := by
  have palettes : a.palette = b.palette := by
    funext kind
    by_cases named : kind.name ∈ entries.map (·.1)
    · obtain ⟨⟨_, palette⟩, member, rfl⟩ := List.mem_map.mp named
      exact (left.named kind palette member).trans (right.named kind palette member).symm
    · exact (left.others kind named).trans (right.others kind named).symm
  cases a
  cases b
  congr
  · exact left.name.trans right.name.symm
  · exact left.canvas.trans right.canvas.symm
  · exact left.arrow.trans right.arrow.symm

theorem Takes.perm {theme : Theme} (takes : Takes entries before theme)
    (same : order.Perm entries) : Takes order before theme where
  name := takes.name
  canvas := takes.canvas
  arrow := takes.arrow
  named kind palette member := takes.named kind palette (same.subset member)
  others kind absent := by
    refine takes.others kind fun member => absent ?_
    exact (same.map _).symm.subset member

theorem takes_setPalette {kind : BlockKind} {palette : Palette} {theme : Theme}
    (fresh : kind.name ∉ entries.map (·.1))
    (takes : Takes entries (before.setPalette kind palette) theme) :
    Takes ((kind.name, palette) :: entries) before theme where
  name := takes.name
  canvas := takes.canvas
  arrow := takes.arrow
  named other given member := by
    rcases List.mem_cons.mp member with same | later
    · obtain ⟨own, rfl⟩ := Prod.mk.inj same
      obtain rfl := BlockKind.name_injective own
      rw [takes.others other fresh]
      exact if_pos rfl
    · exact takes.named other given later
  others other absent := by
    rw [List.map_cons, List.mem_cons, not_or] at absent
    have different : other ≠ kind := fun same => absent.1 (congrArg BlockKind.name same)
    rw [takes.others other absent.2]
    exact if_neg different

theorem setPalettes_takes (distinct : (entries.map (·.1)).Nodup) (known : strangers entries = [])
    (before : Theme) :
    ∃ theme, before.setPalettes entries = .ok theme ∧ Takes entries before theme := by
  induction entries generalizing before with
  | nil => exact ⟨before, rfl, rfl, rfl, rfl, by simp, fun _ _ => rfl⟩
  | cons entry entries ih =>
    obtain ⟨name, palette⟩ := entry
    obtain ⟨fresh, others⟩ := List.nodup_cons.mp distinct
    rw [strangers_cons] at known
    cases found : BlockKind.ofName? name with
    | none => simp [found] at known
    | some kind =>
      obtain ⟨theme, set, takes⟩ := ih others (by simpa [found] using known)
        (before.setPalette kind palette)
      obtain rfl := BlockKind.name_of_ofName? found
      exact ⟨theme, by simp only [setPalettes, found, set], takes_setPalette fresh takes⟩

theorem visit_takes (distinct : (entries.map (·.1)).Nodup) (known : strangers entries = [])
    (order : VisitOrder) (before : Theme) :
    ∃ theme, before.setPalettes (order.visit entries) = .ok theme ∧ Takes entries before theme := by
  have same := order.perm entries
  obtain ⟨theme, set, takes⟩ := setPalettes_takes ((same.map (·.1)).nodup_iff.mpr distinct)
    (known ▸ strangers_perm same).eq_nil before
  exact ⟨theme, set, takes.perm same.symm⟩

theorem setPalettes_error {name : String} (first : (strangers entries).head? = some name)
    (before : Theme) : before.setPalettes entries = .error (.unknownKind name) := by
  induction entries generalizing before with
  | nil => cases first
  | cons entry entries ih =>
    obtain ⟨other, palette⟩ := entry
    rw [strangers_cons] at first
    cases found : BlockKind.ofName? other with
    | none =>
      obtain rfl : other = name := by simpa [found] using first
      simp only [setPalettes, found]
    | some kind =>
      simp only [setPalettes, found]
      exact ih (by simpa [found] using first) _

end Entries

/-- The standard theme as a file that names every kind. -/
def standardFile : ThemeFile where
  name := standard.name
  canvas := some standard.canvas
  arrow := some standard.arrow
  palettes := BlockKind.all.map fun kind => (kind.name, standard.palette kind)

/-- The standard theme is a file on top of any theme, in every order of its palettes. -/
theorem merge_standardFile (order : VisitOrder) (before : Theme) :
    merge order before standardFile = .ok standard := by
  have distinct : (standardFile.palettes.map (·.1)).Nodup := by decide
  have known : strangers standardFile.palettes = [] := by decide
  obtain ⟨theme, set, takes⟩ := visit_takes distinct known order
    { before with
      name := standard.name
      canvas := standard.canvas
      arrow := standard.arrow }
  refine set.trans (congrArg Except.ok (takes.unique ?_))
  constructor
  case name | canvas | arrow => rfl
  case named =>
    intro kind palette member
    obtain ⟨other, -, same⟩ := List.mem_map.mp member
    obtain ⟨names, rfl⟩ := Prod.mk.inj same
    rw [BlockKind.name_injective names]
  case others =>
    intro kind absent
    refine absurd ?_ absent
    rw [standardFile, List.map_map]
    exact List.mem_map_of_mem (BlockKind.mem_all kind)

/-- The standard theme with what a file says apart from palettes. -/
def framed (file : ThemeFile) : Theme where
  name := file.name <|> standard.name
  canvas := file.canvas.getD standard.canvas
  arrow := file.arrow.getD standard.arrow
  palette := standard.palette

theorem load_eq (order : VisitOrder) (file : ThemeFile) :
    load order file = (framed file).setPalettes (order.visit file.palettes) := rfl

theorem ofText_eq_load {text : String} {file : ThemeFile}
    (read : ThemeFile.read? text = some file) (order : VisitOrder) :
    ofText order text = load order file := by
  rw [ofText, read]

/-- Every arrangement of a list is what some order visits. -/
theorem VisitOrder.exists_visit {entries arranged : List (String × Palette)}
    (same : arranged.Perm entries) : ∃ order : VisitOrder, order.visit entries = arranged := by
  refine ⟨⟨fun given => if given = entries then arranged else given, ?_⟩, if_pos rfl⟩
  intro given
  split
  next own => exact own ▸ same
  next => exact .refl _

/-- How loading a file depends on the order in which its palettes are visited. -/
structure OrderLaw (file : ThemeFile) : Prop where
  text : ∀ text, ThemeFile.read? text = some file → ∀ order, ofText order text = load order file
  loads : strangers file.palettes = [] → ∃ theme, Takes file.palettes (framed file) theme ∧
    ∀ order, load order file = .ok theme
  fails : strangers file.palettes ≠ [] → ∀ order, ∃ name ∈ strangers file.palettes,
    (strangers (order.visit file.palettes)).head? = some name ∧
      load order file = .error (.unknownKind name)
  single : ∀ name, strangers file.palettes = [name] → ∀ order,
    load order file = .error (.unknownKind name)
  each : ∀ name ∈ strangers file.palettes, ∃ order, load order file = .error (.unknownKind name)

section Orders
variable {file : ThemeFile}

theorem load_fails (failing : strangers file.palettes ≠ []) (order : VisitOrder) :
    ∃ name ∈ strangers file.palettes, (strangers (order.visit file.palettes)).head? = some name ∧
      load order file = .error (.unknownKind name) := by
  have same := strangers_perm (order.perm file.palettes)
  cases first : (strangers (order.visit file.palettes)).head? with
  | none =>
    rw [List.head?_eq_none_iff] at first
    exact absurd (first ▸ same).nil_eq.symm failing
  | some name =>
    exact ⟨name, same.subset (List.mem_of_head? first), rfl, setPalettes_error first _⟩

theorem exists_order {name : String} (member : name ∈ strangers file.palettes) :
    ∃ order, load order file = .error (.unknownKind name) := by
  obtain ⟨listed, strange⟩ := List.mem_filter.mp member
  obtain ⟨entry, present, rfl⟩ := List.mem_map.mp listed
  obtain ⟨order, visits⟩ := VisitOrder.exists_visit (List.perm_cons_erase present).symm
  refine ⟨order, ?_⟩
  rw [load_eq, visits]
  apply setPalettes_error
  rw [strangers_cons, if_pos strange, List.head?_cons]

end Orders

/-- Either every order of the palettes gives the theme that the file asks for, or every order fails,
and then it names the first name on its way that is no kind of block. -/
theorem load_orderLaw {file : ThemeFile} (distinct : (file.palettes.map (·.1)).Nodup) :
    OrderLaw file where
  text _ read := ofText_eq_load read
  loads known := by
    obtain ⟨theme, set, takes⟩ := setPalettes_takes distinct known (framed file)
    refine ⟨theme, takes, ?_⟩
    intro order
    obtain ⟨other, found, likewise⟩ := visit_takes distinct known order (framed file)
    rw [load_eq, found, takes.unique likewise]
  fails failing order := load_fails failing order
  single name only order := by
    have failing : strangers file.palettes ≠ [] := only ▸ List.cons_ne_nil name []
    obtain ⟨other, member, -, failed⟩ := load_fails failing order
    obtain rfl := List.mem_singleton.mp (only ▸ member)
    exact failed
  each _ member := exists_order member

/-- One name is no kind of block, between two that are. -/
theorem load_orderLaw_hexagon :
    let palette : Palette := ⟨"#ffffff", "#000000", "#111111", "none"⟩
    let file : ThemeFile :=
      { palettes := [("process", palette), ("hexagon", palette), ("io", palette)] }
    (file.palettes.map (·.1)).Nodup ∧ strangers file.palettes = ["hexagon"] ∧ OrderLaw file := by
  intro palette file
  have distinct : (file.palettes.map (·.1)).Nodup := by decide
  exact ⟨distinct, by decide, load_orderLaw distinct⟩

/-- With two names that are no kinds of blocks the order shows in the error. -/
theorem load_two_strangers :
    let palette : Palette := ⟨"#ffffff", "#000000", "#111111", "none"⟩
    let file : ThemeFile := { palettes := [("trapezoid", palette), ("triangle", palette)] }
    let reversed : VisitOrder := ⟨List.reverse, List.reverse_perm⟩
    (file.palettes.map (·.1)).Nodup ∧
      load .listed file = .error (.unknownKind "trapezoid") ∧
      load reversed file = .error (.unknownKind "triangle") ∧
      load reversed file ≠ load .listed file := by
  intro palette file reversed
  have first : load .listed file = .error (.unknownKind "trapezoid") := rfl
  have second : load reversed file = .error (.unknownKind "triangle") := rfl
  refine ⟨by decide, first, second, ?_⟩
  rw [first, second]
  simp

end Theme
end Flowchart
