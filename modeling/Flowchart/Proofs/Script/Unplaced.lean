import Flowchart.Proofs.Script.Skipping
/-! What a script says, without the places. The texts of the lines decide it: where they stand in
the source shows in the spans of the diagnostics and nowhere else. -/
namespace Flowchart.Script
open Flowchart.Text

section Unplaced

/-- What a diagnostic says, wherever it points. -/
def Diagnostic.unplaced (d : Diagnostic) : Diagnostic := d.moved fun _ => 0

def Walk.unplaced (w : Walk) : Walk := { w with diagnostics := w.diagnostics.map (·.unplaced) }

/-- A chart in which no diagnostic says where it points. -/
def Chart.unplaced (c : Chart) : Chart :=
  { c with diagnostics := c.diagnostics.map (·.unplaced) }

theorem Walk.unplaced_extend (w : Walk) (c : Cursor) (made : List Edge)
    (complaints : List Diagnostic) :
    (w.extend c made complaints).unplaced =
      w.unplaced.extend c made (complaints.map (·.unplaced)) := by
  simp only [extend, unplaced, List.map_append]

theorem Walk.cursor_eq_of_unplaced {w v : Walk} (same : w.unplaced = v.unplaced) :
    w.cursor = v.cursor := by
  have cursors : w.unplaced.cursor = v.unplaced.cursor := congrArg cursor same
  exact cursors

end Unplaced

section Complaints
variable (blocks : Registry) (f : Nat → Nat)

theorem unplaced_stranger (token : List Char) (l m : Line) :
    (stranger blocks token l).map (·.unplaced) = (stranger blocks token m).map (·.unplaced) := by
  rw [stranger, stranger]
  split <;> rfl

theorem unplaced_memberComplaints (l : Line) :
    (memberComplaints blocks (l.moved f)).map (·.unplaced) =
      (memberComplaints blocks l).map (·.unplaced) := by
  rw [memberComplaints, memberComplaints, Line.text_moved]
  split
  · rfl
  · exact unplaced_stranger blocks l.text (l.moved f) l

theorem unplaced_groupComplaints (l : Line) (ls : List Line) :
    (groupComplaints blocks (l.moved f) (ls.map (·.moved f))).map (·.unplaced) =
      (groupComplaints blocks l ls).map (·.unplaced) := by
  have members : (((groupBody ls).1.map (·.moved f)).flatMap (memberComplaints blocks)).map
      (·.unplaced) = ((groupBody ls).1.flatMap (memberComplaints blocks)).map (·.unplaced) := by
    rw [List.flatMap_map, List.map_flatMap, List.map_flatMap]
    exact List.flatMap_congr fun m _ => unplaced_memberComplaints blocks f m
  rw [groupComplaints, groupComplaints, groupBody_moved, isClosed_moved, List.map_append,
    List.map_append, members]
  split <;> rfl

/-- What there is to complain about in a statement is the same wherever its lines are. -/
theorem unplaced_complaints (said : Statement) (c : Cursor) (l : Line) (ls : List Line) :
    (said.complaints blocks c (l.moved f) (ls.map (·.moved f))).map (·.unplaced) =
      (said.complaints blocks c l ls).map (·.unplaced) := by
  cases said with
  | inlineBack source arrow target => exact unplaced_stranger blocks target (l.moved f) l
  | back arrow target =>
      simp only [Statement.complaints]
      split
      · rfl
      · exact unplaced_stranger blocks target (l.moved f) l
  | group arrow =>
      simp only [Statement.complaints, List.map_append, unplaced_groupComplaints]
      split <;> rfl
  | merge reference arrow =>
      simp only [Statement.complaints, List.map_append, unplaced_groupComplaints]
      rw [unplaced_stranger blocks reference (l.moved f) l]
  | arrow arrow => rfl
  | visit block => rfl
  | unknown => rfl

end Complaints

section Run
variable (blocks : Registry) (f : Nat → Nat)

theorem unplaced_step {w v : Walk} (same : v.unplaced = w.unplaced) (l : Line) (ls : List Line) :
    (v.step blocks (l.moved f) (ls.map (·.moved f))).1.unplaced =
      (w.step blocks l ls).1.unplaced := by
  rw [Walk.step_eq, Walk.step_eq, Line.text_moved, Walk.unplaced_extend, Walk.unplaced_extend,
    Walk.cursor_eq_of_unplaced same, Statement.made_moved, unplaced_complaints, same]

theorem left_moved (w v : Walk) (l : Line) (ls : List Line) :
    (v.step blocks (l.moved f) (ls.map (·.moved f))).2 =
      (w.step blocks l ls).2.map (·.moved f) := by
  rw [Walk.step_left, Walk.step_left, Line.text_moved, groupBody_moved]
  split <;> rfl

theorem unplaced_run {w v : Walk} (same : v.unplaced = w.unplaced) (ls : List Line) :
    (v.run blocks (ls.map (·.moved f))).unplaced = (w.run blocks ls).unplaced := by
  induction w, ls using Walk.run.induct blocks generalizing v with
  | case1 w =>
      rw [List.map_nil, Walk.run, Walk.run]
      exact same
  | case2 w l ls ih =>
      rw [List.map_cons, Walk.run, Walk.run, left_moved blocks f w]
      exact ih (unplaced_step blocks f same l ls)

end Run

section Read
variable {ls ms ss ts : List Line}

/-- Lines with the same texts are the same lines when they are moved to one place. -/
theorem moved_of_texts (same : texts ls = texts ms) :
    ls.map (·.moved fun _ => 0) = ms.map (·.moved fun _ => 0) := by
  have line (ls : List Line) : ls.map (·.moved fun _ => 0) = (texts ls).map (Line.mk · 0) := by
    rw [texts, List.map_map]
    rfl
  rw [line, line, same]

theorem run_of_texts (blocks : Registry) (same : texts ss = texts ts) :
    (Walk.run blocks {} ss).unplaced = (Walk.run blocks {} ts).unplaced := by
  rw [← unplaced_run blocks (fun _ => 0) rfl ss, moved_of_texts same, unplaced_run blocks _ rfl ts]

theorem tokens_moved (f : Nat → Nat) (ls : List Line) :
    (declarations (ls.map (·.moved f))).map (·.token) = (declarations ls).map (·.token) := by
  rw [declarations_eq, declarations_eq, Cut.passages_map _ (Line.text_moved f), List.map_map,
    List.map_map, List.map_map]
  exact List.map_congr_left fun p _ => p.token_map f

theorem tokens_of_texts (same : texts ls = texts ms) :
    (declarations ls).map (·.token) = (declarations ms).map (·.token) := by
  rw [← tokens_moved (fun _ => 0) ls, moved_of_texts same, tokens_moved]

variable {ds es : List Declaration} (tokens : ds.map (·.token) = es.map (·.token))
include tokens

theorem declaredBlocks_of_tokens : declaredBlocks ds = declaredBlocks es := by
  have told (ds : List Declaration) : declaredBlocks ds = (ds.map (·.token)).foldl
      (fun blocks token => Registry.add blocks ⟨token, ⟨0, 0⟩⟩) [] := by
    rw [declaredBlocks_eq, List.foldl_map]
    rfl
  rw [told, told, tokens]

theorem unplaced_declarationDiagnostics : (declarationDiagnostics ds).map (·.unplaced) =
    (declarationDiagnostics es).map (·.unplaced) := by
  have told (ds : List Declaration) : (declarationDiagnostics ds).map (·.unplaced) =
      (declarationDiagnostics ((ds.map (·.token)).map (Declaration.mk · ⟨0, 0⟩))).map
        (·.unplaced) := by
    simp only [declarationDiagnostics, List.map_filterMap, List.filterMap_map, List.map_map]
    refine List.filterMap_congr fun d _ => ?_
    simp only [Function.comp_apply]
    split <;> rfl
  rw [told ds, told es, tokens]

end Read

/-- The declared tokens and the texts of the structure are all that a chart depends on, but for the
places of its diagnostics. -/
theorem unplaced_readLines {ls ms ss ts : List Line}
    (tokens : (declarations ls).map (·.token) = (declarations ms).map (·.token))
    (same : texts ss = texts ts) : (readLines ls ss).unplaced = (readLines ms ts).unplaced := by
  have blocks := declaredBlocks_of_tokens tokens
  have walked := run_of_texts (declaredBlocks (declarations ms)) same
  have edges : (Walk.run (declaredBlocks (declarations ms)) {} ss).edges =
      (Walk.run (declaredBlocks (declarations ms)) {} ts).edges := (Walk.mk.inj walked).2.2.1
  have complaints := (Walk.mk.inj walked).2.2.2
  simp only [readLines, Chart.unplaced, List.map_append, blocks, edges, complaints,
    unplaced_declarationDiagnostics tokens]

end Flowchart.Script
