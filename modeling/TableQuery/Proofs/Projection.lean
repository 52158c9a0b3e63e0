import TableQuery.Proofs.GroupKeys

/-! The table that the targets of a select make of rows without groups. Values that fit the rows and
have different names stand side by side in the order of the targets. -/
namespace TableQuery

open List Work

open Sql

namespace Value

def inRows (n : Nat) : Value → List Cell
  | .column c _ => c.data.cells
  | v => List.replicate n v.toCell

/-- What is shown are the values in the rows, up to the type that is inferred. -/
theorem forall₂_shownIn (n : Nat) (v : Value) :
    Forall₂ Cell.ShownAs (v.inRows n) (v.shownIn n).cells := by
  cases v with
  | column c origin => exact Data.forall₂_shownAs_anew c.data
  | _ =>
    exact Data.forall₂_infer Or.inl fun hType _ hc =>
      Or.inr ⟨Census.num_or_null_of_dtype_floats hType hc, rfl⟩

end Value

namespace Table

variable {n : Nat} {values : List (String × Value)}

/-- Values with different names that fit some rows, one of them a column, are a table of these rows.
-/
theorem ofValues_of_fits (hn : n ≠ 0) (hFits : ∀ p ∈ values, p.2.Fits n)
    (hNodup : (values.map (·.1)).Nodup) (hColumn : ∃ p ∈ values, p.2.isColumn = true) :
    ofValues values = .ok ⟨Column.freshLabels n, values.map fun p => (p.1, p.2.shownIn n)⟩ := by
  have hRows : rowsAmong n values = n := by
    rw [rowsAmong, any_eq_true.2 hColumn, if_pos rfl, Nat.max_eq_left (Nat.one_le_iff_ne_zero.2 hn),
      ite_self]
  have hSome : values ≠ [] := by
    rintro rfl
    obtain ⟨p, hp, -⟩ := hColumn
    cases hp
  rw [ofValues_eq hFits fun hNone => absurd hNone hSome, hRows]
  refine congrArg (fun columns => Except.ok (Table.mk _ columns)) (map_congr_left fun p hp => ?_)
  obtain ⟨v, hv, hMem⟩ := exists_decisive? hp
  obtain rfl : v = p.2 := congrArg Prod.snd (inj_on_of_nodup_map hNodup hMem hp rfl)
  rw [hv]
  simp [shownAmong]

end Table

namespace Query

/-- The targets with references to the columns of some names, if there are any, in the place of the
first star. -/
def expanded (columns : Option (List String)) : List Node → List Node
  | [] => []
  | n :: rest =>
    if isStar n then (columns.map columnNodes).getD [n] ++ expanded none rest
    else n :: expanded columns rest

theorem expanded_of_no_star {columns : Option (List String)} {targets : List Node}
    (h : targets.any isStar = false) : expanded columns targets = targets := by
  induction targets with
  | nil => rfl
  | cons n rest ih =>
    rw [any_cons, Bool.or_eq_false_iff] at h
    rw [expanded, h.1, if_neg Bool.false_ne_true, ih h.2]

section Targets

variable {source : Relation} {columns : Option (List String)} {names : List String}
  {targets nodes others : List Node} {w w' : Workspace} {i : Nat} {values : List Value}

theorem run_evalArgs_append (h : run (evalArgs source (nodes ++ others)) w = (.ok values, w')) :
    ∃ vs us w₁, values = vs ++ us ∧ vs.length = nodes.length ∧
      run (evalArgs source nodes) w = (.ok vs, w₁) ∧
      run (evalArgs source others) w₁ = (.ok us, w') := by
  induction nodes generalizing w values with
  | nil => exact ⟨[], values, w, rfl, rfl, rfl, h⟩
  | cons n rest ih =>
    obtain ⟨v, w₁, hFirst, h⟩ := run_bind_eq_ok h
    obtain ⟨all, w₂, hAll, h⟩ := run_bind_eq_ok h
    cases h
    obtain ⟨vs, us, w₃, rfl, hLength, hRest, hOthers⟩ := ih hAll
    refine ⟨v :: vs, us, w₃, rfl, congrArg (· + 1) hLength, ?_, hOthers⟩
    rw [evalArgs, run_bind_ok hFirst, run_bind_ok hRest]
    rfl

theorem run_starTargets_columnNodes (hNames : ∀ c ∈ names, IsSimple c)
    (h : run (evalArgs source (columnNodes names)) w = (.ok values, w')) :
    run (starTargets source names) w =
      (.ok (((columnNodes names).map Node.outputName).zip values), w') := by
  induction names generalizing w values with
  | nil =>
    cases h
    rfl
  | cons name rest ih =>
    obtain ⟨hName, hNames⟩ := forall_mem_cons.1 hNames
    obtain ⟨v, w₁, hFirst, h⟩ := run_bind_eq_ok h
    obtain ⟨vs, w₂, hRest, h⟩ := run_bind_eq_ok h
    cases h
    rw [starTargets, if_neg (by simpa using hName.1)]
    rw [hName.isWhole.splitName_eq, run_bind_ok (x := columnOf [name] source) hFirst,
      run_bind_ok (ih hNames hRest)]
    rfl

/-- The values of targets are those of the targets with the star written out, one after the other.
-/
theorem run_evalTargets_expanded (hNames : ∀ names, columns = some names → ∀ c ∈ names, IsSimple c)
    (h : run (evalArgs source (expanded columns targets)) w = (.ok values, w')) :
    run (evalTargets source columns targets) w =
      (.ok (((expanded columns targets).map Node.outputName).zip values), w') := by
  induction targets generalizing columns w values with
  | nil =>
    cases h
    rfl
  | cons n rest ih =>
    unfold evalTargets
    split
    · rename_i names hStar
      rw [expanded, hStar, if_pos rfl] at h ⊢
      obtain ⟨vs, us, w₁, rfl, hLength, hFirst, hRest⟩ := run_evalArgs_append h
      rw [run_bind_ok (run_starTargets_columnNodes (hNames names rfl) hFirst),
        run_bind_ok (ih (fun _ h => by cases h) hRest), map_append, zip_append (by simp [hLength])]
      rfl
    · rename_i columns _ _ hOther
      have hStep : expanded columns (n :: rest) = n :: expanded columns rest := by
        rw [expanded]
        split
        · rename_i hStar
          cases columns with
          | none => rfl
          | some names => exact (hOther names rfl hStar).elim
        · rfl
      rw [hStep] at h ⊢
      obtain ⟨v, w₁, hFirst, h⟩ := run_bind_eq_ok h
      obtain ⟨vs, w₂, hRest, h⟩ := run_bind_eq_ok h
      cases h
      rw [run_bind_ok hFirst, run_bind_ok (ih hNames hRest)]
      rfl

/-- The table of targets without groups is that of their values. -/
theorem run_targetTable_expanded
    (hNames : targets.any isStar = true → ∀ c ∈ (w.tableAt i).names, IsSimple c)
    (h : run (evalArgs (.frame i) (expanded (some (w.tableAt i).names) targets)) w =
      (.ok values, w')) :
    run (targetTable targets [] none (.frame i)) w =
      (Table.ofValues
          (((expanded (some (w.tableAt i).names) targets).map Node.outputName).zip values),
        w') := by
  rw [targetTable, if_pos isEmpty_nil, starColumns]
  cases hStar : targets.any isStar with
  | true =>
    have hColumns : run (Relation.columns (.frame i)) w = (.ok (w.tableAt i).names, w) := rfl
    have hSimple (names : List String) (hSome : some (w.tableAt i).names = some names) :
        ∀ c ∈ names, IsSimple c := Option.some.inj hSome ▸ hNames hStar
    rw [if_pos rfl, bind_assoc, run_bind_ok hColumns, pure_bind,
      run_bind_ok (run_evalTargets_expanded hSimple h), run_lift]
  | false =>
    have hNone : expanded none targets = targets := expanded_of_no_star hStar
    rw [expanded_of_no_star hStar] at h ⊢
    rw [← hNone] at h
    rw [if_neg Bool.false_ne_true, pure_bind,
      run_bind_ok (run_evalTargets_expanded (fun _ h => by cases h) h), hNone, run_lift]

/-- Over a table that has rows, a select without groups whose values fit the rows, one of them a
column, and whose names are different has an answer. It shows the values side by side, in the order
of the targets, a scalar in every row. -/
theorem targets_side_by_side
    (hSimple : targets.any isStar = true → ∀ c ∈ (w.tableAt i).names, IsSimple c)
    (hNodes : nodes = expanded (some (w.tableAt i).names) targets)
    (hValues : Work.run (evalArgs (.frame i) nodes) w = (.ok values, w'))
    (hNames : (nodes.map Node.outputName).Nodup) (hRows : 1 ≤ (w.tableAt i).height)
    (hFits : ∀ v ∈ values, v.Fits (w.tableAt i).height)
    (hColumn : ∃ v ∈ values, v.isColumn = true) :
    ∃ t, Work.run (targetTable targets [] none (.frame i)) w = (.ok t, w') ∧
      t.height = (w.tableAt i).height ∧ t.names = nodes.map Node.outputName ∧
      List.Forall₂ (fun v c => c.2 = v.shownIn (w.tableAt i).height ∧
        List.Forall₂ Cell.ShownAs (v.inRows (w.tableAt i).height) c.2.cells) values t.columns := by
  subst hNodes
  let nodes := expanded (some (w.tableAt i).names) targets
  let pairs := (nodes.map Node.outputName).zip values
  have hLength : values.length = (nodes.map Node.outputName).length := by
    rw [← append_nil (expanded _ _)] at hValues
    obtain ⟨vs, us, w₁, rfl, hLength, -, hNil⟩ := run_evalArgs_append hValues
    cases hNil
    rw [append_nil, hLength, length_map]
  have hFirst : pairs.map (·.1) = nodes.map Node.outputName := map_fst_zip hLength.ge
  have hSecond : pairs.map (·.2) = values := map_snd_zip hLength.le
  have hShown : List.Forall₂ (fun v c => c.2 = v.shownIn (w.tableAt i).height ∧
      List.Forall₂ Cell.ShownAs (v.inRows (w.tableAt i).height) c.2.cells) (pairs.map (·.2))
      (pairs.map fun p => (p.1, p.2.shownIn (w.tableAt i).height)) := by
    rw [forall₂_map_left_iff, forall₂_map_right_iff, forall₂_same]
    exact fun p _ => ⟨rfl, p.2.forall₂_shownIn _⟩
  rw [hSecond] at hShown
  refine ⟨⟨Column.freshLabels (w.tableAt i).height, _⟩, ?_, Column.length_freshLabels _, ?_, hShown⟩
  · rw [run_targetTable_expanded hSimple hValues,
      Table.ofValues_of_fits (Nat.one_le_iff_ne_zero.1 hRows)]
    · exact fun p hp => hFits p.2 (of_mem_zip hp).2
    · rwa [hFirst]
    · obtain ⟨v, hv, hColumn⟩ := hColumn
      rw [← hSecond] at hv
      obtain ⟨p, hp, rfl⟩ := mem_map.1 hv
      exact ⟨p, hp, hColumn⟩
  · rw [Table.names, map_map, ← hFirst]
    rfl

end Targets

/-- The targets of `SELECT 'x' AS mark, *, v + 1`. -/
def markedTargets : List Node :=
  [.constant (.text "x") { alias? := some { parts := ["mark"] } }, .star {},
    .operation .binary "+" [.name ["v"] {}, .constant (.int 1) {}] {}]

def threeRead : Workspace :=
  (Work.run (evalFrom (some (.name ["t"] {}))) (.ofTables [("t", threeRows)])).2

/-- A constant, a star and a sum over three rows. -/
theorem targets_side_by_side_marked :
    ∃ t, Work.run (targetTable markedTargets [] none (.frame 0)) threeRead = (.ok t, threeRead) ∧
      t.height = 3 ∧ t.names = ["mark", "v", "v + 1"] ∧
      t.columns.map (·.2) =
        [.objects (List.replicate 3 (.text "x")), .ints .int64 [10, 20, 30],
          .ints .int64 [11, 21, 31]] := by
  let values : List Value :=
    [.scalar (.text "x"),
      .column ⟨Column.freshLabels 3, some "v", .ints .int64 [10, 20, 30]⟩ (some ⟨0, "v"⟩),
      .column ⟨Column.freshLabels 3, some "v", .ints .int64 [11, 21, 31]⟩ none]
  have hSimple : ∀ c ∈ (threeRead.tableAt 0).names, IsSimple c :=
    forall_mem_singleton.2 ⟨by decide, by decide, by decide⟩
  have hValues : run
      (evalArgs (.frame 0) (expanded (some (threeRead.tableAt 0).names) markedTargets)) threeRead =
      (.ok values, threeRead) := Prod.ext rfl rfl
  have hFits : ∀ v ∈ values, v.Fits (threeRead.tableAt 0).height :=
    forall_mem_cons.2 ⟨trivial, forall_mem_cons.2 ⟨rfl, forall_mem_singleton.2 rfl⟩⟩
  have hColumn : ∃ v ∈ values, v.isColumn = true :=
    ⟨_, mem_cons_of_mem _ mem_cons_self, rfl⟩
  obtain ⟨t, ht, hHeight, hNames, hShown⟩ :=
    targets_side_by_side (fun _ => hSimple) rfl hValues (by decide) (by decide) hFits hColumn
  have hData : List.Forall₂ Eq (values.map (Value.shownIn 3)) (t.columns.map (·.2)) :=
    forall₂_map_left_iff.2 (forall₂_map_right_iff.2 (hShown.imp fun _ _ h => h.1.symm))
  rw [forall₂_eq_eq_eq] at hData
  exact ⟨t, ht, hHeight, hNames, hData.symm⟩

end Query

end TableQuery
