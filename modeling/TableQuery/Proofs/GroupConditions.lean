import TableQuery.Proofs.DerivedTables
import TableQuery.Proofs.SameValues
import TableQuery.Proofs.Unscoped

/-! Conditions on groups. HAVING is evaluated over the rows of the grouped answer as WHERE would do
it over a table derived from them, so that the one can be written as the other. -/
namespace TableQuery

open List Work Table Grouping

open Sql

variable {targets : List Node} {name : String}

namespace Sql

theorem writeParts_singleton (part : String) : writeParts [part] = writePart part := by
  rw [writeParts, map_singleton, String.intercalate_singleton]

/-- The select up to its groups, without the clauses that come after GROUP BY. -/
def Select.core (q : Select) : Select :=
  { q with having := none, distinct := false, offset := none, orderBy := none, limit := none }

def Select.holding (q : Select) (p : Node) : Select := { q with having := some p }

/-- The select with a condition on the rows of a table that is derived from its groups. -/
def Select.overGroups (q : Select) (p : Node) (tag : Tag) : Select where
  targets := [.star {}]
  source := some (.select q.core tag)
  condition := some p

end Sql

namespace Table

variable {t : Table}

theorem names_bareNames (t : Table) : t.bareNames.names = t.names.map bareName := by
  rw [bareNames, names, names, map_map, map_map]
  rfl

/-- A table that a star can show: simple and rectangular, and without rows if it has no columns. -/
structure Showable (t : Table) : Prop extends t.Simple where
  rectangular : t.Rectangular
  height_eq : t.columns = [] → t.height = 0

theorem Simple.bareNames_eq (ht : t.Simple) : t.bareNames = t := by
  have hColumns : t.columns.map (fun c => (bareName c.1, c.2)) = t.columns :=
    (map_congr_left fun c hc => congrArg (·, c.2) (ht.mem_names hc).isWhole.bareName_eq).trans
      (map_id _)
  exact congrArg (Table.mk t.labels) hColumns

theorem Showable.filterRows (ht : t.Showable) (mask : List Bool) :
    (t.filterRows mask).Showable := by
  unfold Table.filterRows
  refine ⟨⟨?_, ?_⟩, ht.rectangular.pickRows _, fun hNone => ?_⟩
  · rw [names_pickRows]
    exact ht.nodup
  · rw [names_pickRows]
    exact ht.names
  · have hLabels : t.labels = [] := length_eq_zero_iff.1 (ht.height_eq (map_eq_nil_iff.1 hNone))
    simp [pickRows, height, hLabels]

/-- Every column shows each of its entries when it is made anew. -/
def StaysExact (t : Table) : Prop := ∀ column ∈ t.columns, column.2.StaysExact

/-- Columns that are made anew keep their values if they stay exact. -/
theorem alike_rebuilt (ht : t.StaysExact) : t.Alike t.rebuilt where
  height := (Column.length_freshLabels t.height).symm
  columns := by
    rw [rebuilt, forall₂_map_right_iff, forall₂_same]
    exact fun c hc => ⟨rfl, (ht c hc).forall₂_anew⟩

end Table

def answerName? (targets : List Node) (name : String) : Option String :=
  match targets.filter fun t => t.bareText == name with
  | [] => none
  | named => some ((named.reverse.findSome? fun t => t.tag.alias?.map Alias.render).getD name)

def noteColumn (targets : List Node) (answer : List (String × Data)) (column : String × Data) :
    List (String × Data) :=
  match answerName? targets column.1 with
  | none => answer
  | some name => setNamed answer name column.2

theorem answerColumns_eq_foldl (targets : List Node) (columns : List (String × Data)) :
    answerColumns targets columns = columns.foldl (noteColumn targets) [] := by
  unfold answerColumns
  congr 1
  funext answer column
  unfold noteColumn answerName?
  dsimp only
  generalize targets.filter _ = named
  cases named <;> rfl

theorem nodup_answerColumns (targets : List Node) (columns : List (String × Data)) :
    ((answerColumns targets columns).map (·.1)).Nodup := by
  rw [answerColumns_eq_foldl]
  refine foldlRecOn (motive := fun answer : List (String × Data) => (answer.map (·.1)).Nodup)
    columns _ (show (map _ []).Nodup from nodup_nil) fun answer hAnswer column _ => ?_
  unfold noteColumn
  split
  · exact hAnswer
  · exact nodup_setNamed hAnswer _ _

theorem bareText_ne_of_answerName? (h : answerName? targets name = none) :
    ∀ target ∈ targets, target.bareText ≠ name := by
  unfold answerName? at h
  split at h
  · rename_i hNamed
    intro target hTarget hName
    exact filter_eq_nil_iff.1 hNamed target hTarget (beq_iff_eq.2 hName)
  · cases h

theorem exists_of_answerName? {shown : String} (h : answerName? targets name = some shown) :
    ∃ target ∈ targets, target.bareText = name ∧ target.outputName = shown := by
  unfold answerName? at h
  split at h
  · cases h
  · rename_i hNamed
    cases h
    generalize hAlias : findSome? _ _ = alias?
    cases alias? with
    | some shown =>
      obtain ⟨target, hTarget, hShown⟩ := exists_of_findSome?_eq_some hAlias
      obtain ⟨a, ha, rfl⟩ := Option.map_eq_some_iff.1 hShown
      obtain ⟨hMem, hName⟩ := mem_filter.1 (mem_reverse.1 hTarget)
      refine ⟨target, hMem, beq_iff_eq.1 hName, ?_⟩
      rw [Node.outputName, ha]
      rfl
    | none =>
      obtain ⟨target, hTarget⟩ := exists_mem_of_ne_nil _ hNamed
      have hNone := findSome?_eq_none_iff.1 hAlias target (mem_reverse.2 hTarget)
      obtain ⟨hMem, hName⟩ := mem_filter.1 hTarget
      refine ⟨target, hMem, beq_iff_eq.1 hName, ?_⟩
      rw [Node.outputName, Option.map_eq_none_iff.1 hNone]
      exact beq_iff_eq.1 hName

/-- The columns of a grouped answer have the names of its targets. -/
theorem exists_outputName {columns : List (String × Data)} :
    ∀ c ∈ answerColumns targets columns, ∃ target ∈ targets, target.outputName = c.1 := by
  rw [answerColumns_eq_foldl]
  refine foldlRecOn (motive :=
    fun answer : List (String × Data) => ∀ c ∈ answer, ∃ target ∈ targets, target.outputName = c.1)
    columns _ (by simp) fun answer hAnswer column _ => ?_
  unfold noteColumn
  split
  · exact hAnswer
  · rename_i hName
    obtain ⟨target, hTarget, -, hShown⟩ := exists_of_answerName? hName
    exact names_setNamed (S := {n | ∃ target ∈ targets, target.outputName = n}) hAnswer
      ⟨target, hTarget, hShown⟩ _

theorem simple_groupTargets {extensions : List (String × Extension)} {keys : List Node}
    (hNames : ∀ target ∈ targets, IsSimple target.outputName) {source : GroupSource} {t : Table}
    (h : groupTargets extensions targets source keys = .ok t) :
    t.Simple ∧ (t.columns = [] → t.height = 0) := by
  obtain ⟨_, _, h⟩ := bind_eq_ok h
  obtain ⟨asked, _, h⟩ := bind_eq_ok h
  obtain ⟨g, _, h⟩ := bind_eq_ok h
  obtain ⟨all, _, h⟩ := bind_eq_ok h
  cases h
  refine ⟨⟨nodup_answerColumns targets all.columns, fun name hName => ?_⟩, fun hNone => ?_⟩
  · obtain ⟨c, hc, rfl⟩ := mem_map.1 hName
    obtain ⟨target, hTarget, hOutput⟩ := exists_outputName c hc
    rw [← hOutput]
    exact hNames target hTarget
  · dsimp only at hNone
    rw [hNone]
    rfl

namespace Query

variable {q : Select} {t : Table}

def evalGroupRows (q : Select) : Work Table := do
  let rows ← evalFrom q.source
  let rows ← evalWhere rows q.condition
  let keys ← Work.lift (groupKeys q.targets q.groupBy)
  let groups ← evalGroups rows q.groupBy
  groupedTable rows q.targets keys groups

def finishRows (q : Select) (t : Table) : Work Table := do
  arrangeRows q (← Work.lift (if q.distinct then t.distinct else .ok t))

/-- The rows of the groups are a table that a star can show. -/
theorem showable_of_evalGroupRows (hNames : ∀ target ∈ q.targets, IsSimple target.outputName)
    {w w' : Workspace} (h : run (evalGroupRows q) w = (.ok t, w')) : t.Showable := by
  obtain ⟨source, w₁, _, h⟩ := run_bind_eq_ok h
  obtain ⟨rows, w₂, _, h⟩ := run_bind_eq_ok h
  obtain ⟨keys, w₃, _, h⟩ := run_bind_eq_ok h
  obtain ⟨groups, w₄, hGroups, h⟩ := run_bind_eq_ok h
  obtain ⟨extensions, source, -, hTargets⟩ := groupTargets_of_groupedTable h
  obtain ⟨hSimple, hHeight⟩ := simple_groupTargets hNames hTargets
  exact ⟨hSimple, rectangular_of_groupedTable (whole_of_evalGroups hGroups) h, hHeight⟩

theorem evalSelect_grouped {key : Node} {rest : List Node}
    (hKeys : q.groupBy = some (key :: rest)) :
    evalSelect q = (do
      let t ← evalGroupRows q
      let t ← evalHaving true t q.having
      finishRows q t) := by
  have hGroupKeys : groupKeys q.targets q.groupBy = .ok (key :: rest) := by
    rw [hKeys]
    rfl
  have hLift : lift (.ok (key :: rest)) = pure (key :: rest) := rfl
  rw [evalSelect_eq]
  unfold evalRows evalGroupRows finishRows
  rw [hGroupKeys, hLift]
  simp only [bind_assoc, pure_bind, isEmpty_cons, Bool.false_eq_true, if_false]
  rfl

def conditionOver (q : Select) (p : Node) : Work Value := do
  let id ← Work.newFrame (← evalSelect q)
  evalCondition (.frame id) p

end Query

/-- The truth values of a column of them. Where none is known it is false. -/
def Data.truths : Data → List Bool
  | .bools bs => bs
  | .nullableBools bs => bs.map (·.getD false)
  | _ => []

namespace Query

/-- A condition has one truth value for each row of a select, under the label of the row. -/
structure Decides (q : Select) (p : Node) (w : Workspace) (t : Table) (c : Column) : Prop where
  rows : (Work.run (evalSelect q) w).1 = .ok t
  value : ∃ origin, (Work.run (conditionOver q p) w).1 = .ok (.column c origin)
  truth : c.data.dtype = .bools ∨ c.data.dtype = .nullableBools
  labels : Cell.sameAll c.labels t.labels = true
  length : c.data.length = t.height

namespace Decides

variable {q : Select} {p : Node} {w : Workspace} {t : Table} {c : Column} (h : Decides q p w t c)
include h

theorem choice_eq : c.data.choice = .ok (.rows c.data.truths) := by
  have hTruth := h.truth
  cases hData : c.data <;> simp_all [Data.dtype, Data.choice, Data.truths]

theorem length_truths : c.data.truths.length = t.height := by
  have hTruth := h.truth
  rw [← h.length]
  cases hData : c.data <;> simp_all [Data.dtype, Data.length, Data.truths]

/-- The condition chooses the same rows by position and by label. -/
theorem choose_eq : t.choose c.data = .ok (t.filterRows c.data.truths) := by
  unfold Table.choose
  rw [h.choice_eq]
  exact if_pos (beq_iff_eq.2 h.length_truths)

theorem chooseByLabel_eq : t.chooseByLabel c = .ok (t.filterRows c.data.truths) := by
  unfold chooseByLabel
  rw [h.choice_eq]
  exact if_pos h.labels

end Decides

theorem run_finishRows_core (ht : t.Simple) (q : Select) (w : Workspace) :
    run (finishRows q.core t) w = (.ok t, w.withScope []) :=
  congrArg (fun u => (Except.ok u, w.withScope [])) ht.bareNames_eq

section Conditions

variable {q : Select} {key : Node} {keys : List Node} (hKeys : q.groupBy = some (key :: keys))
  {p : Node} {w v v' : Workspace} {t chosen : Table} {c : Column} {origin : Option Origin}

include hKeys

/-- The answer of a select up to its groups is the rows of the groups. -/
theorem run_evalSelect_core (hRows : run (evalGroupRows q) w = (.ok t, v)) (ht : t.Simple) :
    run (evalSelect q.core) w = (.ok t, v.withScope []) := by
  rw [evalSelect_grouped (q := q.core) hKeys]
  exact (run_bind_ok (x := evalGroupRows q) hRows).trans (run_finishRows_core ht q v)

theorem exists_groupRows_of_core (hNames : ∀ target ∈ q.targets, IsSimple target.outputName)
    (h : run (evalSelect q.core) w = (.ok t, v)) :
    t.Showable ∧ ∃ v₀, run (evalGroupRows q) w = (.ok t, v₀) ∧ v = v₀.withScope [] := by
  have hGrouped := h
  rw [evalSelect_grouped (q := q.core) hKeys] at hGrouped
  obtain ⟨rows, v₀, hRows, _⟩ := run_bind_eq_ok hGrouped
  have hShowable := showable_of_evalGroupRows (q := q.core) hNames hRows
  cases (run_evalSelect_core hKeys hRows hShowable.toSimple).symm.trans h
  exact ⟨hShowable, v₀, hRows, rfl⟩

theorem run_evalSelect_holding (hRows : run (evalGroupRows q) w = (.ok t, v))
    (hCondition : run (evalCondition (.frame v.frames.size) p)
      { v with frames := v.frames.push { table := t } } = (.ok (.column c origin), v'))
    (hChosen : t.chooseByLabel c = .ok chosen) :
    run (evalSelect (q.holding p)) w = run (finishRows q chosen) v' := by
  have hHaving : run (evalHaving true t (some p)) v = (.ok chosen, v') := by
    refine (run_bind_ok hCondition).trans ?_
    rw [run_lift, filterGroups, hChosen]
  rw [evalSelect_grouped (q := q.holding p) hKeys]
  refine (run_bind_ok (x := evalGroupRows q) hRows).trans ?_
  exact run_bind_ok hHaving

end Conditions

theorem afterFrom_overGroups (q : Select) (p : Node) (tag : Tag) (r : Relation) :
    afterFrom (q.overGroups p tag) r = (do
      let rows ← filter r (← evalCondition r p)
      afterFrom { targets := [.star {}], source := some (.select q.core tag) } rows) := by
  simp only [afterFrom, Select.overGroups, evalWhere, pure_bind, bind_assoc]
  rfl

/-- A condition on the rows of a table that is derived from the answer of a select up to its groups.
-/
theorem run_evalSelect_overGroups {q : Select} {p : Node} {w v v' : Workspace} {t chosen : Table}
    {c : Column} {origin : Option Origin} (hCore : run (evalSelect q.core) w = (.ok t, v))
    (hUses : Unscoped p.uses v) (hHeld : v.CacheHeld)
    (hCondition : run (evalCondition (.frame v.frames.size) p)
      { v with frames := v.frames.push { table := t } } = (.ok (.column c origin), v'))
    (hChosen : t.choose c.data = .ok chosen) (hShowable : chosen.Showable) (tag : Tag) :
    (run (evalSelect (q.overGroups p tag)) w).1 = .ok chosen.rebuilt := by
  obtain ⟨scope, hAlias⟩ := run_withAlias tag (.frame v.frames.size)
    { v with frames := v.frames.push { table := t } }
  have hFrom : run (evalFrom (some (.select q.core tag))) w = (.ok (.frame v.frames.size),
      { v with frames := v.frames.push { table := t } }.withScope scope) := by
    rw [evalFrom, evalSource, run_bind_ok hCore, run_bind_ok (run_newFrame t v), hAlias]
  obtain ⟨hTable, scope', hCondition'⟩ :=
    run_evalCondition_withScope hUses hHeld t scope hCondition
  have hFilter : run (filter (.frame v.frames.size) (.column c origin)) (v'.withScope scope') =
      (.ok (.frame v'.frames.size),
        { v' with frames := v'.frames.push { table := chosen } }.withScope scope') := by
    have hTable' : (v'.withScope scope').tableAt v.frames.size = t := hTable
    rw [run_filter, hTable', hChosen]
    rfl
  have hPushed : ({ v' with frames := v'.frames.push { table := chosen } }.withScope scope').tableAt
      v'.frames.size = chosen := Workspace.tableAt_push_size v' chosen
  have hSimple := hShowable.toSimple
  rw [← hPushed] at hShowable
  have hStar := run_targetTable_star hShowable.toSimple hShowable.rectangular hShowable.height_eq
  rw [hPushed] at hStar
  rw [evalSelect_eq_afterFrom, run_bind_ok (x := evalFrom (q.overGroups p tag).source) hFrom,
    afterFrom_overGroups, run_bind_ok hCondition', run_bind_ok hFilter, run_afterFrom_targets rfl,
    hStar]
  exact congrArg Except.ok hSimple.bareNames_shown

/-- HAVING is WHERE over a table that is derived from the groups. If the condition has a truth value
for each group, then both choose the groups for which it is true. All other clauses of the select
come after HAVING. -/
theorem having_eq_where_over_groups {q : Select} {key : Node} {keys : List Node} {p : Node}
    {w : Workspace} {t : Table} {c : Column} (hKeys : q.groupBy = some (key :: keys))
    (hNames : ∀ target ∈ q.targets, IsSimple target.outputName) (hHeld : w.CacheHeld)
    (hUses : Unscoped p.uses (Work.run (evalSelect q.core) w).2) (hDecides : Decides q.core p w t c)
    (hExact : (t.filterRows c.data.truths).StaysExact) (tag : Tag) :
    (Work.run (evalSelect (q.core.holding p)) w).1 = .ok (t.filterRows c.data.truths) ∧
    (∃ v, Work.run (evalSelect (q.holding p)) w =
        Work.run (finishRows q (t.filterRows c.data.truths)) v) ∧
    ∃ derived, (Work.run (evalSelect (q.overGroups p tag)) w).1 = .ok derived ∧
      derived.names = (t.filterRows c.data.truths).names ∧
      List.Forall₂ (List.Forall₂ Cell.SameValue) (t.filterRows c.data.truths).rows
        derived.rows := by
  obtain ⟨v, hCore⟩ : ∃ v, run (evalSelect q.core) w = (.ok t, v) :=
    ⟨_, Prod.ext hDecides.rows rfl⟩
  replace hUses : Unscoped p.uses v := by rwa [hCore] at hUses
  have hHeld' : v.CacheHeld := by
    have hMaintained := maintains_evalSelect outlastsQueries_cacheHeld q.core w hHeld
    rwa [hCore] at hMaintained
  obtain ⟨hShowable, v₀, hRows, rfl⟩ := exists_groupRows_of_core hKeys hNames hCore
  have hChosen := hShowable.filterRows c.data.truths
  obtain ⟨origin, hValue⟩ := hDecides.value
  rw [conditionOver, run_bind_ok hCore, run_bind_ok (run_newFrame t _)] at hValue
  -- HAVING finds the tables of the select in scope, which is nothing to the condition
  obtain ⟨_, scope, hHaving⟩ := run_evalCondition_withScope hUses hHeld' t v₀.catalog.scope
    (Prod.ext hValue rfl)
  refine ⟨?_, ⟨_, run_evalSelect_holding hKeys hRows hHaving hDecides.chooseByLabel_eq⟩, ?_⟩
  · rw [run_evalSelect_holding (q := q.core) hKeys hRows hHaving hDecides.chooseByLabel_eq,
      run_finishRows_core hChosen.toSimple]
  · have hSame := alike_rebuilt hExact
    exact ⟨_,
      run_evalSelect_overGroups hCore hUses hHeld' (Prod.ext hValue rfl) hDecides.choose_eq hChosen
        tag,
      hSame.names.symm, hSame.rows⟩

def gapRows : Table := ⟨Column.freshLabels 3,
  [("k", .ints .int64 [1, 2, 3]), ("v", .nullableInts .int64 [some 10, none, some 30])]⟩

/-- `SELECT k, max(v) AS m FROM t GROUP BY k LIMIT 1`. -/
def firstGroup : Select :=
  { targets :=
      [.name ["k"] {}, .operation (.call false) "max" [.name ["v"] {}]
        { alias? := some { parts := ["m"] } }]
    source := some (.name ["t"] {})
    groupBy := some [.name ["k"] {}]
    limit := some (.constant (.int 1) {}) }

/-- `m > 15`. -/
def overFifteen : Node := .operation .binary ">" [.name ["m"] {}, .constant (.int 15) {}] {}

def gapGroups : Table := ⟨Column.freshLabels 3,
  [("k", .ints .int64 [1, 2, 3]), ("m", .nullableInts .int64 [some 10, none, some 30])]⟩

def gapWorkspace : Workspace :=
  (Work.run (evalFrom firstGroup.source) (.ofTables [("t", gapRows)])).2

def gapGrouping : Grouping := ⟨gapRows, [("k", .ints .int64 [1, 2, 3])], [[0], [1], [2]]⟩

theorem groupBy_gapRows : gapRows.groupBy ["k"] = .ok gapGrouping := by
  have hGroups : ofKeyedRows (keyedRows 3 [.ints .int64 [1, 2, 3]]) = [[0], [1], [2]] := by
    cbv
  change Except.ok (mk gapRows
    [("k", Data.keyEntries _ (ofKeyedRows (keyedRows 3 [.ints .int64 [1, 2, 3]])))]
    (ofKeyedRows (keyedRows 3 [.ints .int64 [1, 2, 3]]))) = _
  rw [hGroups]
  rfl

theorem run_evalGroupRows_gap :
    run (evalGroupRows firstGroup) (.ofTables [("t", gapRows)]) =
      (.ok gapGroups, gapWorkspace) := by
  have hFrom : run (evalFrom firstGroup.source) (.ofTables [("t", gapRows)]) =
      (.ok (.frame 0), gapWorkspace) := Prod.ext rfl rfl
  have hWhere : run (evalWhere (.frame 0) firstGroup.condition) gapWorkspace =
      (.ok (.frame 0), gapWorkspace) := rfl
  have hKeys : run (evalKeys (.frame 0) [.name ["k"] {}]) gapWorkspace =
      (.ok ["k"], gapWorkspace) := rfl
  have hSource : run (groupSource (.frame 0) ["k"]) gapWorkspace =
      (GroupSource.grouping <$> gapRows.groupBy ["k"], gapWorkspace) := rfl
  have hGroups : run (evalGroups (.frame 0) firstGroup.groupBy) gapWorkspace =
      (.ok (some (.grouping gapGrouping)), gapWorkspace) := by
    rw [groupBy_gapRows] at hSource
    refine (run_bind_ok hKeys).trans ?_
    exact run_bind_ok hSource
  unfold evalGroupRows
  rw [run_bind_ok hFrom, run_bind_ok hWhere]
  refine (run_bind_ok (run_lift_ok _ _)).trans ?_
  rw [run_bind_ok hGroups]
  rfl

def gapTruths : Column :=
  ⟨Column.freshLabels 3, some "m", .nullableBools [some false, none, some true]⟩

theorem isSimple_firstGroup : ∀ target ∈ firstGroup.targets, IsSimple target.outputName := by
  intro target hTarget
  rcases mem_pair.1 hTarget with rfl | rfl <;> exact ⟨by decide, by decide, by decide⟩

theorem run_core_gap : run (evalSelect firstGroup.core) (.ofTables [("t", gapRows)]) =
    (.ok gapGroups, gapWorkspace.withScope []) :=
  run_evalSelect_core rfl run_evalGroupRows_gap
    (showable_of_evalGroupRows isSimple_firstGroup run_evalGroupRows_gap).toSimple

theorem decides_overFifteen :
    Decides firstGroup.core overFifteen (.ofTables [("t", gapRows)]) gapGroups gapTruths where
  rows := by rw [run_core_gap]
  value := by
    refine ⟨none, ?_⟩
    rw [conditionOver, run_bind_ok run_core_gap]
    rfl
  truth := .inr rfl
  labels := rfl
  length := rfl

theorem unscoped_overFifteen (w : Workspace) : Unscoped overFifteen.uses w := by
  have hStar (b : Bool) : Use.star b ∉ overFifteen.uses := by
    intro h
    rcases mem_pair.1 h with h | h <;> cases h
  refine ⟨fun table column h => ?_, hStar false, fun h => absurd h (hStar true),
    fun h => absurd h (hStar true), fun h => absurd h (hStar true)⟩
  rcases mem_pair.1 h with h | h <;> cases h

/-- The theorem at three groups, where the condition is unknown for one. -/
theorem having_eq_where_over_groups_gap :
    firstGroup.groupBy = some [.name ["k"] {}] ∧
    (∀ target ∈ firstGroup.targets, IsSimple target.outputName) ∧
    (Workspace.ofTables [("t", gapRows)]).CacheHeld ∧ (∀ w, Unscoped overFifteen.uses w) ∧
    Decides firstGroup.core overFifteen (.ofTables [("t", gapRows)]) gapGroups gapTruths ∧
    (gapGroups.filterRows gapTruths.data.truths).StaysExact ∧
    ∃ derived,
      (Work.run (evalSelect (firstGroup.overGroups overFifteen {}))
        (.ofTables [("t", gapRows)])).1 = .ok derived ∧
      derived.names = ["k", "m"] ∧
      List.Forall₂ (List.Forall₂ Cell.SameValue) [[.int 3, .packed (.int 30)]] derived.rows := by
  have hHeld : (Workspace.ofTables [("t", gapRows)]).CacheHeld := by
    intro i hi
    cases List.mem_singleton.1 hi
    exact Nat.zero_lt_one
  have hExact : (gapGroups.filterRows gapTruths.data.truths).StaysExact := by
    intro column hColumn
    rcases List.mem_pair.1 hColumn with rfl | rfl <;> exact nofun
  obtain ⟨_, _, hDerived⟩ := having_eq_where_over_groups rfl isSimple_firstGroup hHeld
    (unscoped_overFifteen _) decides_overFifteen hExact {}
  exact ⟨rfl, isSimple_firstGroup, hHeld, unscoped_overFifteen, decides_overFifteen, hExact,
    hDerived⟩

/-- `SELECT * FROM (SELECT k, max(v) AS m FROM t GROUP BY k LIMIT 1) AS q WHERE m > 15`. -/
def overFirstGroup : Select where
  targets := [.star {}]
  source := some (.select firstGroup { alias? := some { parts := ["q"] } })
  condition := some overFifteen

/-- A select that is put into a derived table with its last clauses is cut before the condition. -/
theorem having_ne_where_over_cut_groups :
    (Work.run (evalSelect (firstGroup.holding overFifteen)) (.ofTables [("t", gapRows)])).1 =
      .ok ⟨[.int 2], [("k", .ints .int64 [3]), ("m", .nullableInts .int64 [some 30])]⟩ ∧
    ∃ derived, (Work.run (evalSelect overFirstGroup) (.ofTables [("t", gapRows)])).1 = .ok derived ∧
      derived.rows = [] := by
  have hCondition : run (evalCondition (.frame gapWorkspace.frames.size) overFifteen)
      { gapWorkspace with frames := gapWorkspace.frames.push { table := gapGroups } } =
        (.ok (.column gapTruths none),
          { gapWorkspace with frames := gapWorkspace.frames.push { table := gapGroups } }) := rfl
  have hInner : run (evalSelect firstGroup) (.ofTables [("t", gapRows)]) =
      (.ok ⟨[.int 0], [("k", .ints .int64 [1]), ("m", .nullableInts .int64 [some 10])]⟩,
        gapWorkspace.withScope []) := by
    rw [evalSelect_grouped rfl, run_bind_ok run_evalGroupRows_gap]
    rfl
  have hOuter : (run (evalSelect overFirstGroup) (.ofTables [("t", gapRows)])).1 =
      .ok ⟨[], [("k", .floats []), ("m", .floats [])]⟩ := by
    have hSource : overFirstGroup.source =
        some (.select firstGroup { alias? := some { parts := ["q"] } }) := rfl
    rw [evalSelect_eq_afterFrom, hSource, evalFrom, evalSource, bind_assoc, run_bind_ok hInner]
    rfl
  refine ⟨?_, _, hOuter, rfl⟩
  rw [run_evalSelect_holding rfl run_evalGroupRows_gap hCondition
    decides_overFifteen.chooseByLabel_eq]
  rfl

end Query

end TableQuery
