import TableQuery.Proofs.JoinedNames

/-! Joins in a FROM clause. What a join gives is settled by the tables of its two sides and by the
columns that its condition compares. The condition says no more than that: it is not evaluated. -/
namespace TableQuery

open List Work

theorem Work.lift_bind {α β : Type} (x : Except Fault α) (f : α → Except Fault β) :
    lift (x >>= f) = lift x >>= fun a => lift (f a) := by
  cases x <;> rfl

namespace Table

section JoinTables

variable {kind : JoinKind} {leftName rightName leftOn rightOn : String} {l r joined : Table}
  (hJoin : joinTables kind leftName rightName leftOn rightOn l r = .ok joined)
variable {c : String} {d : Data}

include hJoin

theorem mem_names_of_joinTables : leftOn ∈ l.names ∧ rightOn ∈ r.names := by
  have hMem {t : Table} {c : String} {d : Data} (h : t.column c = .ok d) : c ∈ t.names :=
    mem_names_iff.2 (by simp [named_of_column h])
  obtain ⟨plain, hPlain, -⟩ := bind_eq_ok hJoin
  obtain ⟨lk, hlk, hPlain⟩ := bind_eq_ok hPlain
  obtain ⟨rk, hrk, -⟩ := bind_eq_ok hPlain
  exact ⟨hMem hlk, hMem hrk⟩

/-- What the columns of a joined table are called, those of the left table first. -/
theorem names_of_joinTables :
    joined.names =
      l.names.map (fun c => joinedName leftName rightName leftOn rightOn
          (endedName (keptNames leftOn rightOn r.names) "_x" c)) ++
        (keptNames leftOn rightOn r.names).map fun c =>
          joinedName leftName rightName leftOn rightOn (endedName l.names "_y" c) := by
  obtain ⟨l', r', key, hl, hr, -, hColumns⟩ := joinTables_eq_ok hJoin
  rw [names, hColumns, map_append, map_map, map_map]
  congr 1
  · have hLeft : l.names = l'.columns.map (·.1) := (names_of_eq_or hl).symm
    rw [hLeft, map_map]
    rfl
  · rw [← names_of_eq_or hr, ← names_joinedColumns, map_map]
    rfl

/-- Apart from the keys, a column of the left table is at the paired rows what it was. -/
theorem mem_joinTables_left (hc : c ≠ leftOn) (hMem : (c, d) ∈ l.columns) :
    (joinedName leftName rightName leftOn rightOn
        (endedName (keptNames leftOn rightOn r.names) "_x" c),
      d.reindex ((joinRows kind leftOn rightOn l r).map (·.left))) ∈ joined.columns := by
  obtain ⟨l', r', key, hl, hr, -, hColumns⟩ := joinTables_eq_ok hJoin
  rw [hColumns]
  refine mem_append_left _ (mem_map.2 ⟨(c, d), mem_columns_of_eq_or hl hc hMem, ?_⟩)
  rw [if_neg (by simp [hc])]

/-- Apart from the keys, a column of the right table is at the paired rows what it was. -/
theorem mem_joinTables_right (hc : c ≠ rightOn) (hMem : (c, d) ∈ r.columns) :
    (joinedName leftName rightName leftOn rightOn (endedName l.names "_y" c),
      d.reindex ((joinRows kind leftOn rightOn l r).map (·.right))) ∈ joined.columns := by
  obtain ⟨l', r', key, hl, hr, -, hColumns⟩ := joinTables_eq_ok hJoin
  rw [hColumns]
  refine mem_append_right _ (mem_map.2 ⟨(c, d), ?_, rfl⟩)
  have hKept : (c, d) ∈ r'.columns := mem_columns_of_eq_or hr hc hMem
  unfold joinedColumns
  split
  · exact mem_filter.2 ⟨hKept, by simpa using hc⟩
  · exact hKept

end JoinTables

end Table

namespace Query

open Sql

def comparedColumns (left right : Node) (condition : Option Node) :
    Except Fault (String × String) := do
  let sides ← conditionSides condition
  joinColumns (sideName left) (sideName right) sides.1 sides.2

def joinOn (kind : JoinKind) (left right : Node) (tag : Tag) (l r : Relation)
    (leftOn rightOn : String) : Work Relation := do
  let lt ← joinSide l
  let rt ← joinSide r
  let joined ← Work.lift (joinTables kind (sideName left) (sideName right) leftOn rightOn lt rt)
  withAlias tag (.frame (← Work.newFrame joined))

theorem evalSource_join (words : String) (left right : Node) (condition : Option Node)
    (implicit : Bool) (tag : Tag) :
    evalSource (.join words left right condition implicit tag) = (do
      let kind ← lift (JoinKind.ofWords words)
      let l ← evalSide left
      let r ← evalSide right
      let on ← lift (comparedColumns left right condition)
      joinOn kind left right tag l r on.1 on.2) := by
  rw [evalSource]
  simp only [comparedColumns, joinOn, lift_bind, bind_assoc]

def Yields (w : Workspace) (source : Node) (t : Table) : Prop :=
  ∃ id w', Work.run (evalSource source) w = (.ok (.frame id), w') ∧ w'.tableAt id = t

def SideTables (w : Workspace) (left right : Node) (l r : Table) : Prop :=
  ∃ lr rr v v', Work.run (evalSide left) w = (.ok lr, v) ∧
    Work.run (evalSide right) v = (.ok rr, v') ∧
    Work.run (joinSide lr) v' = (.ok l, v') ∧ Work.run (joinSide rr) v' = (.ok r, v')

structure Joins (w : Workspace) (words : String) (left right : Node) (condition : Option Node)
    (kind : JoinKind) (l r : Table) (leftOn rightOn : String) (joined : Table) : Prop where
  kind_eq : JoinKind.ofWords words = .ok kind
  sides : SideTables w left right l r
  on_eq : comparedColumns left right condition = .ok (leftOn, rightOn)
  joined_eq : joinTables kind (sideName left) (sideName right) leftOn rightOn l r = .ok joined

theorem SideTables.unique {w : Workspace} {left right : Node} {l r l' r' : Table}
    (h : SideTables w left right l r) (h' : SideTables w left right l' r') : l' = l ∧ r' = r := by
  obtain ⟨lr, rr, v, v', hLeft, hRight, hl, hr⟩ := h
  obtain ⟨lr', rr', u, u', hLeft', hRight', hl', hr'⟩ := h'
  cases hLeft.symm.trans hLeft'
  cases hRight.symm.trans hRight'
  cases hl.symm.trans hl'
  cases hr.symm.trans hr'
  exact ⟨rfl, rfl⟩

theorem run_joinSide_eq_ok {r : Relation} {w w' : Workspace} {t : Table}
    (h : run (joinSide r) w = (.ok t, w')) : w' = w := by
  unfold joinSide at h
  split at h
  · cases h
    rfl
  · split at h
    · cases h
      rfl
    · cases h
  · cases h
    rfl
  · cases h

section JoinOn

variable {kind : JoinKind} {left right : Node} {tag : Tag} {leftOn rightOn : String}
  {lr rr : Relation} {w : Workspace}

theorem run_joinOn {l r joined : Table} (hl : run (joinSide lr) w = (.ok l, w))
    (hr : run (joinSide rr) w = (.ok r, w))
    (hJoined : joinTables kind (sideName left) (sideName right) leftOn rightOn l r = .ok joined)
    (tag : Tag) :
    ∃ scope, run (joinOn kind left right tag lr rr leftOn rightOn) w =
        (.ok (.frame w.frames.size),
          { w with frames := w.frames.push { table := joined } }.withScope scope) := by
  unfold joinOn
  rw [run_bind_ok hl, run_bind_ok hr, hJoined, run_bind_ok (run_lift_ok joined w),
    run_bind_ok (run_newFrame joined w)]
  exact run_withAlias tag _ _

/-- A join that succeeds has joined the tables of its sides. -/
theorem run_joinOn_eq_ok {x : Relation} {w' : Workspace}
    (h : run (joinOn kind left right tag lr rr leftOn rightOn) w = (.ok x, w')) :
    ∃ l r joined, run (joinSide lr) w = (.ok l, w) ∧ run (joinSide rr) w = (.ok r, w) ∧
      joinTables kind (sideName left) (sideName right) leftOn rightOn l r = .ok joined := by
  obtain ⟨l, v, hl, hRest⟩ := run_bind_eq_ok h
  obtain rfl := run_joinSide_eq_ok hl
  obtain ⟨r, v', hr, hLast⟩ := run_bind_eq_ok hRest
  obtain rfl := run_joinSide_eq_ok hr
  obtain ⟨joined, v, hJoined, _⟩ := run_bind_eq_ok hLast
  rw [run_lift] at hJoined
  exact ⟨l, r, joined, hl, hr, congrArg Prod.fst hJoined⟩

end JoinOn

section Join

variable {w : Workspace} {words : String} {left right : Node} {condition : Option Node}
variable {joined : Table}

theorem Joins.yields {kind : JoinKind} {l r : Table} {leftOn rightOn : String}
    (h : Joins w words left right condition kind l r leftOn rightOn joined) (implicit : Bool)
    (tag : Tag) : Yields w (.join words left right condition implicit tag) joined := by
  obtain ⟨lr, rr, v, v', hLeft, hRight, hl, hr⟩ := h.sides
  obtain ⟨scope, hRun⟩ := run_joinOn hl hr h.joined_eq tag
  refine ⟨v'.frames.size, { v' with frames := v'.frames.push { table := joined } }.withScope scope,
    ?_, Workspace.tableAt_push_size v' joined⟩
  rw [evalSource_join, h.kind_eq, run_bind_ok (run_lift_ok _ _), run_bind_ok hLeft,
    run_bind_ok hRight, h.on_eq, run_bind_ok (run_lift_ok _ _), hRun]

/-- A join that gives a table has two tables and compares a column of each. -/
theorem Yields.joins {implicit : Bool} {tag : Tag}
    (h : Yields w (.join words left right condition implicit tag) joined) :
    ∃ kind l r leftOn rightOn,
      Joins w words left right condition kind l r leftOn rightOn joined := by
  obtain ⟨id, w', hRun, hTable⟩ := h
  have hParts := hRun
  rw [evalSource_join] at hParts
  obtain ⟨kind, v, hKind, hParts⟩ := run_bind_eq_ok hParts
  rw [run_lift, Prod.mk.injEq] at hKind
  obtain ⟨hKind, rfl⟩ := hKind
  obtain ⟨lr, v, hLeft, hParts⟩ := run_bind_eq_ok hParts
  obtain ⟨rr, v', hRight, hParts⟩ := run_bind_eq_ok hParts
  obtain ⟨on, v'', hOn, hParts⟩ := run_bind_eq_ok hParts
  rw [run_lift, Prod.mk.injEq] at hOn
  obtain ⟨hOn, rfl⟩ := hOn
  obtain ⟨l, r, t, hl, hr, hJoined⟩ := run_joinOn_eq_ok hParts
  have hJoins : Joins w words left right condition kind l r on.1 on.2 t :=
    ⟨hKind, ⟨lr, rr, v, v', hLeft, hRight, hl, hr⟩, hOn, hJoined⟩
  obtain ⟨_, _, hRun', rfl⟩ := hJoins.yields implicit tag
  cases hRun.symm.trans hRun'
  exact ⟨kind, l, r, on.1, on.2, hTable ▸ hJoins⟩

end Join

end Query

end TableQuery
