import TableQuery.Proofs.Answers
import TableQuery.Proofs.JoinEndings
import TableQuery.Proofs.References

/-! Qualified names after a join. A shared column that is not compared is called by its table, so
its qualified name reads the joined rows. Every other qualified name reads the table as it was
before the join. -/
namespace TableQuery

open List Work Table

/-- A column name without a dot and without the endings that tell the two tables of a join apart. -/
structure Unmarked (name : String) : Prop where
  noDot : '.' ∉ name.toList
  notLeft : ¬['_', 'x'] <:+: name.toList
  notRight : ¬['_', 'y'] <:+: name.toList

/-- A name without a dot is the whole part after the last dot. -/
theorem qualified_inj {n m c d : String} (hc : '.' ∉ c.toList) (hd : '.' ∉ d.toList) :
    n ++ "." ++ c = m ++ "." ++ d ↔ n = m ∧ c = d := by
  have hLast {xs cs ds : List Char} (hcs : '.' ∉ cs) (h : '.' :: cs = xs ++ '.' :: ds) :
      xs = [] ∧ cs = ds := by
    cases xs with
    | nil => exact ⟨rfl, (cons.inj h).2⟩
    | cons x xs =>
      have hMem : '.' ∈ cs := (cons.inj h).2 ▸ mem_append_right xs mem_cons_self
      exact absurd hMem hcs
  constructor
  · intro h
    have hList : n.toList ++ '.' :: c.toList = m.toList ++ '.' :: d.toList := by
      simpa using congrArg String.toList h
    rcases append_eq_append_iff.1 hList with ⟨xs, hm, hRest⟩ | ⟨xs, hn, hRest⟩
    · obtain ⟨rfl, hcd⟩ := hLast hc hRest
      exact ⟨String.toList_inj.1 (by simpa using hm.symm), String.toList_inj.1 hcd⟩
    · obtain ⟨rfl, hcd⟩ := hLast hd hRest
      exact ⟨String.toList_inj.1 (by simpa using hn), String.toList_inj.1 hcd.symm⟩
  · rintro ⟨rfl, rfl⟩
    rfl

theorem ne_qualified {m n c : String} (hm : '.' ∉ m.toList) : m ≠ n ++ "." ++ c := by
  rintro rfl
  simp at hm

inductive JoinSide where
  | left
  | right

namespace JoinSide

def of {α : Type} (side : JoinSide) (l r : α) : α :=
  match side with
  | .left => l
  | .right => r

def position (side : JoinSide) (row : JoinRow) : Option Nat := side.of row.left row.right

end JoinSide

theorem calledName_eq_iff {table key : String} {others : List String} {m c : String}
    (hm : '.' ∉ m.toList) (hc : '.' ∉ c.toList) (hShared : c ∈ others ∧ c ≠ key) :
    calledName table key others m = table ++ "." ++ c ↔ m = c := by
  unfold calledName
  split
  · rw [qualified_inj hm hc]
    exact and_iff_right rfl
  · rename_i hOwn
    constructor
    · exact fun h => absurd h (ne_qualified hm)
    · rintro rfl
      exact absurd hShared hOwn

theorem calledName_ne {table other key : String} {others : List String} {m c : String}
    (hm : '.' ∉ m.toList) (hc : '.' ∉ c.toList) (h : table ≠ other ∨ ¬(c ∈ others ∧ c ≠ key)) :
    calledName table key others m ≠ other ++ "." ++ c := by
  unfold calledName
  split
  · rename_i hShared
    rw [Ne, qualified_inj hm hc]
    rintro ⟨rfl, rfl⟩
    exact h.elim (fun hTable => hTable rfl) fun hOwn => hOwn hShared
  · exact ne_qualified hm

namespace Table

variable {t t' l r joined : Table} {kind : JoinKind} {name : String}
variable {d : Data} {leftOn rightOn c key leftName rightName : String}
  {columns : List (String × Data)}
  {f : String × Data → String × Data}

theorem named_of_column (h : t.column name = .ok d) : t.named name = [d] := by
  unfold column at h
  split at h
  · cases h
  · rename_i hNamed
    cases h
    exact hNamed
  · cases h

theorem names_withObjects (t : Table) (name : String) : (t.withObjects name).names = t.names := by
  simp only [names, withObjects, map_map]
  refine map_congr_left fun c _ => ?_
  simp only [Function.comp]
  split <;> rfl

/-- Objects in place of a column's data change no other column. -/
theorem named_withObjects (t : Table) (name other : String) :
    (t.withObjects name).named other =
      if other = name then (t.named other).map fun d => .objects d.freeCells
        else t.named other := by
  obtain ⟨labels, columns⟩ := t
  simp only [named, withObjects]
  induction columns with
  | nil => simp
  | cons c rest ih =>
    by_cases hName : c.1 = name <;> by_cases hOther : other = name <;>
      by_cases hSame : c.1 = other <;> simp_all

def joinRows (kind : JoinKind) (leftOn rightOn : String) (l r : Table) : List JoinRow :=
  match l.named leftOn, r.named rightOn with
  | [lk], [rk] => JoinRow.ofKeys kind lk.freeCells rk.freeCells
  | _, _ => []

/-- The columns of the right table that a join keeps: a key that both tables have is there once. -/
def joinedColumns (leftOn rightOn : String) (r : Table) : List (String × Data) :=
  if leftOn == rightOn then r.columns.filter fun c => c.1 != rightOn else r.columns

theorem sideNames_eq_ok {ls rs leftNames rightNames : List String}
    (h : sideNames ls rs = .ok (leftNames, rightNames)) :
    leftNames = ls.map (endedName rs "_x") ∧ rightNames = rs.map (endedName ls "_y") := by
  unfold sideNames at h
  dsimp only at h
  split at h
  · cases h
  · cases h
    exact ⟨rfl, rfl⟩

/-- Keys that became objects are the same keys. -/
theorem freeCells_of_coerced {d' : Data} (coerced : Bool) (h : t.column name = .ok d)
    (h' : (if coerced then t.withObjects name else t).column name = .ok d') :
    d'.freeCells = d.freeCells := by
  have hNamed := named_of_column h
  have hNamed' := named_of_column h'
  cases coerced with
  | false =>
    rw [if_neg (by simp), hNamed] at hNamed'
    rw [(cons.inj hNamed').1]
  | true =>
    rw [if_pos rfl, named_withObjects, if_pos rfl, hNamed] at hNamed'
    rw [← (cons.inj hNamed').1]
    rfl

theorem mem_of_mem_joinedColumns {c : String × Data}
    (h : c ∈ joinedColumns leftOn rightOn r) : c ∈ r.columns := by
  unfold joinedColumns at h
  split at h
  · exact mem_of_mem_filter h
  · exact h

def keptNames (leftOn rightOn : String) (names : List String) : List String :=
  if leftOn = rightOn then names.filter (· ≠ rightOn) else names

theorem mem_keptNames_iff {names : List String} :
    c ∈ keptNames leftOn rightOn names ↔ c ∈ names ∧ ¬(leftOn = rightOn ∧ c = rightOn) := by
  unfold keptNames
  split <;> simp_all

theorem names_joinedColumns (leftOn rightOn : String) (r : Table) :
    (joinedColumns leftOn rightOn r).map (·.1) = keptNames leftOn rightOn r.names := by
  unfold joinedColumns keptNames
  by_cases hOn : leftOn = rightOn
  · rw [if_pos (beq_iff_eq.2 hOn), if_pos hOn, names, filter_map]
    congr 2
    funext c
    by_cases hc : c.1 = rightOn <;> simp [hc]
  · rw [if_neg (mt beq_iff_eq.1 hOn), if_neg hOn, names]

/-- Only a key is among the names that are not kept, and keys are called by their own names. -/
theorem calledName_keptNames (table leftOn rightOn : String) (names : List String) (c : String) :
    calledName table leftOn (keptNames leftOn rightOn names) c =
      calledName table leftOn names c := by
  have hShared : c ∈ keptNames leftOn rightOn names ∧ c ≠ leftOn ↔ c ∈ names ∧ c ≠ leftOn := by
    rw [mem_keptNames_iff]
    constructor
    · exact fun h => ⟨h.1.1, h.2⟩
    · exact fun h => ⟨⟨h.1, fun hKey => h.2 (hKey.2.trans hKey.1.symm)⟩, h.2⟩
  simp only [calledName, hShared]

theorem names_of_eq_or (h : t' = t ∨ t' = t.withObjects key) : t'.names = t.names := by
  rcases h with rfl | rfl
  · rfl
  · exact names_withObjects t key

theorem named_of_eq_or (h : t' = t ∨ t' = t.withObjects key) (hc : c ≠ key) :
    t'.named c = t.named c := by
  rcases h with rfl | rfl
  · rfl
  · rw [named_withObjects, if_neg hc]

theorem mem_columns_of_eq_or (h : t' = t ∨ t' = t.withObjects key)
    (hc : c ≠ key) (hMem : (c, d) ∈ t.columns) : (c, d) ∈ t'.columns := by
  rcases h with rfl | rfl
  · exact hMem
  · exact mem_map.2 ⟨(c, d), hMem, if_neg (by simpa using hc)⟩

theorem mem_names_of_eq_or (h : t' = t ∨ t' = t.withObjects key)
    {c : String × Data} (hc : c ∈ t'.columns) : c.1 ∈ t.names := by
  rw [← names_of_eq_or h]
  exact mem_map_of_mem hc

def dataNamed (columns : List (String × Data)) (name : String) : List Data :=
  (columns.filter fun c => c.1 == name).map (·.2)

theorem dataNamed_append (xs ys : List (String × Data)) (name : String) :
    dataNamed (xs ++ ys) name = dataNamed xs name ++ dataNamed ys name := by
  simp [dataNamed]

theorem dataNamed_map_eq_nil (h : ∀ c ∈ columns, (f c).1 ≠ name) :
    dataNamed (columns.map f) name = [] := by
  rw [dataNamed, map_eq_nil_iff, filter_eq_nil_iff]
  intro c hc
  obtain ⟨old, hOld, rfl⟩ := mem_map.1 hc
  simpa using h old hOld

/-- Renamed columns under a name are the columns that get it. -/
theorem dataNamed_map {old : String} (g : Data → Data)
    (hName : ∀ c ∈ columns, (f c).1 = name ↔ c.1 = old)
    (hData : ∀ c ∈ columns, c.1 = old → (f c).2 = g c.2) :
    dataNamed (columns.map f) name = (dataNamed columns old).map g := by
  unfold dataNamed
  induction columns with
  | nil => rfl
  | cons c rest ih =>
    have ih := ih (fun c hc => hName c (mem_cons_of_mem _ hc))
      fun c hc => hData c (mem_cons_of_mem _ hc)
    by_cases hOld : c.1 = old
    · have hNew := (hName c mem_cons_self).2 hOld
      rw [map_cons, filter_cons_of_pos (by simpa using hNew),
        filter_cons_of_pos (by simpa using hOld), map_cons, map_cons, map_cons, ih,
        hData c mem_cons_self hOld]
    · have hNew : ¬(f c).1 = name := fun h => hOld ((hName c mem_cons_self).1 h)
      rw [map_cons, filter_cons_of_neg (by simpa using hNew),
        filter_cons_of_neg (by simpa using hOld), ih]

theorem dataNamed_joinedColumns (leftOn : String) (r : Table) (hc : c ≠ rightOn) :
    dataNamed (joinedColumns leftOn rightOn r) c = r.named c := by
  unfold joinedColumns
  split
  · rw [dataNamed, filter_filter]
    congr 1
    refine filter_congr fun m _ => ?_
    by_cases hm : m.1 = c <;> simp [hm, hc]
  · rfl

/-- A table that was joined. A key that both tables have is one column; every other column is its
own at the paired rows. -/
def JoinedAs (kind : JoinKind) (leftOn rightOn : String) (l r : Table)
    (leftName rightName : String → String) (joined : Table) : Prop :=
  ∃ (l' r' : Table) (key : Data),
    (l' = l ∨ l' = l.withObjects leftOn) ∧ (r' = r ∨ r' = r.withObjects rightOn) ∧
    joined.labels = Column.freshLabels (joinRows kind leftOn rightOn l r).length ∧
    joined.columns =
      (l'.columns.map fun c =>
        (leftName c.1,
          if leftOn == rightOn && c.1 == leftOn then key
          else c.2.reindex ((joinRows kind leftOn rightOn l r).map (·.left)))) ++
      (joinedColumns leftOn rightOn r').map fun c =>
        (rightName c.1, c.2.reindex ((joinRows kind leftOn rightOn l r).map (·.right)))

theorem join_eq_ok (h : join kind leftOn rightOn l r = .ok joined) :
    JoinedAs kind leftOn rightOn l r (endedName (keptNames leftOn rightOn r.names) "_x")
      (endedName l.names "_y") joined := by
  obtain ⟨lk, hlk, h⟩ := bind_eq_ok h
  obtain ⟨rk, hrk, h⟩ := bind_eq_ok h
  obtain ⟨coerced, _, h⟩ := bind_eq_ok h
  obtain ⟨lk', hlk', h⟩ := bind_eq_ok h
  obtain ⟨rk', hrk', h⟩ := bind_eq_ok h
  obtain ⟨⟨leftNames, rightNames⟩, hNames, h⟩ := bind_eq_ok h
  obtain ⟨key, _, h⟩ := bind_eq_ok h
  obtain ⟨rfl, rfl⟩ := sideNames_eq_ok hNames
  have hRows : joinRows kind leftOn rightOn l r =
      JoinRow.ofKeys kind lk'.freeCells rk'.freeCells := by
    rw [freeCells_of_coerced coerced hlk hlk', freeCells_of_coerced coerced hrk hrk', joinRows,
      named_of_column hlk, named_of_column hrk]
  have hLeft : (if coerced then l.withObjects leftOn else l).names = l.names := by
    cases coerced
    · rfl
    · exact names_withObjects l leftOn
  have hRight : (if coerced then r.withObjects rightOn else r) = r ∨
      (if coerced then r.withObjects rightOn else r) = r.withObjects rightOn := by
    cases coerced <;> simp
  refine ⟨if coerced then l.withObjects leftOn else l, _, key, ?_, hRight, ?_, ?_⟩
  · cases coerced <;> simp
  · cases h
    rw [hRows]
  · cases h
    rw [hRows, ← hLeft, ← names_of_eq_or hRight, ← names_joinedColumns]
    simp only [names, zip_map', map_map]
    rfl

/-- The parts of a join under the names of its tables. -/
theorem joinTables_eq_ok
    (h : joinTables kind leftName rightName leftOn rightOn l r = .ok joined) :
    let called := joinedName leftName rightName leftOn rightOn
    JoinedAs kind leftOn rightOn l r (fun c => called
      (endedName (keptNames leftOn rightOn r.names) "_x" c))
      (fun c => called (endedName l.names "_y" c)) joined := by
  obtain ⟨plain, hPlain, h⟩ := bind_eq_ok h
  cases h
  obtain ⟨l', r', key, hl, hr, hLabels, hColumns⟩ := join_eq_ok hPlain
  refine ⟨l', r', key, hl, hr, hLabels, ?_⟩
  rw [hColumns, map_append, map_map, map_map]
  rfl

section JoinTables

variable (hJoin : joinTables kind leftName rightName leftOn rightOn l r = .ok joined)
  (hLeft : ∀ m ∈ l.names, Unmarked m) (hRight : ∀ m ∈ r.names, Unmarked m)

include hJoin hLeft hRight

/-- A column that both tables have is called by its table, unless it is compared; all others keep
their names. -/
theorem columns_of_joinTables :
    JoinedAs kind leftOn rightOn l r (calledName leftName leftOn r.names)
      (calledName rightName rightOn l.names) joined := by
  obtain ⟨l', r', key, hl, hr, hLabels, hColumns⟩ := joinTables_eq_ok hJoin
  refine ⟨l', r', key, hl, hr, hLabels, hColumns.trans ?_⟩
  congr 1
  · refine map_congr_left fun c hc => Prod.ext ?_ rfl
    have hUnmarked := hLeft c.1 (mem_names_of_eq_or hl hc)
    rw [← calledName_keptNames leftName leftOn rightOn]
    exact (joinedName_ended_left_iff _ _ _ _ _).2
      (Or.inr ⟨hUnmarked.notLeft, fun _ => hUnmarked.notRight⟩)
  · refine map_congr_left fun c hc => Prod.ext ?_ rfl
    have hUnmarked := hRight c.1 (mem_names_of_eq_or hr (mem_of_mem_joinedColumns hc))
    exact (joinedName_ended_right_iff _ _ _ _ _).2 (Or.inr ⟨hUnmarked.notLeft, hUnmarked.notRight⟩)

/-- Under the name of a side stand the columns that the other side has too and that are not
compared. -/
theorem named_of_joinTables (hNames : leftName ≠ rightName) (side : JoinSide)
    (hc : c ∈ (side.of l r).names) :
    joined.named (side.of leftName rightName ++ "." ++ c) =
      if c ∈ (side.of r l).names ∧ c ≠ side.of leftOn rightOn
        then ((side.of l r).named c).map fun d =>
          d.reindex ((joinRows kind leftOn rightOn l r).map side.position) else [] := by
  obtain ⟨l', r', key, hl, hr, -, hColumns⟩ := columns_of_joinTables hJoin hLeft hRight
  have hLeftDot (m : String × Data) (hm : m ∈ l'.columns) : '.' ∉ m.1.toList :=
    (hLeft m.1 (mem_names_of_eq_or hl hm)).noDot
  have hRightDot (m : String × Data) (hm : m ∈ joinedColumns leftOn rightOn r') :
      '.' ∉ m.1.toList := (hRight m.1 (mem_names_of_eq_or hr (mem_of_mem_joinedColumns hm))).noDot
  change dataNamed joined.columns _ = _
  rw [hColumns, dataNamed_append]
  cases side with
  | left =>
    have hDot := (hLeft c hc).noDot
    refine (congrArg₂ _ ?_ (dataNamed_map_eq_nil fun m hm =>
      calledName_ne (hRightDot m hm) hDot (Or.inl hNames.symm))).trans (append_nil _)
    split
    · rename_i hShared
      refine (dataNamed_map _ (fun m hm => calledName_eq_iff (hLeftDot m hm) hDot hShared)
        fun m hm hEq => ?_).trans (congrArg _ (named_of_eq_or hl hShared.2))
      rw [if_neg (by simp [hEq, show c ≠ leftOn from hShared.2])]
      rfl
    · rename_i hOwn
      exact dataNamed_map_eq_nil fun m hm => calledName_ne (hLeftDot m hm) hDot (Or.inr hOwn)
  | right =>
    have hDot := (hRight c hc).noDot
    refine (congrArg₂ _ (dataNamed_map_eq_nil fun m hm =>
      calledName_ne (hLeftDot m hm) hDot (Or.inl hNames)) ?_).trans (nil_append _)
    split
    · rename_i hShared
      refine (dataNamed_map _ (fun m hm => calledName_eq_iff (hRightDot m hm) hDot hShared)
        fun m hm hEq => rfl).trans (congrArg _ ?_)
      exact (dataNamed_joinedColumns leftOn r' hShared.2).trans (named_of_eq_or hr hShared.2)
    · rename_i hOwn
      exact dataNamed_map_eq_nil fun m hm => calledName_ne (hRightDot m hm) hDot (Or.inr hOwn)

end JoinTables

end Table

namespace Query

open Sql

/-- A join of two tables of the catalog, each with or without an alias, and what it comes to. -/
structure TableJoin where
  before : Workspace
  words : String
  left : List String
  leftTag : Tag
  right : List String
  rightTag : Tag
  condition : Option Node
  implicit : Bool
  kind : JoinKind
  leftId : Nat
  rightId : Nat
  /-- The workspace when the left table was handed out. -/
  halfway : Workspace
  /-- The workspace when both tables were handed out. -/
  fetched : Workspace
  leftOn : String
  rightOn : String
  joined : Table
  kind_eq : JoinKind.ofWords words = .ok kind
  left_eq : Work.run (tableOf left) before = (.ok (.frame leftId), halfway)
  right_eq : Work.run (tableOf right) halfway = (.ok (.frame rightId), fetched)
  on_eq : (do
    let (a, b) ← conditionSides condition
    joinColumns (sideName (.name left leftTag)) (sideName (.name right rightTag)) a b) =
      .ok (leftOn, rightOn)
  joined_eq : joinTables kind (sideName (.name left leftTag))
    (sideName (.name right rightTag)) leftOn
    rightOn (fetched.tableAt leftId) (fetched.tableAt rightId) = .ok joined

namespace TableJoin

variable (j : TableJoin)
variable {c : String} {d : Data}

def node : Node :=
  .join j.words (.name j.left j.leftTag) (.name j.right j.rightTag) j.condition j.implicit {}

def name (side : JoinSide) : String :=
  sideName (side.of (.name j.left j.leftTag) (.name j.right j.rightTag))

def table (side : JoinSide) : Table := j.fetched.tableAt (side.of j.leftId j.rightId)

theorem table_eq_of (side : JoinSide) :
    j.table side = side.of (j.table .left) (j.table .right) := by
  cases side <;> rfl

def other (side : JoinSide) : Table := side.of (j.table .right) (j.table .left)

def key (side : JoinSide) : String := side.of j.leftOn j.rightOn

def rows : List JoinRow := Table.joinRows j.kind j.leftOn j.rightOn (j.table .left) (j.table .right)

def part (side : JoinSide) (d : Data) : Data := d.reindex (j.rows.map side.position)

def id : Nat := j.fetched.frames.size

def after : Workspace := { j.fetched with frames := j.fetched.frames.push { table := j.joined } }

/-- What is in scope under a name after the join: a table by its own name, or what was there before.
-/
def inScope (n : String) : Option Relation :=
  if n = writeParts j.right then some (.frame j.rightId)
  else if n = writeParts j.left then some (.frame j.leftId)
  else j.before.catalog.scope.lookup n

def columnsInScope (n c : String) : List Data :=
  match j.inScope n with
  | some (.frame id) => (j.after.tableAt id).named c
  | _ => []

def ReadsPart (side : JoinSide) (c : String) (d : Data) : Prop :=
  ∃ e, Reads j.after (.frame j.id) [j.name side, c] e ∧ e.cells = (j.part side d).cells

/-- The join is evaluated. -/
theorem run_evalSource : run (evalSource j.node) j.before = (.ok (.frame j.id), j.after) := by
  obtain ⟨⟨a, b⟩, hSides, hOn⟩ := bind_eq_ok j.on_eq
  dsimp only at hOn
  have hLeft (w : Workspace) :
      run (joinSide (.frame j.leftId)) w = (.ok (w.tableAt j.leftId), w) := rfl
  have hRight (w : Workspace) :
      run (joinSide (.frame j.rightId)) w = (.ok (w.tableAt j.rightId), w) := rfl
  rw [node, evalSource, j.kind_eq, run_bind_ok (run_lift_ok _ _)]
  rw [run_bind_ok (x := evalSide (.name j.left j.leftTag)) j.left_eq,
    run_bind_ok (x := evalSide (.name j.right j.rightTag)) j.right_eq, hSides,
    run_bind_ok (run_lift_ok _ _)]
  dsimp only
  rw [hOn, run_bind_ok (run_lift_ok _ _)]
  rw [run_bind_ok (hLeft _), run_bind_ok (hRight _), j.joined_eq,
    run_bind_ok (run_lift_ok _ _)]
  rfl

theorem tableAt_after : j.after.tableAt j.id = j.joined := Workspace.tableAt_push_size _ _

theorem lookup_after (n : String) : j.after.catalog.scope.lookup n = j.inScope n := by
  have hScope : j.after.catalog.scope =
      setNamed (setNamed j.before.catalog.scope (writeParts j.left) (.frame j.leftId))
        (writeParts j.right) (.frame j.rightId) := by
    rw [← scope_of_run_tableOf j.left_eq, ← scope_of_run_tableOf j.right_eq]
    rfl
  rw [hScope, lookup_setNamed, lookup_setNamed, inScope]

/-- A table that was handed out for the join is still there after it. -/
theorem named_after (side : JoinSide) (h : (j.table side).named c = [d]) :
    (j.after.tableAt (side.of j.leftId j.rightId)).named c = [d] := by
  have hNonempty : (j.fetched.tableAt (side.of j.leftId j.rightId)).named c ≠ [] := by
    rw [show (j.fetched.tableAt _).named c = [d] from h]
    simp
  rw [after, Workspace.tableAt_push_of_lt (Workspace.lt_size_of_named hNonempty)]
  exact h

/-- A qualified name reads its column at the paired rows exactly if the joined table has one such
column, or none, and the table in scope has the entries. -/
theorem readsPart_iff (side : JoinSide) (c : String) (d : Data) :
    j.ReadsPart side c d ↔
      (∃ e, j.joined.named (j.name side ++ "." ++ c) = [e] ∧ e.cells = (j.part side d).cells) ∨
      j.joined.named (j.name side ++ "." ++ c) = [] ∧
      ∃ e, j.columnsInScope (j.name side) c = [e] ∧ e.cells = (j.part side d).cells := by
  have hScope (e : Data) :
      j.columnsInScope (j.name side) c = [e] ↔
        ∃ other, j.inScope (j.name side) = some (.frame other) ∧
          (j.after.tableAt other).named c = [e] := by
    unfold columnsInScope
    split
    · rename_i other hOther
      constructor
      · exact fun h => ⟨other, hOther, h⟩
      · rintro ⟨other', hOther', h⟩
        cases hOther.symm.trans hOther'
        exact h
    · rename_i hOther
      constructor
      · intro h
        cases h
      · rintro ⟨other, hOther', _⟩
        exact absurd hOther' (hOther other)
  unfold ReadsPart
  simp only [reads_qualified_iff, j.tableAt_after, j.lookup_after, ← hScope]
  constructor
  · rintro ⟨e, hOwn | ⟨hOwn, hColumn⟩, hCells⟩
    · exact Or.inl ⟨e, hOwn, hCells⟩
    · exact Or.inr ⟨hOwn, e, hColumn, hCells⟩
  · rintro (⟨e, hOwn, hCells⟩ | ⟨hOwn, e, hColumn, hCells⟩)
    · exact ⟨e, Or.inl hOwn, hCells⟩
    · exact ⟨e, Or.inr ⟨hOwn, hColumn⟩, hCells⟩

/-- Under a table's own name the table itself is in scope, as it was before the join. -/
theorem columnsInScope_of_bare (side : JoinSide) (hTag : side.of j.leftTag j.rightTag = {})
    (hTables : writeParts j.left ≠ writeParts j.right)
    (h : (j.table side).named c = [d]) : j.columnsInScope (j.name side) c = [d] := by
  have hAfter := j.named_after side h
  cases side with
  | left =>
    have hName : j.name .left = writeParts j.left := by
      rw [name, show j.leftTag = {} from hTag]
      rfl
    rw [columnsInScope, hName, inScope, if_neg hTables, if_pos rfl]
    exact hAfter
  | right =>
    have hName : j.name .right = writeParts j.right := by
      rw [name, show j.rightTag = {} from hTag]
      rfl
    rw [columnsInScope, hName, inScope, if_pos rfl]
    exact hAfter

theorem length_part (side : JoinSide) (d : Data) : (j.part side d).length = j.joined.height := by
  obtain ⟨_, _, _, _, _, hLabels, _⟩ := joinTables_eq_ok j.joined_eq
  rw [part, Data.length_reindex, length_map, height, hLabels, Column.length_freshLabels]
  rfl

/-- Of ordinary names those that both tables have, apart from the compared ones, read the joined
rows. -/
theorem readsPart_of_unmarked (hUnmarked : ∀ side, ∀ m ∈ (j.table side).names, Unmarked m)
    (hNames : j.name .left ≠ j.name .right) (side : JoinSide)
    (hColumn : (j.table side).named c = [d]) :
    j.ReadsPart side c d ↔
      (c ∈ (j.other side).names ∧ c ≠ j.key side) ∨
      ∃ e, j.columnsInScope (j.name side) c = [e] ∧ e.cells = (j.part side d).cells := by
  have hNamed : j.joined.named (j.name side ++ "." ++ c) =
      if c ∈ (j.other side).names ∧ c ≠ j.key side then [j.part side d] else [] := by
    have hMem : c ∈ (j.table side).names := by
      rw [mem_names_iff, hColumn]
      exact cons_ne_nil d []
    have hJoined := named_of_joinTables (l := j.table .left) (r := j.table .right) j.joined_eq
      (hUnmarked .left) (hUnmarked .right) hNames side (c := c) (j.table_eq_of side ▸ hMem)
    rw [← j.table_eq_of side, hColumn] at hJoined
    cases side <;> exact hJoined
  rw [readsPart_iff, hNamed]
  split
  · rename_i hShared
    simp [hShared]
  · rename_i hOwn
    simp [hOwn]

/-- The qualified name of a column reads the joined rows exactly if the joined table has one column
of that name with the right entries, or has none and the table in scope happens to have them. For
ordinary names the first means that the other table has the column too, and that it is not compared.
-/
theorem qualified_reads_part_iff (side : JoinSide) {c : String} {d : Data}
    (hColumn : (j.table side).named c = [d]) :
    Work.run (evalSource j.node) j.before = (.ok (.frame j.id), j.after) ∧
    j.after.tableAt j.id = j.joined ∧
    (j.part side d).length = j.joined.height ∧
    (j.ReadsPart side c d ↔
      (∃ e, j.joined.named (j.name side ++ "." ++ c) = [e] ∧ e.cells = (j.part side d).cells) ∨
        j.joined.named (j.name side ++ "." ++ c) = [] ∧
          ∃ e, j.columnsInScope (j.name side) c = [e] ∧ e.cells = (j.part side d).cells) ∧
    ((∀ side, ∀ m ∈ (j.table side).names, Unmarked m) → j.name .left ≠ j.name .right →
      (j.ReadsPart side c d ↔
        (c ∈ (j.other side).names ∧ c ≠ j.key side) ∨
          ∃ e, j.columnsInScope (j.name side) c = [e] ∧ e.cells = (j.part side d).cells)) ∧
    (side.of j.leftTag j.rightTag = {} → writeParts j.left ≠ writeParts j.right →
      j.columnsInScope (j.name side) c = [d]) :=
  ⟨j.run_evalSource, j.tableAt_after, j.length_part side d, j.readsPart_iff side c d,
    fun hUnmarked hNames => j.readsPart_of_unmarked hUnmarked hNames side hColumn,
    fun hTag hTables => j.columnsInScope_of_bare side hTag hTables hColumn⟩

def leftRows : Table :=
  ⟨Column.freshLabels 3,
    [("k", .ints .int64 [1, 2, 3]), ("v", .ints .int64 [10, 20, 30]),
      ("s", .ints .int64 [5, 6, 7])]⟩

def rightRows : Table :=
  ⟨Column.freshLabels 2,
    [("k", .ints .int64 [2, 3]), ("w", .ints .int64 [200, 300]), ("s", .ints .int64 [8, 9])]⟩

/-- `FROM l INNER JOIN r ON l.k = r.k`. -/
def sampleJoin : TableJoin where
  before := .ofTables [("l", leftRows), ("r", rightRows)]
  words := "INNER JOIN"
  left := ["l"]
  leftTag := {}
  right := ["r"]
  rightTag := {}
  condition := some (.operation .binary "=" [.name ["l", "k"] {}, .name ["r", "k"] {}] {})
  implicit := false
  kind := .inner
  leftId := 0
  rightId := 1
  halfway := (Work.run (tableOf ["l"]) (.ofTables [("l", leftRows), ("r", rightRows)])).2
  fetched := (Work.run (tableOf ["r"])
    (Work.run (tableOf ["l"]) (.ofTables [("l", leftRows), ("r", rightRows)])).2).2
  leftOn := "k"
  rightOn := "k"
  joined := ⟨Column.freshLabels 2,
    [("k", .ints .int64 [2, 3]), ("v", .ints .int64 [20, 30]), ("l.s", .ints .int64 [6, 7]),
     ("w", .ints .int64 [200, 300]), ("r.s", .ints .int64 [8, 9])]⟩
  kind_eq := rfl
  left_eq := rfl
  right_eq := rfl
  on_eq := rfl
  joined_eq := rfl

/-- Under `l.s` the joined table has the entries of `l` at the paired rows. -/
theorem qualified_reads_part_shared :
    (sampleJoin.table .left).named "s" = [.ints .int64 [5, 6, 7]] ∧
    sampleJoin.ReadsPart .left "s" (.ints .int64 [5, 6, 7]) := by
  have hColumn : (sampleJoin.table .left).named "s" = [.ints .int64 [5, 6, 7]] := rfl
  obtain ⟨_, _, _, hReads, _⟩ := sampleJoin.qualified_reads_part_iff .left hColumn
  exact ⟨hColumn, hReads.2 (Or.inl ⟨.ints .int64 [6, 7], rfl, rfl⟩)⟩

/-- Only `l` has `v`, and `l.v` reads it as it was before the join: three entries beside two joined
rows. -/
theorem qualified_reads_unjoined :
    Work.run (evalSource sampleJoin.node) sampleJoin.before =
      (.ok (.frame sampleJoin.id), sampleJoin.after) ∧
    sampleJoin.joined.height = 2 ∧
    (sampleJoin.table .left).named "v" = [.ints .int64 [10, 20, 30]] ∧
    Reads sampleJoin.after (.frame sampleJoin.id) [sampleJoin.name .left, "v"]
      (.ints .int64 [10, 20, 30]) ∧
    ¬ sampleJoin.ReadsPart .left "v" (.ints .int64 [10, 20, 30]) := by
  have hReads : Reads sampleJoin.after (.frame sampleJoin.id) [sampleJoin.name .left, "v"]
      (.ints .int64 [10, 20, 30]) :=
    reads_qualified_iff.2 (Or.inr ⟨rfl, 0, rfl, rfl⟩)
  refine ⟨sampleJoin.run_evalSource, rfl, rfl, hReads, fun hPart => ?_⟩
  rcases (sampleJoin.readsPart_iff .left "v" _).1 hPart with
    ⟨_, hJoined, _⟩ | ⟨_, e, hScope, hCells⟩
  · cases hJoined
  · cases hScope
    exact absurd (congrArg length hCells) (by decide)

end TableJoin

end Query

end TableQuery
