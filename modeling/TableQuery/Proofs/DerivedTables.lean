import TableQuery.Proofs.Renumbering
import TableQuery.Proofs.Storage

/-! Tables that are derived from others by `SELECT *`, with each column made anew of its entries.
Queries that do not qualify cannot tell the two apart exactly if the rows were not cleaned. -/
namespace TableQuery

open List Work Data Table Operator Correspondence

open Sql

namespace Sql

variable {cs : List Char}

theorem dropWhile_backquotes (h : cs.head? ≠ some '`') : cs.dropWhile (· == '`') = cs := by
  cases cs with
  | nil => rfl
  | cons c rest => exact dropWhile_cons_of_neg (by simpa using h)

/-- Backquotes are taken off a text that has none at its ends. -/
theorem dropWhile_quoted (hcs : cs ≠ []) (hHead : cs.head? ≠ some '`')
    (hLast : cs.getLast? ≠ some '`') :
    ((('`' :: cs ++ ['`']).dropWhile (· == '`')).reverse.dropWhile (· == '`')).reverse = cs := by
  have hFront : (cs ++ ['`']).head? ≠ some '`' := by rwa [head?_append_of_ne_nil cs hcs]
  rw [cons_append, dropWhile_cons_of_pos rfl, dropWhile_backquotes hFront, reverse_append,
    reverse_singleton, singleton_append, dropWhile_cons_of_pos rfl,
    dropWhile_backquotes (by rwa [head?_reverse]), reverse_reverse]

/-- A piece of a name that has no dots and does not start with a backquote goes up to the next dot.
-/
theorem splitPieces_piece {rest : List Char} (hcs : cs ≠ []) (hDots : '.' ∉ cs)
    (hHead : cs.head? ≠ some '`') (hRest : rest.takeWhile (· != '.') = []) (fuel : Nat) :
    splitPieces (fuel + 1) (cs ++ rest) = cs :: splitPieces fuel rest := by
  obtain ⟨c, cs, rfl⟩ := exists_cons_of_ne_nil hcs
  have hPiece : (c :: (cs ++ rest)).takeWhile (· != '.') = c :: cs := by
    rw [← cons_append, takeWhile_append_of_pos, hRest, append_nil]
    intro x hx
    exact bne_iff_ne.2 fun hDot => hDots (hDot ▸ hx)
  have hQuote : quotedLength? (c :: (cs ++ rest)) = none := by
    unfold quotedLength?
    split
    · rename_i hEqual
      cases hEqual
      exact absurd rfl hHead
    · rfl
  have hDot : ¬ (c == '.') = true := fun h => hDots (beq_iff_eq.1 h ▸ mem_cons_self)
  rw [cons_append, splitPieces, hQuote]
  dsimp only
  rw [if_neg hDot, hPiece, ← cons_append, drop_left]

theorem splitPieces_nil (fuel : Nat) : splitPieces fuel [] = [] := by cases fuel <;> rfl

/-- A name of one part: it has no dots, and no backquotes at its ends. -/
structure IsWhole (name : String) : Prop where
  nonempty : name.toList ≠ []
  undotted : '.' ∉ name.toList
  head : name.toList.head? ≠ some '`'
  last : name.toList.getLast? ≠ some '`'

namespace IsWhole

variable {name : String} (h : IsWhole name)
include h

theorem stripBackquotes_eq : stripBackquotes name.toList = name.toList := by
  rw [stripBackquotes, dropWhile_backquotes h.head,
    dropWhile_backquotes (by rw [head?_reverse]; exact h.last), reverse_reverse]

theorem splitName_eq : splitName name = [name] := by
  have hPieces := splitPieces_piece h.nonempty h.undotted h.head takeWhile_nil name.toList.length
  rw [append_nil, splitPieces_nil] at hPieces
  rw [splitName, hPieces, map_singleton, h.stripBackquotes_eq, String.ofList_toList]

theorem bareName_eq : bareName name = name := by
  have hHead : name.toList.head?.any (· == '`') = false := by
    cases hFirst : name.toList.head? with
    | none => rfl
    | some c =>
      exact beq_eq_false_iff_ne.2 fun hQuote => h.head (hFirst.trans (congrArg some hQuote))
  unfold bareName
  dsimp only
  rw [hHead]
  rfl

theorem bareName_writeParts : bareName (writeParts [name]) = name := by
  rw [writeParts, map_singleton, String.intercalate_singleton, writePart]
  split
  · exact h.bareName_eq
  · have hChars : ("`" ++ name ++ "`").toList = '`' :: name.toList ++ ['`'] := by
      simp
    have hLast : ('`' :: name.toList ++ ['`']).getLast? = some '`' := getLast?_concat
    unfold bareName
    dsimp only
    rw [hChars, hLast, if_pos (by simpa using h.undotted),
      dropWhile_quoted h.nonempty h.head h.last, String.ofList_toList]

end IsWhole

def IsSimple (name : String) : Prop := name ≠ "" ∧ '.' ∉ name.toList ∧ '`' ∉ name.toList

theorem IsSimple.isWhole {name : String} (h : IsSimple name) : IsWhole name where
  nonempty hEmpty := h.1 (String.toList_inj.1 hEmpty)
  undotted := h.2.1
  head hQuote := h.2.2 (mem_of_mem_head? hQuote)
  last hQuote := h.2.2 (mem_of_getLast? hQuote)

end Sql

namespace Table

variable {t : Table}

/-- A table whose columns have different names, all of them simple. -/
structure Simple (t : Table) : Prop where
  nodup : t.names.Nodup
  names : ∀ name ∈ t.names, IsSimple name

def rebuilt (t : Table) : Table :=
  ⟨Column.freshLabels t.height, t.columns.map fun c => (c.1, c.2.anew)⟩

theorem rebuilt_eq_self (hLabels : t.labels = Column.freshLabels t.height)
    (hAnew : ∀ c ∈ t.columns, c.2.anew = c.2) : t.rebuilt = t := by
  have hColumns : t.columns.map (fun c => (c.1, c.2.anew)) = t.columns :=
    (map_congr_left fun c hc => congrArg (Prod.mk c.1) (hAnew c hc)).trans (map_id _)
  rw [rebuilt, hColumns, ← hLabels]

theorem named_rebuilt (t : Table) (name : String) :
    t.rebuilt.named name = (t.named name).map anew := by
  simp only [rebuilt, named, filter_map, map_map]
  rfl

theorem Simple.mem_names (ht : t.Simple) {c : String × Data} (hc : c ∈ t.columns) : IsSimple c.1 :=
  ht.names c.1 (mem_map_of_mem hc)

/-- The rows as a star shows them: with fresh labels, and every column made anew under its name
written out. -/
def shown (t : Table) : Table :=
  ⟨Column.freshLabels t.height, t.columns.map fun c => (writeParts [c.1], c.2.anew)⟩

theorem Simple.bareNames_shown (ht : t.Simple) : t.shown.bareNames = t.rebuilt := by
  rw [bareNames, shown, map_map]
  refine congrArg (Table.mk _) (map_congr_left fun c hc => ?_)
  exact congrArg (·, c.2.anew) (ht.mem_names hc).isWhole.bareName_writeParts

end Table

namespace Query

variable {w : Workspace} {name : String} {i : Nat} {t : Table}
variable {e : Entry}

def starValues (w : Workspace) (i : Nat) : List (String × Data) → List (String × Value) :=
  Table.columnValues (fun c => writeParts [c.1])
    (fun c => ⟨(w.tableAt i).labels, some ((w.frames[i]?.getD default).nameOf c.1), c.2⟩)
    fun c => some ⟨i, c.1⟩

theorem run_columnOf_simple {d : Data} (h : (w.tableAt i).named name = [d]) :
    run (columnOf [name] (.frame i)) w =
      (.ok (.column ⟨(w.tableAt i).labels, some ((w.frames[i]?.getD default).nameOf name), d⟩
          (some ⟨i, name⟩)),
        w) := by
  rw [run_columnOf_bare, if_pos (has_eq_true_iff.2 (by simp [h])), run_columnsNamed_one h]

theorem run_starTargets (ht : (w.tableAt i).Simple) {cs : List (String × Data)}
    (hcs : ∀ c ∈ cs, c ∈ (w.tableAt i).columns) :
    run (starTargets (.frame i) (cs.map (·.1))) w = (.ok (starValues w i cs), w) := by
  induction cs with
  | nil => rfl
  | cons c rest ih =>
    obtain ⟨hc, hRest⟩ := forall_mem_cons.1 hcs
    have hSimple := ht.mem_names hc
    rw [map_cons, starTargets, if_neg (by simpa using hSimple.1)]
    rw [hSimple.isWhole.splitName_eq,
      run_bind_ok (run_columnOf_simple (named_of_nodup ht.nodup hc)), run_bind_ok (ih hRest)]
    rfl

/-- `SELECT * FROM name`. -/
def starFrom (name : String) : Select := { targets := [.star {}], source := some (.name [name] {}) }

/-- A star makes a table of the columns, each anew, under names that are written out. -/
theorem run_targetTable_star (ht : (w.tableAt i).Simple) (hRectangular : (w.tableAt i).Rectangular)
    (hHeight : (w.tableAt i).columns = [] → (w.tableAt i).height = 0) :
    run (targetTable [.star {}] [] none (.frame i)) w = (.ok (w.tableAt i).shown, w) := by
  have hStar : run (starColumns (.frame i) [.star {}]) w = (.ok (some (w.tableAt i).names), w) :=
    rfl
  have hTargets : run (evalTargets (.frame i) (some (w.tableAt i).names) [.star {}]) w =
      (.ok (starValues w i (w.tableAt i).columns), w) := by
    rw [evalTargets, names, run_bind_ok (run_starTargets ht fun _ hc => hc), evalTargets]
    · simp
    · rfl
  have hValues : ofValues (starValues w i (w.tableAt i).columns) = .ok (w.tableAt i).shown := by
    refine ofValues_columns (fun c hc d hd hName => ?_) hRectangular hHeight
    have hSame : c.1 = d.1 := by
      rw [← (ht.mem_names hc).isWhole.bareName_writeParts, hName,
        (ht.mem_names hd).isWhole.bareName_writeParts]
    have hNamed := named_of_nodup ht.nodup hc
    rw [hSame, named_of_nodup ht.nodup hd] at hNamed
    exact (singleton_inj.1 hNamed).symm
  rw [targetTable, if_pos isEmpty_nil, run_bind_ok hStar, run_bind_ok hTargets, hValues]
  rfl

/-- A select that has targets and rows only. -/
theorem run_afterFrom_targets {targets : List Node} (hKeys : groupKeys targets none = .ok [])
    (source : Option Node) (r : Relation) (w : Workspace) :
    run (afterFrom { targets, source } r) w =
      match run (targetTable targets [] none r) w with
      | (.ok t, w') => (.ok t.bareNames, { w' with catalog := { w'.catalog with scope := [] } })
      | (.error f, w') => (.error f, w') := by
  have hWhere : run (evalWhere r none) w = (.ok r, w) := rfl
  have hGroups : run (evalGroups r none) w = (.ok none, w) := rfl
  rw [afterFrom, run_bind_ok hWhere, hKeys, run_bind_ok (run_lift_ok _ _),
    run_bind_ok hGroups, run_bind]
  rcases run (targetTable targets [] none r) w with ⟨f | t, w'⟩ <;> rfl

theorem run_afterFrom_star (ht : (w.tableAt i).Simple) (hRectangular : (w.tableAt i).Rectangular)
    (hColumns : (w.tableAt i).columns ≠ []) (name : String) :
    run (afterFrom (starFrom name) (.frame i)) w =
      (.ok (w.tableAt i).rebuilt, { w with catalog := { w.catalog with scope := [] } }) := by
  rw [starFrom, run_afterFrom_targets rfl,
    run_targetTable_star ht hRectangular fun hNone => absurd hNone hColumns]
  dsimp only
  rw [ht.bareNames_shown]

/-- A query over the table that a star makes of a table, in place of the table itself. -/
def overDerived (name : String) (tag : Tag) (q : Select) : Select :=
  { q with source := some (.select (starFrom name) tag) }

def directFrom (name : String) (t : Table) (w : Workspace) : Workspace :=
  inScope name (.frame w.frames.size) { w with frames := w.frames.push { table := t } }

/-- The workspace after the FROM clause of a query over the table that is derived from it. -/
def derivedFrom (t : Table) (tag : Tag) (w : Workspace) : Workspace :=
  { w with
    frames := (w.frames.push { table := t }).push { table := t.rebuilt }
    catalog := { w.catalog with
      scope := match tag.alias? with
        | some a => [(a.render, .frame (w.frames.size + 1))]
        | none => [] } }

theorem tableAt_directFrom (name : String) (t : Table) (w : Workspace) :
    (directFrom name t w).tableAt w.frames.size = t :=
  Workspace.tableAt_push_size w t

theorem tableAt_derivedFrom (t : Table) (tag : Tag) (w : Workspace) :
    (derivedFrom t tag w).tableAt (w.frames.size + 1) = t.rebuilt := by
  have hLast :=
    Workspace.tableAt_push_size { w with frames := w.frames.push { table := t } } t.rebuilt
  rwa [Array.size_push] at hLast

section Derived

variable (hEntry : entryAt? w.catalog.entries (.text (writeParts [name])) = some e)
  (hCached : e.cached = false) (hFetch : e.fetch w.drive = .ok (some t)) (ht : t.Simple)
  (hColumns : t.columns ≠ [])
include hEntry hCached hFetch

theorem run_evalSelect_direct {q : Select} (hSource : q.source = some (.name [name] {})) :
    run (evalSelect q) w = run (afterFrom q (.frame w.frames.size)) (directFrom name t w) :=
  run_evalSelect_of_rowsOf hEntry (run_rowsOf_fetched hCached hFetch) hSource

include ht hColumns

theorem run_evalSelect_overDerived (q : Select) (tag : Tag) :
    run (evalSelect (overDerived name tag q)) w =
      run (afterFrom q (.frame (w.frames.size + 1))) (derivedFrom t tag w) := by
  have hTable := tableAt_directFrom name t w
  have hRectangular := Entry.rectangular_of_fetch hFetch
  rw [← hTable] at ht hColumns hRectangular
  have hInner : run (evalSelect (starFrom name)) w =
      (.ok t.rebuilt, { w with
        frames := w.frames.push { table := t }, catalog := { w.catalog with scope := [] } }) := by
    rw [run_evalSelect_direct hEntry hCached hFetch rfl,
      run_afterFrom_star ht hRectangular hColumns, hTable]
    rfl
  have hNew (v : Workspace) (hv : v.frames = w.frames.push { table := t }) :
      run (newFrame t.rebuilt) v =
        (.ok (w.frames.size + 1), { v with frames := v.frames.push { table := t.rebuilt } }) := by
    rw [run_newFrame, hv, Array.size_push]
  have hFrom : run (evalFrom (some (.select (starFrom name) tag))) w =
      (.ok (.frame (w.frames.size + 1)), derivedFrom t tag w) := by
    rw [evalFrom, evalSource, run_bind_ok hInner, run_bind_ok (hNew _ rfl)]
    unfold withAlias derivedFrom
    cases tag.alias? <;> rfl
  rw [evalSelect_eq_afterFrom, overDerived, run_bind_ok hFrom]
  rfl

end Derived

/-- Where the table that was derived is the same, there is one table more, and nothing else differs.
-/
theorem shifted_derivedFrom (hUncached : ∀ e ∈ w.catalog.entries, e.2.cached = false)
    (hFetched : w.FetchesOnly (Starred fun _ => False))
    (hExtensions : Extension.NoneSeesNumbers w.catalog.extensions) (ht : t.Simple)
    (hSame : t.rebuilt = t) (name : String) (tag : Tag) :
    Shifted 1 w.frames.size (fun _ => False) (· = w.frames.size) (derivedFrom t tag w)
      (directFrom name t w) where
  drive := rfl
  entries := rfl
  extensions := rfl
  uncached := hUncached
  fetched := hFetched
  seesNoNumbers := hExtensions
  size := by simp [derivedFrom, directFrom, inScope]
  base_le := by simp [directFrom, inScope]
  frames i hi := by
    change ((w.frames.push { table := t }).push { table := t.rebuilt })[i + 1]? =
      (w.frames.push { table := t })[i]?
    rw [hSame, Array.getElem?_push, Array.size_push]
    by_cases hLast : i = w.frames.size
    · rw [if_pos (congrArg (· + 1) hLast), hLast, Array.getElem?_push_size]
    · rw [if_neg (by omega), Array.getElem?_eq_none (by rw [Array.size_push]; omega),
        Array.getElem?_eq_none (by rw [Array.size_push]; omega)]
  scope _ h := h.elim
  base_le_scope _ _ h := h.elim
  plain i hi := by
    subst hi
    refine ⟨Nat.le_refl _, by simp [directFrom, inScope], ?_⟩
    rw [tableAt_directFrom]
    intro column hColumn
    refine .inr ?_
    rw [(ht.names column hColumn).isWhole.splitName_eq]
    trivial

/-- A query that does not qualify has one outcome over a table and over a table derived from it that
is the same. -/
theorem overDerived_eq_of_rebuilt
    (hEntry : entryAt? w.catalog.entries (.text (writeParts [name])) = some e)
    (hUncached : ∀ e ∈ w.catalog.entries, e.2.cached = false)
    (hFetched : w.FetchesOnly (Starred fun _ => False))
    (hExtensions : Extension.NoneSeesNumbers w.catalog.extensions)
    (hFetch : e.fetch w.drive = .ok (some t)) (ht : t.Simple) (hColumns : t.columns ≠ [])
    (hSame : t.rebuilt = t) {q : Select} (hSource : q.source = some (.name [name] {}))
    (hUses : ∀ u ∈ q.uses, u.Within fun _ => False) (tag : Tag) :
    (run (evalSelect (overDerived name tag q)) w).1 = (run (evalSelect q) w).1 := by
  obtain ⟨key, hKey⟩ := mem_of_entryAt? hEntry
  have hCached := hUncached _ hKey
  have hRows : (shift 1 w.frames.size fun _ => False).Rows (Select.isFromTable q.source) true
      (· = w.frames.size) (.frame (w.frames.size + 1)) (.frame w.frames.size) := by
    refine ⟨⟨rfl, fun i hi => ?_⟩, fun _ => ⟨rfl, fun i hi => ?_⟩, fun _ => ⟨rfl, fun i hi => ?_⟩⟩
    all_goals
      cases hi
      first | exact Nat.le_refl _ | rfl
  obtain ⟨_, _, _, hOutcome⟩ := (agree_select lawful_shift hUses).1 _ _ _ hRows _ _
    (shifted_derivedFrom hUncached hFetched hExtensions ht hSame name tag)
  rw [run_evalSelect_overDerived hEntry hCached hFetch ht hColumns,
    run_evalSelect_direct hEntry hCached hFetch hSource, hOutcome.eq]

/-- The same names over rows of equal values, whatever the storage types, or faults of one kind. -/
inductive SameAnswer : Except Fault Table → Except Fault Table → Prop where
  | ok {t u : Table} (names : t.names = u.names)
      (rows : List.Forall₂ (List.Forall₂ fun a b => a = b ∨ a.same b = true) t.rows u.rows) :
      SameAnswer (.ok t) (.ok u)
  | error (f : Fault) : SameAnswer (.error f) (.error f)
  | queryError (f g : QueryFault) : SameAnswer (.error (.query f)) (.error (.query g))

theorem SameAnswer.refl (x : Except Fault Table) : SameAnswer x x := by
  cases x with
  | error f => exact .error f
  | ok t => exact .ok rfl (forall₂_same.2 fun _ _ => forall₂_same.2 fun _ _ => .inl rfl)

/-- One column alone makes a table. -/
theorem ofValues_single (name : String) (c : Column) : ofValues [(name, .ofColumn c)] = .ok
    ⟨Column.freshLabels c.data.length, [(name, c.data.anew)]⟩ := by
  change ofValues (columnValues (fun _ => name) (fun _ => c) (fun _ => none) [()]) = _
  exact ofValues_columns (fun _ _ _ _ _ => rfl) (fun _ _ => rfl) nofun

inductive Probe where
  /-- `column < NULL` -/
  | less
  /-- `column || 1` -/
  | concat
  /-- `column + n`, where no machine integer holds the number. -/
  | plus

namespace Probe

def op : Probe → String
  | .less => "<"
  | .concat => "||"
  | .plus => "+"

def literal : Probe → Node
  | .less => .null {}
  | .concat => .constant (.int 1) {}
  | .plus => .constant (.int (10 ^ 20)) {}

def value : Probe → Cell
  | .less => .null
  | .concat => .int 1
  | .plus => .int (10 ^ 20)

def operator : Probe → Operator
  | .less => .compare .lt
  | .concat => .concat
  | .plus => .plus

def onData (p : Probe) (d : Data) : Except Fault Data :=
  match p with
  | .less => Data.compares .lt (.data d) (.scalar .null)
  | .concat => do
    let r ← Data.arith .add (.data d) (.scalar (.int 1))
    if r.dtype == .texts || r.dtype == .objects then return r else throw (.query (.badOutputs "||"))
  | .plus => do
    let r ← (← Data.arith .add (.data d) (.scalar (.int (10 ^ 20)))).toNumeric
    if r.dtype != .objects then return r else throw (.query (.badOutputs "+"))

/-- `SELECT column op literal FROM name`. -/
def select (p : Probe) (name column : String) : Select :=
  { targets := [.operation .binary p.op [.name [column] {}, p.literal] {}],
    source := some (.name [name] {}) }

theorem callAmong_op {extensions : List (String × Extension)} (p : Probe)
    (h : extensions.lookup p.op = none) (args : List Value) :
    callAmong extensions p.op args = p.operator.apply args := by
  have hLower : Text.lower p.op = p.op := by
    cases p <;> rfl
  have hOperator : ofName p.op = .ok p.operator := by
    cases p <;> rfl
  unfold callAmong
  rw [hLower, h, hOperator]
  rfl

theorem apply_operator (p : Probe) (c : Column) (origin : Option Origin) :
    p.operator.apply [.column c origin, .scalar p.value] =
      (fun d => .ofColumn { c with data := d }) <$> p.onData c.data := by
  cases p with
  | less =>
    simp only [operator, value, apply, rule, Value.compares, Column.comparesScalar, onData]
    cases compares .lt (.data c.data) (.scalar .null) <;> rfl
  | concat =>
    simp only [operator, value, apply, rule, Value.arith, Column.arithScalar, onData]
    rcases arith .add (.data c.data) (.scalar (.int 1)) with f | r
    · rfl
    · cases r <;> rfl
  | plus =>
    simp only [operator, value, apply, rule, numericResult, Value.arith,
      Column.arithScalar, onData]
    rcases arith .add (.data c.data) (.scalar (.int (10 ^ 20))) with f | r
    · rfl
    · change (do
        let v ← (Value.ofColumn { c with data := r }).toNumeric
        Checks.assertOutput ⟨"+", Operator.plus.checks⟩ v
        pure v) = _ <$> (r.toNumeric >>= _)
      simp only [Value.ofColumn, Value.toNumeric, Column.map]
      rcases r.toNumeric with f | r'
      · rfl
      · cases r' <;> rfl

theorem isUngrouped_select (p : Probe) (name column : String) :
    Select.isUngrouped (p.select name column).targets (p.select name column).groupBy = true := by
  cases p <;> rfl

/-- Probes qualify nothing. -/
theorem within_select (p : Probe) (name column : String) (names : String → Prop) :
    ∀ u ∈ (p.select name column).uses, u.Within names := by
  intro u hu
  have hUses : (p.select name column).uses =
      [.operation p.op [.name [column] {}, p.literal], .reference [column]] := by
    cases p <;> rfl
  rw [hUses] at hu
  simp only [mem_cons, not_mem_nil, or_false] at hu
  rcases hu with rfl | rfl <;> trivial

def answer (name : String) (d : Data) : Table := ⟨Column.freshLabels d.length, [(name, d.anew)]⟩

theorem run_select {column : String} {d : Data} (p : Probe)
    (hHidden : w.catalog.extensions.lookup p.op = none) (hColumn : (w.tableAt i).named column = [d])
    (name : String) :
    (run (afterFrom (p.select name column) (.frame i)) w).1 =
      answer
        (bareName (Node.operation .binary p.op [.name [column] {}, p.literal] {}).outputName) <$>
        p.onData d := by
  let target : Node := .operation .binary p.op [.name [column] {}, p.literal] {}
  let made (d : Data) : Value :=
    .ofColumn ⟨(w.tableAt i).labels, some ((w.frames[i]?.getD default).nameOf column), d⟩
  have hKeys : groupKeys [target] none = .ok [] := by
    cases p <;> rfl
  have hLiteral : run (evalArgs (.frame i) [p.literal]) w = (.ok [.scalar p.value], w) := by
    cases p <;> rfl
  have hArgs : run (evalArgs (.frame i) [.name [column] {}, p.literal]) w =
      (.ok [.column ⟨(w.tableAt i).labels, some ((w.frames[i]?.getD default).nameOf column), d⟩
        (some ⟨i, column⟩), .scalar p.value], w) := by
    rw [evalArgs, evalExpr, run_bind_ok (run_columnOf_simple hColumn), run_bind_ok hLiteral]
    rfl
  have hTarget : run (evalExpr (.frame i) target) w = (made <$> p.onData d, w) := by
    rw [evalExpr, run_bind_ok hArgs, run_call, p.callAmong_op hHidden, p.apply_operator]
  have hTable : run (targetTable [target] [] none (.frame i)) w =
      (answer target.outputName <$> p.onData d, w) := by
    have hStar : run (starColumns (.frame i) [target]) w = (.ok none, w) := rfl
    rw [targetTable, if_pos isEmpty_nil, run_bind_ok hStar]
    cases hData : p.onData d with
    | error f =>
      rw [hData] at hTarget
      have hTargets : run (evalTargets (.frame i) none [target]) w = (.error f, w) := by
        exact run_bind_error hTarget
      exact run_bind_error hTargets
    | ok r =>
      rw [hData] at hTarget
      have hTargets : run (evalTargets (.frame i) none [target]) w =
          (.ok [(target.outputName, made r)], w) := by
        unfold evalTargets
        rw [run_bind_ok hTarget]
        rfl
      rw [run_bind_ok hTargets, ofValues_single]
      rfl
  rw [select, run_afterFrom_targets hKeys, hTable]
  cases p.onData d <;> rfl

section Storage

variable {d : Data}

theorem onData_less_marked (h : d.isMarked = true) (hLength : d.length ≠ 0) :
    less.onData d = .error .wrongType := by
  cases d with
  | nullableInts k xs =>
    cases xs with
    | nil => exact absurd rfl hLength
    | cons x rest => rfl
  | nullableFloats xs =>
    cases xs with
    | nil => exact absurd rfl hLength
    | cons x rest => rfl
  | nullableBools bs =>
    cases bs with
    | nil => exact absurd rfl hLength
    | cons b rest => rfl
  | _ => cases h

theorem onData_less_texts (ts : List (Option String)) :
    less.onData (.texts ts) = .ok (.nullableBools (replicate ts.length none)) := by
  simp only [onData, compares, compares.dispatch, compares.spread, textCompare, bind,
    Except.bind]
  rw [mapM_eq_ok_replicate (n := ts.length) (y := none) (by simp) fun p hp => ?_]
  · rfl
  · have hOther := eq_of_mem_replicate (of_mem_zip hp).2
    obtain ⟨s, o⟩ := p
    cases hOther
    cases s <;> rfl

theorem onData_less_anew (d : Data) :
    less.onData d.anew = .ok (.bools (replicate d.length false)) := by
  rw [← length_anew]
  rcases d.anew_cases with ⟨k, xs, h⟩ | ⟨xs, h⟩ | ⟨bs, h⟩ | ⟨xs, h⟩ <;> (rw [h]; rfl)

theorem onData_concat_gaps (n : Nat) :
    ∃ xs, concat.onData (.objects (replicate n Csv.gap)) = .ok (.objects xs) := by
  obtain ⟨c, hc⟩ : ∃ c, Cell.arithEntry .add Csv.gap (.int 1) = .ok c := ⟨_, rfl⟩
  refine ⟨replicate n c, ?_⟩
  have hArith : arith .add (.data (.objects (replicate n Csv.gap))) (.scalar (.int 1)) =
      .ok (.objects (replicate n c)) := by
    change objectArith .add (some true) true (replicate n Csv.gap)
      (replicate (replicate n Csv.gap).length (.int 1)) = _
    unfold objectArith
    rw [mapM_eq_ok_replicate (n := n) (y := c) (by simp) fun p hp => ?_]
    obtain ⟨a, b⟩ := p
    cases eq_of_mem_replicate (of_mem_zip hp).1
    cases eq_of_mem_replicate (of_mem_zip hp).2
    exact hc
  simp only [onData, hArith]
  rfl

/-- Marks for missing truth values are no truth values. -/
theorem not_sameAnswer_marks (name : String) {n : Nat} (hn : n ≠ 0) :
    ¬ SameAnswer (.ok (answer name (.nullableBools (replicate n none))))
      (.ok (answer name (.bools (replicate n false)))) := by
  obtain ⟨n, rfl⟩ := Nat.exists_eq_succ_of_ne_zero hn
  have hMarks : (Data.nullableBools (replicate (n + 1) none)).anew =
      .objects (replicate (n + 1) .na) := by
    have hCells : (Data.nullableBools (replicate (n + 1) none)).cells = replicate (n + 1) .na :=
      map_replicate
    have hInfer := (Data.inferEntries_of_ne_nil (cons_ne_nil Cell.na (replicate n .na))).trans
      (Data.infer_objects (if_pos (Census.other_of_mem mem_cons_self fun _ => rfl)))
    exact (congrArg Data.inferEntries hCells).trans hInfer
  have hTruths : (Data.bools (replicate (n + 1) false)).anew = .bools (replicate (n + 1) false) :=
    (Data.inferEntries_of_ne_nil (cons_ne_nil (Cell.bool false) _)).trans
      (Data.infer_bools (cons_ne_nil false _))
  have hNa : (answer name (.nullableBools (replicate (n + 1) none))).row 0 = [.na] := by
    unfold answer row
    rw [hMarks]
    rfl
  have hFalse : (answer name (.bools (replicate (n + 1) false))).row 0 = [.bool false] := by
    unfold answer row
    rw [hTruths]
    rfl
  intro h
  cases h with
  | ok _ rows =>
    simp only [rows_eq, answer, height, Column.length_freshLabels, Data.length,
      length_replicate, forall₂_map_left_iff, forall₂_map_right_iff] at rows
    have hFirst := forall₂_same.1 rows 0 (mem_range.2 (Nat.succ_pos n))
    change Forall₂ _ ((answer name _).row 0) ((answer name _).row 0) at hFirst
    rw [hNa, hFalse] at hFirst
    cases hFirst with
    | cons hCell _ => rcases hCell with hCell | hCell <;> cases hCell

/-- Some probe tells data with marks from the data made anew of it. -/
theorem exists_not_sameAnswer (h : d.Marked) :
    ∃ p : Probe, ∀ name,
        ¬ SameAnswer (answer name <$> p.onData d) (answer name <$> p.onData d.anew) := by
  cases h with
  | numbers h hLength =>
    refine ⟨.less, fun name => ?_⟩
    rw [onData_less_marked h hLength, onData_less_anew]
    exact nofun
  | @texts ts h =>
    refine ⟨.less, fun name => ?_⟩
    rw [onData_less_texts, onData_less_anew]
    exact not_sameAnswer_marks name (length_eq_zero_iff.not.2 h)
  | gaps n =>
    refine ⟨.concat, fun name => ?_⟩
    obtain ⟨xs, hGaps⟩ := onData_concat_gaps n
    obtain ⟨ys, hAnew⟩ := anew_gaps n
    rw [hGaps, hAnew]
    exact nofun
  | noInts k =>
    refine ⟨.plus, fun name => ?_⟩
    have hOverflow : plus.onData (.nullableInts k []) = .error .overflow := by
      cases k <;> rfl
    rw [hOverflow]
    exact nofun
  | noBools => exact ⟨.plus, fun name => nofun⟩

end Storage

end Probe

/-- Some probe tells a table that has a column with marks from the table that is derived from it. -/
theorem exists_probe_ne (hEntry : entryAt? w.catalog.entries (.text (writeParts [name])) = some e)
    (hCached : e.cached = false) (hFetch : e.fetch w.drive = .ok (some t)) (ht : t.Simple)
    (hColumns : t.columns ≠ [])
    (hHidden : ∀ op ∈ ["<", "||", "+"], w.catalog.extensions.lookup op = none) {c : String × Data}
    (hc : c ∈ t.columns) (hMarked : c.2.Marked) (tag : Tag) :
    ∃ p : Probe, ¬ SameAnswer (run (evalSelect (p.select name c.1)) w).1
        (run (evalSelect (overDerived name tag (p.select name c.1))) w).1 := by
  obtain ⟨p, hp⟩ := Probe.exists_not_sameAnswer hMarked
  have hOp : w.catalog.extensions.lookup p.op = none := hHidden _ (by cases p <;> simp [Probe.op])
  have hNamed := named_of_nodup ht.nodup hc
  have hDirect : ((directFrom name t w).tableAt w.frames.size).named c.1 = [c.2] := by
    rw [tableAt_directFrom, hNamed]
  have hDerived : ((derivedFrom t tag w).tableAt (w.frames.size + 1)).named c.1 = [c.2.anew] := by
    rw [tableAt_derivedFrom, named_rebuilt, hNamed]
    rfl
  refine ⟨p, ?_⟩
  rw [run_evalSelect_direct hEntry hCached hFetch rfl,
    p.run_select (w := directFrom name t w) hOp hDirect,
    run_evalSelect_overDerived hEntry hCached hFetch ht hColumns,
    p.run_select (w := derivedFrom t tag w) hOp hDerived]
  exact hp _

/-- Without a cache, queries that neither qualify nor group cannot tell a table from `SELECT *` of
it exactly if it was not cleaned and has rows. Then no query that does not qualify can. -/
theorem derived_table_transparent_iff {w : Workspace} {name : String} {e : Entry} {t : Table}
    (hEntry : entryAt? w.catalog.entries (.text (writeParts [name])) = some e)
    (hUncached : ∀ e ∈ w.catalog.entries, e.2.cached = false)
    (hFetched : w.FetchesOnly (Starred fun _ => False))
    (hExtensions : Extension.NoneSeesNumbers w.catalog.extensions)
    (hHidden : ∀ op ∈ ["<", "||", "+"], w.catalog.extensions.lookup op = none)
    (hFetch : e.fetch w.drive = .ok (some t)) (ht : t.Simple) (hColumns : t.columns ≠ [])
    (hLabels : t.labels = Column.freshLabels t.height) (tag : Tag) :
    ((∀ q : Select, q.source = some (.name [name] {}) →
      Select.isUngrouped q.targets q.groupBy = true → (∀ u ∈ q.uses, u.Within fun _ => False) →
      SameAnswer (Work.run (evalSelect q) w).1
        (Work.run (evalSelect (overDerived name tag q)) w).1) ↔
      e.plan.isTrue = false ∧ 0 < t.height) ∧
    (e.plan.isTrue = false ∧ 0 < t.height →
      ∀ q : Select, q.source = some (.name [name] {}) → (∀ u ∈ q.uses, u.Within fun _ => False) →
        (Work.run (evalSelect (overDerived name tag q)) w).1 = (Work.run (evalSelect q) w).1) := by
  obtain ⟨key, hKey⟩ := mem_of_entryAt? hEntry
  have hCached := hUncached _ hKey
  have hSame : e.plan.isTrue = false ∧ 0 < t.height →
      ∀ q : Select, q.source = some (.name [name] {}) → (∀ u ∈ q.uses, u.Within fun _ => False) →
        (run (evalSelect (overDerived name tag q)) w).1 = (run (evalSelect q) w).1 := by
    rintro ⟨hPlan, hHeight⟩ q hSource hUses
    have hRebuilt : t.rebuilt = t :=
      rebuilt_eq_self hLabels ((Entry.asRead_of_fetch hFetch hPlan).anew_eq hHeight)
    exact overDerived_eq_of_rebuilt hEntry hUncached hFetched hExtensions hFetch ht hColumns
      hRebuilt hSource hUses tag
  refine ⟨⟨fun hAll => ?_, fun hStored q hSource _ hUses => ?_⟩, hSame⟩
  · by_contra hStored
    obtain ⟨c, hc⟩ := exists_mem_of_ne_nil _ hColumns
    obtain ⟨p, hp⟩ := exists_probe_ne hEntry hCached hFetch ht hColumns hHidden hc
      (Entry.marked_of_fetch hFetch hStored c hc) tag
    exact hp (hAll _ rfl (p.isUngrouped_select _ _) (p.within_select _ _ _))
  · rw [hSame hStored q hSource hUses]
    exact SameAnswer.refl _

def gappedEntry (clean : Bool) : Entry where
  id := 0
  name := .text "t"
  file? := some (.text "t.csv")
  plan := if clean then Entry.planDocument ⟨[], []⟩ else .null

def gappedFile (clean : Bool) : Workspace where
  drive := { files := [(["t.csv"], "v,u\n10,1\n,2\n30,3\n")] }
  catalog := { dir := "", entries := [(.text "t", gappedEntry clean)], created := 1 }

def gappedTable (clean : Bool) : Table :=
  ⟨Column.freshLabels 3,
    if clean then
      [("v", .nullableInts .int64 [some 10, none, some 30]),
        ("u", .nullableInts .int64 [some 1, some 2, some 3])]
    else [("v", .floats [Binary64.ofInt 10, Binary64.nan, Binary64.ofInt 30]),
      ("u", .ints .int64 [1, 2, 3])]⟩

set_option maxRecDepth 4000 in
theorem fetch_gappedEntry (clean : Bool) :
    (gappedEntry clean).fetch (gappedFile clean).drive = .ok (some (gappedTable clean)) := by
  cases clean <;> rfl

theorem isSimple_gappedTable (clean : Bool) : (gappedTable clean).Simple := by
  have hNames : (gappedTable clean).names = ["v", "u"] := by
    cases clean <;> rfl
  constructor
  · rw [hNames]
    decide
  · rw [hNames]
    intro name hName
    simp only [mem_cons, not_mem_nil, or_false] at hName
    rcases hName with rfl | rfl <;> exact ⟨by decide, by decide, by decide⟩

theorem fetchesOnly_gappedFile (clean : Bool) :
    (gappedFile clean).FetchesOnly (Starred fun _ => False) := by
  intro e he t ht column hColumn
  cases mem_singleton.1 he
  cases (fetch_gappedEntry clean).symm.trans ht
  refine .inr ?_
  rw [((isSimple_gappedTable clean).names column hColumn).isWhole.splitName_eq]
  trivial

def asS : Tag := { alias? := some { parts := ["s"] } }

/-- The theorem at a file with a gap: as it is, it cannot be told from a table derived from it, and
cleaned it can. -/
theorem derived_table_transparent_iff_gapped :
    (gappedEntry false).plan.isTrue = false ∧ (gappedEntry true).plan.isTrue = true ∧
    (∀ clean,
      entryAt? (gappedFile clean).catalog.entries (.text (writeParts ["t"])) =
        some (gappedEntry clean) ∧
      (∀ e ∈ (gappedFile clean).catalog.entries, e.2.cached = false) ∧
      (gappedFile clean).FetchesOnly (Starred fun _ => False) ∧
      (gappedEntry clean).fetch (gappedFile clean).drive = .ok (some (gappedTable clean)) ∧
      (gappedTable clean).Simple) ∧
    (∀ q : Select, q.source = some (.name ["t"] {}) → (∀ u ∈ q.uses, u.Within fun _ => False) →
      (Work.run (evalSelect (overDerived "t" asS q)) (gappedFile false)).1 =
        (Work.run (evalSelect q) (gappedFile false)).1) ∧
    ¬ ∀ q : Select, q.source = some (.name ["t"] {}) →
      Select.isUngrouped q.targets q.groupBy = true → (∀ u ∈ q.uses, u.Within fun _ => False) →
      SameAnswer (Work.run (evalSelect q) (gappedFile true)).1
        (Work.run (evalSelect (overDerived "t" asS q)) (gappedFile true)).1 := by
  have hEntry (clean : Bool) :
      entryAt? (gappedFile clean).catalog.entries (.text (writeParts ["t"])) =
        some (gappedEntry clean) := rfl
  have hUncached (clean : Bool) : ∀ e ∈ (gappedFile clean).catalog.entries, e.2.cached = false := by
    intro e he
    cases List.mem_singleton.1 he
    rfl
  have hIff (clean : Bool) := derived_table_transparent_iff (hEntry clean) (hUncached clean)
    (fetchesOnly_gappedFile clean) nofun (fun _ _ => rfl) (fetch_gappedEntry clean)
    (isSimple_gappedTable clean) (by cases clean <;> exact List.cons_ne_nil _ _) rfl asS
  refine ⟨rfl, rfl, fun clean => ⟨hEntry clean, hUncached clean, fetchesOnly_gappedFile clean,
    fetch_gappedEntry clean, isSimple_gappedTable clean⟩, (hIff false).2 ⟨rfl, by decide⟩, ?_⟩
  rw [(hIff true).1]
  exact nofun

/-- `SELECT v = 10 FROM t`. -/
def equalsTen : Select :=
  { targets := [.operation .binary "=" [.name ["v"] {}, .constant (.int 10) {}] {}],
    source := some (.name ["t"] {}) }

/-- A comparison with a gap has no answer over a cleaned table, and is false over the table derived
from it. -/
theorem gap_compares_otherwise_derived :
    Entry.ofFile 0 (gappedFile true).drive "t.csv" true = .ok (gappedEntry true) ∧
    Table.rows <$> (Work.run (evalSelect equalsTen) (gappedFile true)).1 =
      .ok [[.packed (.bool true)], [.na], [.packed (.bool false)]] ∧
    Table.rows <$> (Work.run (evalSelect (overDerived "t" asS equalsTen)) (gappedFile true)).1 =
      .ok [[.bool true], [.bool false], [.bool false]] := by
  have hEntry : entryAt? (gappedFile true).catalog.entries (.text (writeParts ["t"])) =
      some (gappedEntry true) := rfl
  refine ⟨rfl, ?_, ?_⟩
  · rw [run_evalSelect_direct hEntry rfl (fetch_gappedEntry true) rfl]
    rfl
  · rw [run_evalSelect_overDerived hEntry rfl (fetch_gappedEntry true) (isSimple_gappedTable true)
      (cons_ne_nil _ _)]
    rfl

end Query

end TableQuery
