import TableQuery.Proofs.Readings

/-! References qualified by the name of the one table that a select reads. A bare reference reads
the rows that the condition leaves, and a qualified one the table in scope, which still has all of
them. -/
namespace TableQuery

open List Work Table

namespace Sql.Node

def bareParts (table : String) : List String → List String
  | [n, c] => if n = table then [c] else [n, c]
  | parts => parts

mutual

def unqualified (table : String) : Node → Node
  | .name parts t => .name (bareParts table parts) t
  | .operation form op args t => .operation form op (unqualifiedAll table args) t
  | .cast type arg t => .cast type (arg.unqualified table) t
  | n => n

def unqualifiedAll (table : String) : List Node → List Node
  | [] => []
  | n :: rest => n.unqualified table :: unqualifiedAll table rest

end

def isQualified (table : String) : Node → Bool
  | .name [n, _] _ => n == table
  | _ => false

def referredColumn : Node → String
  | .name [c] _ => c
  | .name [_, c] _ => c
  | _ => ""

def columnIn (n : Node) (t : Table) : Column :=
  ⟨t.labels, none, (t.named n.referredColumn).headD (.objects [])⟩

def Unambiguous (ns : List Node) : Prop :=
  ∀ m ∈ ns, ∀ n ∈ ns, m.outputName = n.outputName → m.references = n.references

mutual

theorem isFlat_unqualified (table : String) (n : Node) :
    (n.unqualified table).isFlat = n.isFlat := by
  cases n with
  | operation form op args t => exact areFlat_unqualifiedAll table args
  | cast type arg t => exact isFlat_unqualified table arg
  | _ => rfl

theorem areFlat_unqualifiedAll (table : String) (ns : List Node) :
    areFlat (unqualifiedAll table ns) = areFlat ns := by
  cases ns with
  | nil => rfl
  | cons n rest =>
    rw [unqualifiedAll, areFlat, areFlat, isFlat_unqualified table n,
      areFlat_unqualifiedAll table rest]

end

theorem isLiteral_unqualified (table : String) (n : Node) :
    (n.unqualified table).isLiteral = n.isLiteral := by
  cases n <;> rfl

theorem any_isLiteral_unqualifiedAll (table : String) (ns : List Node) :
    (unqualifiedAll table ns).any isLiteral = ns.any isLiteral := by
  induction ns with
  | nil => rfl
  | cons n rest ih => rw [unqualifiedAll, any_cons, any_cons, isLiteral_unqualified, ih]

mutual

theorem testsLiterals_unqualified (table : String) (n : Node) :
    (n.unqualified table).testsLiterals = n.testsLiterals := by
  cases n with
  | operation form op args t =>
    rw [unqualified, testsLiterals, testsLiterals, any_isLiteral_unqualifiedAll,
      allTestLiterals_unqualifiedAll table args]
  | cast type arg t => exact testsLiterals_unqualified table arg
  | _ => rfl

theorem allTestLiterals_unqualifiedAll (table : String) (ns : List Node) :
    allTestLiterals (unqualifiedAll table ns) = allTestLiterals ns := by
  cases ns with
  | nil => rfl
  | cons n rest =>
    rw [unqualifiedAll, allTestLiterals, allTestLiterals, testsLiterals_unqualified table n,
      allTestLiterals_unqualifiedAll table rest]

end

mutual

/-- An expression without qualified references stays as it is. -/
theorem unqualified_eq_self {table : String} {n : Node}
    (h : ∀ parts ∈ n.references, bareParts table parts = parts) : n.unqualified table = n := by
  cases n with
  | name parts t => rw [unqualified, h parts mem_cons_self]
  | operation form op args t => rw [unqualified, unqualifiedAll_eq_self h]
  | cast type arg t => rw [unqualified, unqualified_eq_self (n := arg) h]
  | _ => rfl

theorem unqualifiedAll_eq_self {table : String} {ns : List Node}
    (h : ∀ parts ∈ referencesOf ns, bareParts table parts = parts) :
    unqualifiedAll table ns = ns := by
  cases ns with
  | nil => rfl
  | cons n rest =>
    rw [unqualifiedAll, unqualified_eq_self fun parts hp => h parts (mem_append_left _ hp),
      unqualifiedAll_eq_self fun parts hp => h parts (mem_append_right _ hp)]

end

theorem unqualifiedAll_eq_map (table : String) (ns : List Node) :
    unqualifiedAll table ns = ns.map (unqualified table) := by
  induction ns with
  | nil => rfl
  | cons n rest ih => rw [unqualifiedAll, ih, map_cons]

theorem implicitGrouping_unqualifiedAll (table : String) (ns : List Node) :
    implicitGrouping (unqualifiedAll table ns) = implicitGrouping ns := by
  have hAggregate : isAggregate ∘ unqualified table = isAggregate := by
    funext n
    cases n with
    | operation form op args t => cases form <;> rfl
    | _ => rfl
  unfold implicitGrouping
  rw [unqualifiedAll_eq_map, any_map, all_map, hAggregate]

end Sql.Node

namespace Query

open Sql Work

section Targets

variable (keep : Bool) (extensions : List (String × Extension))
  {read read' : List String → Option Value}

mutual

/-- An expression without a table's name in front of its references reads what these references do.
-/
theorem valueOf_unqualified (table : String) (n : Node) :
    valueOf keep extensions read (n.unqualified table) =
      valueOf keep extensions (fun parts => read (Node.bareParts table parts)) n := by
  cases n with
  | operation form op args t =>
    rw [Node.unqualified, valueOf, valueOf, valuesOf_unqualified table args]
  | cast type arg t => rw [Node.unqualified, valueOf, valueOf, valueOf_unqualified table arg]
  | _ => rfl

theorem valuesOf_unqualified (table : String) (ns : List Node) :
    valuesOf keep extensions read (Node.unqualifiedAll table ns) =
      valuesOf keep extensions (fun parts => read (Node.bareParts table parts)) ns := by
  cases ns with
  | nil => rfl
  | cons n rest =>
    rw [Node.unqualifiedAll, valuesOf, valuesOf, valueOf_unqualified table n,
      valuesOf_unqualified table rest]

end

theorem isStar_unqualified (table : String) (n : Node) :
    isStar (n.unqualified table) = isStar n := by
  cases n <;> rfl

theorem any_isStar_unqualifiedAll (table : String) (ns : List Node) :
    (Node.unqualifiedAll table ns).any isStar = ns.any isStar := by
  rw [Node.unqualifiedAll_eq_map, any_map]
  exact congrArg _ (funext (isStar_unqualified table))

/-- Targets give the same values if their references and stars read the same. -/
theorem map_snd_targetsOf {table : String} {columns : Option (List String)} {ns : List Node}
    (hStar : ∀ names, columns = some names → starOf read names = starOf read' names)
    (h : ∀ n ∈ ns,
      valueOf keep extensions read (n.unqualified table) = valueOf keep extensions read' n) :
    (targetsOf keep extensions read columns (Node.unqualifiedAll table ns)).map (map (·.2)) =
      (targetsOf keep extensions read' columns ns).map (map (·.2)) := by
  induction ns generalizing columns with
  | nil => rfl
  | cons n rest ih =>
    have hRest {columns : Option (List String)}
        (hStar : ∀ names, columns = some names → starOf read names = starOf read' names) :=
      ih hStar fun m hm => h m (mem_cons_of_mem n hm)
    have hNone (names : List String) (hNames : none = some names) :
        starOf read names = starOf read' names := nomatch hNames
    have hFirst {columns : Option (List String)}
        (hStar : ∀ names, columns = some names → starOf read names = starOf read' names)
        (a b : String) :
        ((valueOf keep extensions read (n.unqualified table)).bind fun v => (targetsOf keep
            extensions read columns (Node.unqualifiedAll table rest)).map ((a, v) :: ·)).map
          (map (·.2)) =
          ((valueOf keep extensions read' n).bind fun v =>
            (targetsOf keep extensions read' columns rest).map ((b, v) :: ·)).map (map (·.2)) := by
      rw [h n mem_cons_self, Option.map_bind, Option.map_bind]
      refine congrArg _ (funext fun v => ?_)
      have hMapped := congrArg (Option.map (v :: ·)) (hRest hStar)
      simpa [Function.comp_def] using hMapped
    rw [Node.unqualifiedAll]
    unfold targetsOf
    rw [isStar_unqualified]
    cases columns with
    | none => exact hFirst hNone _ _
    | some names =>
      cases isStar n with
      | false => exact hFirst hStar _ _
      | true =>
        dsimp only
        rw [hStar names rfl, Option.map_bind, Option.map_bind]
        refine congrArg _ (funext fun starred => ?_)
        have hMapped := congrArg (Option.map (starred.map (·.2) ++ ·)) (hRest hNone)
        simpa [Function.comp_def] using hMapped

end Targets

/-- Targets give the same rows with and without qualification if the references read the same and
the names are equal at the same places. -/
theorem bind_targetsOf {keep distinct : Bool} {extensions : List (String × Extension)}
    {read read' : List String → Option Value} {table : String} {columns : Option (List String)}
    {ns : List Node}
    (hRead : ∀ parts ∈ Node.referencesOf ns, read (Node.bareParts table parts) = read' parts)
    (hStar : ∀ names, columns = some names → starOf read names = starOf read' names)
    (hNames : EqualAlike (outputNames columns (Node.unqualifiedAll table ns))
      (outputNames columns ns)) :
    (targetsOf keep extensions read' columns ns).bind (tableRows distinct) =
      (targetsOf keep extensions read columns (Node.unqualifiedAll table ns)).bind
        (tableRows distinct) := by
  have hValues (n : Node) (hn : n ∈ ns) :
      valueOf keep extensions read (n.unqualified table) = valueOf keep extensions read' n := by
    rw [valueOf_unqualified]
    exact valueOf_congr _ _ fun parts hp => hRead parts (Node.mem_referencesOf.2 ⟨n, hn, hp⟩)
  refine bind_tableRows (map_snd_targetsOf keep extensions hStar hValues)
    (fun values hGiven others hOther => ?_) distinct
  rw [map_fst_targetsOf _ _ hGiven, map_fst_targetsOf _ _ hOther]
  exact hNames

theorem reading_of_named {w : Workspace} {id : Nat} {n : Node} {d : Data}
    (h : (w.tableAt id).named n.referredColumn = [d]) : reading true w id [n.referredColumn] = some
    (.column (n.columnIn (w.tableAt id)) (some ⟨id, n.referredColumn⟩)) := by
  have hHas : (w.tableAt id).has n.referredColumn = true := has_eq_true_iff.2 (by simp [h])
  rw [reading, if_pos hHas, stored, Node.columnIn, h]
  rfl

/-- A WHERE clause leaves the same rows if its references are qualified. -/
theorem run_evalWhere_of_unqualified {w w' : Workspace} {id kept : Nat}
    (hExtensions : Extension.NoneSeesNames w.catalog.extensions) {table : String}
    {condition : Option Node} (hFlat : ∀ n ∈ condition, n.isFlat = true)
    (hRead : ∀ parts, reading true w id (Node.bareParts table parts) = reading true w id parts)
    (h : run (evalWhere (.frame id) (condition.map (Node.unqualified table))) w =
      (.ok (.frame kept), w')) :
    ∃ v, run (evalWhere (.frame id) condition) w = (.ok (.frame kept), v) ∧ v.SameTables w' := by
  cases condition with
  | none => exact ⟨w', h, rfl, rfl⟩
  | some n =>
    have hCondition : conditionOf true w.catalog.extensions (reading true w id)
        (n.unqualified table) = conditionOf true w.catalog.extensions (reading true w id) n := by
      have hOperation : (n.unqualified table).isOperation = n.isOperation := by
        cases n <;> rfl
      rw [conditionOf, conditionOf, hOperation, valueOf_unqualified]
      simp only [hRead]
    have hBare : (n.unqualified table).isFlat = true :=
      (n.isFlat_unqualified table).trans (hFlat n rfl)
    obtain ⟨hTables, hValue⟩ :=
      gives_evalCondition true hExtensions id hBare (.inl rfl) w ⟨rfl, rfl⟩
    obtain ⟨hTables', hValue'⟩ :=
      gives_evalCondition true hExtensions id (hFlat n rfl) (.inl rfl) w ⟨rfl, rfl⟩
    obtain ⟨u, y, hRun, h⟩ := run_bind_eq_ok h
    rw [hRun] at hTables hValue
    rw [← hCondition, ← hValue] at hValue'
    rcases hRun' : run (evalCondition (.frame id) n) w with ⟨_ | u', y'⟩
    · rw [hRun'] at hValue'
      cases hValue'
    · rw [hRun'] at hValue' hTables'
      rw [evalWhere, run_bind_ok hRun']
      exact run_filter_of_nameless (Option.some.inj hValue')
        ⟨hTables'.catalog.trans hTables.catalog.symm, hTables'.tables.trans hTables.tables.symm⟩ h

/-- A select of one table, and what it comes to: the table and the rows that the condition leaves.
-/
structure TableSelect where
  before : Workspace
  parts : List String
  tag : Tag
  targets : List Node
  condition : Option Node
  distinct : Bool
  /-- What references are qualified by: the name of the table or its alias. -/
  name : String
  id : Nat
  /-- The workspace when the table was handed out. -/
  fetched : Workspace
  kept : Nat
  /-- The workspace when the rows were chosen. -/
  filtered : Workspace
  /-- Which rows the condition leaves. -/
  mask : List Bool
  source_eq : Work.run (evalSource (.name parts tag)) before = (.ok (.frame id), fetched)
  where_eq : Work.run (evalWhere (.frame id) (condition.map (Node.unqualified name))) fetched =
    (.ok (.frame kept), filtered)
  name_eq : name = writeParts parts ∨ tag.alias?.map Alias.render = some name
  id_lt : id < fetched.frames.size
  rectangular : (fetched.tableAt id).Rectangular
  mask_length : mask.length = (fetched.tableAt id).height
  rows_eq : filtered.tableAt kept = (fetched.tableAt id).filterRows mask
  /-- No column is called like a qualified reference. -/
  undotted : ∀ c, (fetched.tableAt id).has (name ++ "." ++ c) = false
  targets_flat : Node.areFlat targets = true
  condition_flat : ∀ n ∈ condition, n.isFlat = true
  ungrouped : implicitGrouping targets = .none
  extensions : Extension.NoneSeesNames fetched.catalog.extensions

namespace TableSelect

variable (s : TableSelect)

def table : Table := s.fetched.tableAt s.id

def rows : Table := s.filtered.tableAt s.kept

def select : Select := tableSelect s.parts s.tag s.targets s.condition s.distinct

def bareTargets : List Node := Node.unqualifiedAll s.name s.targets

def bare : Select :=
  tableSelect s.parts s.tag s.bareTargets (s.condition.map (Node.unqualified s.name)) s.distinct

def whole : Select := tableSelect s.parts s.tag s.bareTargets none s.distinct

theorem lookup_name : s.fetched.catalog.scope.lookup s.name = some (.frame s.id) :=
  lookup_of_run_evalSource s.source_eq s.name_eq

/-- Before rows are chosen a qualified reference reads the same as a bare one. -/
theorem reading_fetched (keep : Bool) (parts : List String) :
    reading keep s.fetched s.id (Node.bareParts s.name parts) =
      reading keep s.fetched s.id parts := by
  unfold Node.bareParts
  split
  · split
    · rename_i hName
      subst hName
      exact (reading_qualified (s.undotted _) s.lookup_name).symm
    · rfl
  · rfl

/-- The condition changes neither the catalog nor the table. -/
theorem filtered_spec :
    s.filtered.catalog = s.fetched.catalog ∧ s.filtered.tableAt s.id = s.table := by
  refine unchanged_of_run_evalWhere s.extensions (fun n hn => ?_) s.id_lt s.where_eq
  obtain ⟨m, hm, rfl⟩ := Option.map_eq_some_iff.1 hn
  rw [Node.isFlat_unqualified]
  exact s.condition_flat m hm

theorem names_rows : s.rows.names = s.table.names := by
  rw [rows, s.rows_eq]
  exact names_pickRows _ _

def columns : Option (List String) := if s.targets.any isStar then some s.table.names else none

section Answers

variable {keep : Bool} (hTests : keep = true ∨ Node.allTestLiterals s.targets = true)
include hTests

theorem answered_select :
    answered s.select s.before =
      (targetsOf keep s.fetched.catalog.extensions (reading keep s.filtered s.kept) s.columns
        s.targets).bind (tableRows s.distinct) := by
  obtain ⟨w, hWhere, hTables⟩ :=
    run_evalWhere_of_unqualified s.extensions s.condition_flat (s.reading_fetched true) s.where_eq
  have hCatalog : w.catalog = s.fetched.catalog := hTables.catalog.trans s.filtered_spec.1
  have hAnswered : answered s.select s.before = _ :=
    answered_tableSelect s.source_eq hWhere (hCatalog ▸ s.extensions) s.targets_flat hTests
      s.ungrouped
  rw [hCatalog, reading_sameTables hTables, hTables.tableAt s.kept] at hAnswered
  rw [columns, ← s.names_rows]
  exact hAnswered

/-- A select without qualified references answers what they read in the rows that are left. -/
theorem answered_tableSelect_bare {condition : Option Node} {kept : Nat} {w : Workspace}
    (hWhere : run (evalWhere (.frame s.id) condition) s.fetched = (.ok (.frame kept), w))
    (hCatalog : w.catalog = s.fetched.catalog) (hNames : (w.tableAt kept).names = s.table.names) :
    answered (tableSelect s.parts s.tag s.bareTargets condition s.distinct) s.before =
      (targetsOf keep s.fetched.catalog.extensions (reading keep w kept) s.columns
        s.bareTargets).bind (tableRows s.distinct) := by
  have hFlat : Node.areFlat s.bareTargets = true :=
    (Node.areFlat_unqualifiedAll s.name s.targets).trans s.targets_flat
  have hBareTests : keep = true ∨ Node.allTestLiterals s.bareTargets = true :=
    hTests.imp_right (Node.allTestLiterals_unqualifiedAll s.name s.targets).trans
  have hUngrouped : implicitGrouping s.bareTargets = .none :=
    (Node.implicitGrouping_unqualifiedAll s.name s.targets).trans s.ungrouped
  have hStar : s.bareTargets.any isStar = s.targets.any isStar :=
    any_isStar_unqualifiedAll s.name s.targets
  rw [answered_tableSelect s.source_eq hWhere (hCatalog ▸ s.extensions) hFlat hBareTests hUngrouped,
    hCatalog, hNames, hStar]
  rfl

theorem answered_bare : answered s.bare s.before =
      (targetsOf keep s.fetched.catalog.extensions (reading keep s.filtered s.kept) s.columns
        s.bareTargets).bind (tableRows s.distinct) :=
  s.answered_tableSelect_bare hTests s.where_eq s.filtered_spec.1 s.names_rows

theorem answered_whole : answered s.whole s.before =
      (targetsOf keep s.fetched.catalog.extensions (reading keep s.fetched s.id) s.columns
        s.bareTargets).bind (tableRows s.distinct) :=
  s.answered_tableSelect_bare hTests rfl rfl rfl

end Answers

/-- Once rows were chosen a qualified reference still reads the whole table. -/
theorem reading_filtered_qualified (keep : Bool) (c : String) :
    reading keep s.filtered s.kept [s.name, c] = reading keep s.fetched s.id [c] := by
  obtain ⟨hCatalog, hTable⟩ := s.filtered_spec
  have hSource : s.rows.has (s.name ++ "." ++ c) = false := by
    rw [← contains_names, s.names_rows, contains_names]
    exact s.undotted c
  have hScope : s.filtered.catalog.scope.lookup s.name = some (.frame s.id) :=
    hCatalog ▸ s.lookup_name
  exact (reading_qualified hSource hScope).trans (reading_congr hTable (fun _ => rfl) c)

/-- Qualified references in the condition only do not change the answer. -/
theorem answered_select_of_bare
    (hBare : ∀ parts ∈ Node.referencesOf s.targets, Node.bareParts s.name parts = parts) :
    answered s.select s.before = answered s.bare s.before := by
  have hTargets : s.bareTargets = s.targets := Node.unqualifiedAll_eq_self hBare
  rw [s.answered_select (.inl rfl), s.answered_bare (.inl rfl), hTargets]

/-- If all references of the targets are qualified the condition has no effect. -/
theorem answered_select_of_qualified
    (hQualified : ∀ parts ∈ Node.referencesOf s.targets, ∃ c, parts = [s.name, c])
    (hStar : s.targets.any isStar = false)
    (hNames : EqualAlike (outputNames s.columns s.bareTargets) (outputNames s.columns s.targets)) :
    answered s.select s.before = answered s.whole s.before := by
  have hColumns : s.columns = none := by
    rw [columns, hStar]
    rfl
  rw [s.answered_select (.inl rfl), s.answered_whole (.inl rfl)]
  refine bind_targetsOf (fun parts hp => ?_) (fun names hColumns' => ?_) hNames
  · obtain ⟨c, rfl⟩ := hQualified parts hp
    rw [s.reading_filtered_qualified]
    simp [Node.bareParts]
  · rw [hColumns] at hColumns'
    cases hColumns'

theorem rows_eq_table (hMask : ∀ b ∈ s.mask, b = true) : s.rows = s.table :=
  s.rows_eq.trans (s.rectangular.filterRows_of_forall s.mask_length hMask)

theorem kept_of_no_condition (h : s.condition = none) : s.kept = s.id ∧ s.filtered = s.fetched := by
  have hWhere := s.where_eq
  rw [h] at hWhere
  obtain ⟨hRows, hWorkspace⟩ := Prod.mk.inj hWhere
  exact ⟨(Relation.frame.inj (Except.ok.inj hRows)).symm, hWorkspace.symm⟩

/-- If bare references read the whole table too, qualified references do not change the answer. -/
theorem answered_select_of_reading (keep : Bool)
    (hTests : keep = true ∨ Node.allTestLiterals s.targets = true)
    (hRead : ∀ c, reading keep s.filtered s.kept [c] = reading keep s.fetched s.id [c])
    (hNames : EqualAlike (outputNames s.columns s.bareTargets) (outputNames s.columns s.targets)) :
    answered s.select s.before = answered s.bare s.before := by
  rw [s.answered_select hTests, s.answered_bare hTests]
  refine bind_targetsOf (fun parts _ => ?_) (fun _ _ => rfl) hNames
  unfold Node.bareParts
  split
  · split
    · rename_i hName
      subst hName
      rw [s.reading_filtered_qualified, hRead]
    · rfl
  · rfl

/-- If the condition leaves all rows, qualified references do not change the answer. -/
theorem answered_select_of_all_rows (hMask : ∀ b ∈ s.mask, b = true)
    (hTests : s.condition = none ∨ Node.allTestLiterals s.targets = true)
    (hNames : EqualAlike (outputNames s.columns s.bareTargets) (outputNames s.columns s.targets)) :
    answered s.select s.before = answered s.bare s.before := by
  rcases hTests with hNone | hTests
  · obtain ⟨hKept, hFiltered⟩ := s.kept_of_no_condition hNone
    refine s.answered_select_of_reading true (.inl rfl) (fun c => ?_) hNames
    rw [hKept, hFiltered]
  · refine s.answered_select_of_reading false (.inr hTests) (fun c => ?_) hNames
    exact reading_congr (s.rows_eq_table hMask) (fun h => by cases h) c

/-- All targets are references to columns of the table, each of which it has once. -/
def SelectsColumns : Prop :=
  ∀ n ∈ s.targets, ∃ c tag d, s.table.named c = [d] ∧
    (n = .name [c] tag ∨ n = .name [s.name, c] tag)

def sourceOf (n : Node) : Table := if n.isQualified s.name then s.table else s.rows

def originOf (n : Node) : Option Origin :=
  some ⟨if n.isQualified s.name then s.id else s.kept, n.referredColumn⟩

section Columns

variable {s} (hColumns : s.SelectsColumns)
include hColumns

theorem columns_eq_none : s.columns = none := by
  have hStar : s.targets.any isStar = false := by
    rw [any_eq_false]
    intro n hn
    obtain ⟨c, tag, d, _, rfl | rfl⟩ := hColumns n hn <;> simp [isStar]
  rw [columns, hStar]
  rfl

variable {n : Node} (hn : n ∈ s.targets)
include hn

theorem named_table : s.table.named n.referredColumn = [(n.columnIn s.table).data] := by
  obtain ⟨c, tag, d, hNamed, rfl | rfl⟩ := hColumns n hn <;>
    simp [Node.columnIn, Node.referredColumn, hNamed]

theorem named_rows : s.rows.named n.referredColumn = [(n.columnIn s.rows).data] := by
  have hNamed : s.rows.named n.referredColumn =
      (s.table.named n.referredColumn).map (·.pick (positionsWhere s.mask)) := by
    rw [rows, s.rows_eq]
    exact named_pickRows _ _ _
  rw [named_table hColumns hn] at hNamed
  simp [Node.columnIn, hNamed]

/-- What a target reads. -/
theorem reads_target :
    ∃ parts tag, n = .name parts tag ∧
      reading true s.filtered s.kept parts =
        some (.column (n.columnIn (s.sourceOf n)) (s.originOf n)) := by
  have hTable := named_table hColumns hn
  have hRows := named_rows hColumns hn
  obtain ⟨c, tag, d, _, rfl | rfl⟩ := hColumns n hn
  · exact ⟨[c], tag, rfl, reading_of_named hRows⟩
  · have hQualified : (Node.name [s.name, c] tag).isQualified s.name = true :=
      beq_self_eq_true s.name
    refine ⟨[s.name, c], tag, rfl, ?_⟩
    rw [s.reading_filtered_qualified, sourceOf, originOf, if_pos hQualified, if_pos hQualified]
    exact reading_of_named hTable

/-- Without its qualification a target is a bare reference. -/
theorem unqualified_target : ∃ tag, n.unqualified s.name = .name [n.referredColumn] tag := by
  obtain ⟨c, tag, d, _, rfl | rfl⟩ := hColumns n hn
  · exact ⟨tag, rfl⟩
  · exact ⟨tag, by simp [Node.unqualified, Node.bareParts, Node.referredColumn]⟩

end Columns

theorem bareParts_of_columns {s : TableSelect} (hColumns : s.SelectsColumns)
    (hBare : ∀ n ∈ s.targets, n.isQualified s.name = false) :
    ∀ parts ∈ Node.referencesOf s.targets, Node.bareParts s.name parts = parts := by
  intro parts hp
  obtain ⟨n, hn, hp⟩ := Node.mem_referencesOf.1 hp
  have hNot := hBare n hn
  obtain ⟨c, tag, d, _, rfl | rfl⟩ := hColumns n hn
  · cases mem_singleton.1 hp
    rfl
  · simp [Node.isQualified] at hNot

section ColumnAnswers

variable {s} (hColumns : s.SelectsColumns)
include hColumns

theorem answered_select_columns : answered s.select s.before = tableRows s.distinct
      (columnValues Node.outputName (fun n => n.columnIn (s.sourceOf n)) s.originOf s.targets) := by
  have hTargets : targetsOf true s.fetched.catalog.extensions (reading true s.filtered s.kept) none
      (s.targets.map fun n => n) = some _ :=
    targetsOf_columns true _ _ fun n hn => reads_target hColumns hn
  rw [map_id'] at hTargets
  rw [s.answered_select (.inl rfl), columns_eq_none hColumns, hTargets]
  rfl

theorem targetsOf_bareTargets {w : Workspace} {id : Nat}
    (hNamed : ∀ n ∈ s.targets, ∃ d, (w.tableAt id).named n.referredColumn = [d]) :
    targetsOf true s.fetched.catalog.extensions (reading true w id) none s.bareTargets =
      some (columnValues (fun n => (n.unqualified s.name).outputName)
        (fun n => n.columnIn (w.tableAt id)) (fun n => some ⟨id, n.referredColumn⟩) s.targets) := by
  rw [bareTargets, Node.unqualifiedAll_eq_map]
  refine targetsOf_columns true _ _ fun n hn => ?_
  obtain ⟨tag, hTarget⟩ := unqualified_target hColumns hn
  obtain ⟨d, hd⟩ := hNamed n hn
  exact ⟨_, tag, hTarget, reading_of_named hd⟩

theorem answered_bare_columns : answered s.bare s.before = tableRows s.distinct
      (columnValues (fun n => (n.unqualified s.name).outputName) (fun n => n.columnIn s.rows)
        (fun n => some ⟨s.kept, n.referredColumn⟩) s.targets) := by
  rw [s.answered_bare (.inl rfl), columns_eq_none hColumns,
    targetsOf_bareTargets hColumns fun n hn => ⟨_, named_rows hColumns hn⟩]
  rfl

theorem answered_whole_columns : answered s.whole s.before = tableRows s.distinct
      (columnValues (fun n => (n.unqualified s.name).outputName) (fun n => n.columnIn s.table)
        (fun n => some ⟨s.id, n.referredColumn⟩) s.targets) := by
  rw [s.answered_whole (.inl rfl), columns_eq_none hColumns,
    targetsOf_bareTargets hColumns fun n hn => ⟨_, named_table hColumns hn⟩]
  rfl

/-- Targets of one output name read the same. -/
theorem data_of_outputName (hNames : Node.Unambiguous s.targets) :
    ∀ m ∈ s.targets, ∀ n ∈ s.targets, m.outputName = n.outputName →
        (m.columnIn (s.sourceOf m)).data = (n.columnIn (s.sourceOf n)).data := by
  intro m hm n hn hName
  have hReferences := hNames m hm n hn hName
  obtain ⟨c, tag, d, _, hm⟩ := hColumns m hm
  obtain ⟨c', tag', d', _, hn⟩ := hColumns n hn
  rcases hm with rfl | rfl <;> rcases hn with rfl | rfl <;> cases hReferences <;> rfl

/-- Targets of one output name read the same without their qualification. -/
theorem data_of_bare_outputName (hNames : Node.Unambiguous s.bareTargets) (t : Table) :
    ∀ m ∈ s.targets, ∀ n ∈ s.targets,
        (m.unqualified s.name).outputName = (n.unqualified s.name).outputName →
        (m.columnIn t).data = (n.columnIn t).data := by
  intro m hm n hn hName
  have hBare (k : Node) (hk : k ∈ s.targets) : k.unqualified s.name ∈ s.bareTargets := by
    rw [bareTargets, Node.unqualifiedAll_eq_map]
    exact mem_map_of_mem hk
  have hReferences := hNames _ (hBare m hm) _ (hBare n hn) hName
  obtain ⟨tag, hTarget⟩ := unqualified_target hColumns hm
  obtain ⟨tag', hTarget'⟩ := unqualified_target hColumns hn
  rw [hTarget, hTarget'] at hReferences
  have hColumn : m.referredColumn = n.referredColumn := by
    simpa [Node.references] using hReferences
  rw [Node.columnIn, Node.columnIn, hColumn]

end ColumnAnswers

theorem height_rows_eq_iff : s.rows.height = s.table.height ↔ ∀ b ∈ s.mask, b = true := by
  rw [rows, s.rows_eq, height_filterRows s.mask_length, table, ← s.mask_length, count_eq_length]
  exact forall₂_congr fun b _ => eq_comm

/-- When a list of columns, some of them qualified, gives the rows that it gives without
qualification. -/
theorem answered_select_eq_iff (hColumns : s.SelectsColumns) (hNames : Node.Unambiguous s.targets)
    (hBareNames : Node.Unambiguous s.bareTargets) (hAnswers : (answered s.bare s.before).isSome) :
    answered s.select s.before = answered s.bare s.before ↔
      (∀ n ∈ s.targets, n.isQualified s.name = false) ∨ (∀ b ∈ s.mask, b = true) ∨
      ((∀ n ∈ s.targets, n.isQualified s.name = true) ∧ s.distinct = true ∧
        answered s.whole s.before = answered s.bare s.before) := by
  have hSame := data_of_outputName hColumns hNames
  have hBareSame := data_of_bare_outputName hColumns hBareNames
  by_cases hBare : ∀ n ∈ s.targets, n.isQualified s.name = false
  · exact iff_of_true (s.answered_select_of_bare (bareParts_of_columns hColumns hBare)) (.inl hBare)
  obtain ⟨q, hq, hQualified⟩ : ∃ q ∈ s.targets, q.isQualified s.name = true := by
    simpa using hBare
  have hNonempty : s.targets ≠ [] := ne_nil_of_mem hq
  have hTable (n : Node) (hn : n ∈ s.targets) : (n.columnIn s.table).data.length = s.table.height :=
    s.rectangular.length_of_mem_named (named_table hColumns hn ▸ mem_cons_self)
  have hRows (n : Node) (hn : n ∈ s.targets) : (n.columnIn s.rows).data.length = s.rows.height := by
    have hRectangular : s.rows.Rectangular := by
      rw [rows, s.rows_eq]
      exact s.rectangular.pickRows _
    exact hRectangular.length_of_mem_named (named_rows hColumns hn ▸ mem_cons_self)
  have hWhole (hAll : ∀ n ∈ s.targets, n.isQualified s.name = true) :
      answered s.select s.before = answered s.whole s.before := by
    have hSource (n : Node) (hn : n ∈ s.targets) : s.sourceOf n = s.table := if_pos (hAll n hn)
    rw [answered_select_columns hColumns, answered_whole_columns hColumns]
    refine tableRows_columns_congr hSame (hBareSame s.table) hNonempty hTable (fun n hn => ?_) _
    rw [hSource n hn]
  constructor
  · intro hEqual
    refine .inr (or_iff_not_imp_left.2 fun hMask => ?_)
    have hHeight : s.rows.height ≠ s.table.height := fun h => hMask (s.height_rows_eq_iff.1 h)
    -- a bare target beside a qualified one would have another length, and the select would fail
    have hAll (n : Node) (hn : n ∈ s.targets) : n.isQualified s.name = true := by
      by_contra hNot
      have hLength : (n.columnIn (s.sourceOf n)).data.length ≠
          (q.columnIn (s.sourceOf q)).data.length := by
        rw [sourceOf, sourceOf, if_neg hNot, if_pos hQualified, hRows n hn, hTable q hq]
        exact hHeight
      rw [← hEqual, answered_select_columns hColumns,
        tableRows, ofValues_columns_error hSame hn hq hLength] at hAnswers
      cases hAnswers
    have hWholeBare := (hWhole hAll).symm.trans hEqual
    refine ⟨hAll, ?_, hWholeBare⟩
    by_contra hDistinct
    obtain ⟨rows, hAnswer⟩ := Option.isSome_iff_exists.1 hAnswers
    rw [hAnswer] at hWholeBare
    rw [answered_bare_columns hColumns, Bool.eq_false_of_not_eq_true hDistinct] at hAnswer
    rw [answered_whole_columns hColumns, Bool.eq_false_of_not_eq_true hDistinct] at hWholeBare
    exact hHeight ((length_tableRows_columns (hBareSame s.rows) hNonempty hRows hAnswer).symm.trans
      (length_tableRows_columns (hBareSame s.table) hNonempty hTable hWholeBare))
  · rintro (hNone | hMask | ⟨hAll, _, hWholeBare⟩)
    · exact absurd hNone hBare
    · have hSource (n : Node) : s.sourceOf n = s.rows := by
        rw [sourceOf, s.rows_eq_table hMask, ite_self]
      rw [answered_select_columns hColumns, answered_bare_columns hColumns]
      refine tableRows_columns_congr hSame (hBareSame s.rows) hNonempty hRows (fun n _ => ?_) _
      rw [hSource]
    · exact (hWhole hAll).trans hWholeBare

/-- Qualified references do not change the rows if only the condition has some, or if it leaves all
rows. If all references of the targets are qualified, the select answers as without its condition. A
list of columns keeps its rows exactly if nothing or everything is qualified and the rows come to
the same. -/
theorem qualified_rows_iff :
    ((∀ parts ∈ Node.referencesOf s.targets, Node.bareParts s.name parts = parts) →
      answered s.select s.before = answered s.bare s.before) ∧
    ((∀ b ∈ s.mask, b = true) → (s.condition = none ∨ Node.allTestLiterals s.targets = true) →
      EqualAlike (outputNames s.columns s.bareTargets) (outputNames s.columns s.targets) →
      answered s.select s.before = answered s.bare s.before) ∧
    ((∀ parts ∈ Node.referencesOf s.targets, ∃ c, parts = [s.name, c]) →
      s.targets.any isStar = false →
      EqualAlike (outputNames s.columns s.bareTargets) (outputNames s.columns s.targets) →
      answered s.select s.before = answered s.whole s.before) ∧
    (s.SelectsColumns → Node.Unambiguous s.targets → Node.Unambiguous s.bareTargets →
      (answered s.bare s.before).isSome →
      (answered s.select s.before = answered s.bare s.before ↔
        (∀ n ∈ s.targets, n.isQualified s.name = false) ∨ (∀ b ∈ s.mask, b = true) ∨
        ((∀ n ∈ s.targets, n.isQualified s.name = true) ∧ s.distinct = true ∧
          answered s.whole s.before = answered s.bare s.before))) :=
  ⟨s.answered_select_of_bare, s.answered_select_of_all_rows, s.answered_select_of_qualified,
    s.answered_select_eq_iff⟩

/-- `SELECT t.v FROM t WHERE t.v > 15` over the values 10, 20 and 30. -/
def sampleSelect : TableSelect where
  before := .ofTables [("t", threeRows)]
  parts := ["t"]
  tag := {}
  targets := [.name ["t", "v"] {}]
  condition := some (.operation .binary ">" [.name ["t", "v"] {}, .constant (.int 15) {}] {})
  distinct := false
  name := "t"
  id := 0
  fetched := (Work.run (evalSource (.name ["t"] {})) (.ofTables [("t", threeRows)])).2
  kept := 1
  filtered := (Work.run (evalWhere (.frame 0)
      (some (.operation .binary ">" [.name ["v"] {}, .constant (.int 15) {}] {})))
    (Work.run (evalSource (.name ["t"] {})) (.ofTables [("t", threeRows)])).2).2
  mask := [false, true, true]
  source_eq := rfl
  where_eq := rfl
  name_eq := Or.inl rfl
  id_lt := Nat.zero_lt_one
  rectangular := by
    intro c hc
    cases List.mem_singleton.1 hc
    rfl
  mask_length := rfl
  rows_eq := rfl
  undotted := by
    intro c
    refine List.any_eq_false.2 fun column hColumn => ?_
    cases List.mem_singleton.1 hColumn
    have hFirst : "v" ≠ "t" ++ "." ++ c := fun h => by
      simpa using congrArg (fun name => name.toList.head?) h
    simpa using hFirst
  targets_flat := rfl
  condition_flat := by
    intro n hn
    cases hn
    rfl
  ungrouped := rfl
  extensions := by
    intro name f h
    cases h

/-- The condition has no effect on the sample, and without qualified references it would have one.
-/
theorem qualified_rows_iff_all_qualified :
    answered sampleSelect.select sampleSelect.before =
      answered sampleSelect.whole sampleSelect.before ∧
    answered sampleSelect.select sampleSelect.before ≠
      answered sampleSelect.bare sampleSelect.before := by
  have hOne {P : Node → Prop} (h : P (.name ["t", "v"] {})) : ∀ n ∈ sampleSelect.targets, P n := by
    intro n hn
    cases mem_singleton.1 hn
    exact h
  obtain ⟨_, _, hWhole, hIff⟩ := sampleSelect.qualified_rows_iff
  refine ⟨hWhole (fun parts hp => ?_) rfl ⟨fun _ => "t.v", fun _ => "v", rfl, rfl⟩, ?_⟩
  · cases mem_singleton.1 hp
    exact ⟨"v", rfl⟩
  · have hColumns : sampleSelect.SelectsColumns :=
      hOne ⟨"v", {}, .ints .int64 [10, 20, 30], rfl, Or.inr rfl⟩
    have hBareNames : Node.Unambiguous sampleSelect.bareTargets := by
      intro m hm n hn _
      cases mem_singleton.1 hm
      cases mem_singleton.1 hn
      rfl
    rw [Ne, hIff hColumns (hOne (hOne fun _ => rfl)) hBareNames rfl]
    rintro (hNone | hMask | ⟨_, hDistinct, _⟩)
    · exact absurd (hNone _ mem_cons_self) (by decide)
    · exact absurd (hMask false mem_cons_self) (by decide)
    · cases hDistinct

/-- Of three values two are greater than 15. With `t.v` as the target all three are answered. -/
theorem qualified_reads_unfiltered :
    answered sampleSelect.select sampleSelect.before = some [[.int 10], [.int 20], [.int 30]] ∧
      answered sampleSelect.bare sampleSelect.before = some [[.int 20], [.int 30]] :=
  ⟨rfl, rfl⟩

end TableSelect

end Query

end TableQuery
