import TableQuery.Proofs.CleanedTables
import TableQuery.Proofs.FileTables
import TableQuery.Proofs.QuotedNames

/-! Tables without rows. All their columns are empty, so cleaning drops every one of them, and no
query finds a column. As it is, the table answers with no rows. -/
namespace TableQuery

open List Work Sql Table

theorem Table.cleaned_of_rowless {t : Table} (ht : t.Rectangular) (hHeight : t.height = 0) :
    t.cleaned = ⟨[], []⟩ := by
  have hColumns : t.entryColumns = [] := by
    refine filter_eq_nil_iff.2 fun c hc => ?_
    have hNone : c.2.missing = [] :=
      length_eq_zero_iff.1 (by rw [Data.length_missing, ht c hc, hHeight])
    simp [Data.hasEntry, hNone]
  rw [cleaned_eq_keeping ht, hColumns, entryRows, hHeight]
  rfl

namespace Query

/-- `SELECT cs FROM name`. -/
def columnsFrom (name : String) (cs : List (String × Data)) : Select :=
  orderedColumns (.name [name] {}) (cs.map (·.1)) none

section Fetched

variable {w : Workspace} {name : String} {e : Entry} {t : Table}
  (hEntry : entryAt? w.catalog.entries (.text (writeParts [name])) = some e)
  (hCached : e.cached = false) (hFetch : e.fetch w.drive = .ok (some t))
include hEntry hCached hFetch

/-- The first column that is not there is reported. -/
theorem evalSelect_missing {c : String × Data} (hNone : t.has c.1 = false)
    (rest : List (String × Data)) :
    (run (evalSelect (columnsFrom name (c :: rest))) w).1 =
      .error (.query (.columnNotFound (writeParts [c.1]))) := by
  have hColumn : run (columnOf [c.1] (.frame w.frames.size)) (directFrom name t w) =
      (.error (.query (.columnNotFound (writeParts [c.1]))), directFrom name t w) := by
    rw [run_columnOf_bare, tableAt_directFrom, hNone]
    rfl
  have hTargets : run
      (targetTable (columnNodes ((c :: rest).map (·.1))) [] none (.frame w.frames.size))
      (directFrom name t w) =
      (.error (.query (.columnNotFound (writeParts [c.1]))), directFrom name t w) := by
    rw [targetTable, if_pos isEmpty_nil, run_bind_ok (run_starColumns_columnNodes _ _ _)]
    exact run_bind_error (run_bind_error hColumn)
  rw [run_evalSelect_direct hEntry hCached hFetch rfl, columnsFrom, orderedColumns,
    run_afterFrom_targets (groupKeys_columnNodes _), hTargets]

theorem keyColumns_fetched (ht : t.names.Nodup) {cs : List (String × Data)} (hcs : cs ⊆ t.columns) :
    KeyColumns w (.name [name] {}) cs (directFrom name t w) w.frames.size t where
  run_source := run_evalFrom_of_rowsOf hEntry (run_rowsOf_fetched hCached hFetch)
  tableAt_eq := tableAt_directFrom name t w
  nameOf_eq c _ := by
    change ((w.frames.push { table := t })[w.frames.size]?.getD default).nameOf c.1 = c.1
    rw [Array.getElem?_push_size]
    rfl
  named c hc := named_of_nodup ht (hcs hc)

/-- The columns of a table without rows are shown without rows. -/
theorem evalSelect_rowless (ht : t.Simple) (hHeight : t.height = 0) {cs : List (String × Data)}
    (hcs : cs ⊆ t.columns) (hSome : cs ≠ []) :
    ∃ u, (run (evalSelect (columnsFrom name cs)) w).1 = .ok u ∧ u.height = 0 ∧
      u.names = cs.map (·.1) := by
  have hSimple : ∀ c ∈ cs, IsSimple c.1 := fun c hc => ht.mem_names (hcs hc)
  refine ⟨_,
    (keyColumns_fetched hEntry hCached hFetch ht.nodup hcs).evalSelect_columnNodes hSome hSimple
      (Entry.rectangular_of_fetch hFetch) none,
    ?_, ?_⟩
  · change (Column.freshLabels (height _)).length = 0
    rw [Column.length_freshLabels, height_withColumns, hHeight]
  · change map _ (map _ (map _ _)) = _
    rw [map_map, map_map]
    exact map_congr_left fun c hc => (hSimple c hc).isWhole.bareName_writeParts

end Fetched

/-- A file with a header and no rows answers a query for its columns exactly if it was added without
cleaning. With cleaning the first column is not found. -/
theorem rowless_table_answers_iff {path name text : String} {clean : Bool} {w v : Workspace}
    {t : Table} (hAdd : Work.run (addFile path clean) w = (.ok (), v))
    (hName : Path.withoutExtension (Path.baseName path) = name) (hPlain : writePart name = name)
    (hBefore : w.drive.read path = .ok text) (hAfter : v.drive.read path = .ok text)
    (hRead : Csv.read text = .ok t) (ht : t.Simple) (hHeight : t.height = 0) {c : String × Data}
    {cs : List (String × Data)} (hcs : c :: cs ⊆ t.columns) :
    ((∃ u, (Work.run (evalSelect (columnsFrom name (c :: cs))) v).1 = .ok u ∧ u.height = 0 ∧
      u.names = (c :: cs).map (·.1)) ↔ clean = false) ∧
    (clean = true →
      (Work.run (evalSelect (columnsFrom name (c :: cs))) v).1 =
        .error (.query (.columnNotFound (writeParts [c.1])))) := by
  obtain ⟨e, hPath, hCached, ⟨made, hMade, hPlan⟩, hNew, hEntries⟩ := exists_entry_of_addFile hAdd
  rw [hName] at hNew hEntries
  have hEntry : entryAt? v.catalog.entries (.text (writeParts [name])) = some e := by
    rw [writeParts_of_writePart hPlain, hEntries, entryAt?_append, hNew, Option.none_or,
      entryAt?_singleton, if_pos rfl]
  have hRaw {e : Entry} {drive : Drive} (hFile : e.file? = some (.text path))
      (hText : drive.read path = .ok text) : e.fetchRaw drive = .ok (some t) := by
    unfold Entry.fetchRaw
    rw [hFile]
    simp only [hText, hRead, bind, Except.bind]
    rfl
  have hRaw' := hRaw hPath hAfter
  rw [Entry.plan_of_ofFile hMade (hRaw (fields_of_ofFile hMade).2.1 hBefore)] at hPlan
  cases clean with
  | false =>
    have hFetch : e.fetch v.drive = .ok (some t) := by
      unfold Entry.fetch
      rw [hRaw', hPlan]
      rfl
    exact ⟨iff_of_true (evalSelect_rowless hEntry hCached hFetch ht hHeight hcs (cons_ne_nil _ _))
        rfl,
      nofun⟩
  | true =>
    have hLabels : t.labels = Column.freshLabels t.height := by
      rw [hHeight]
      exact length_eq_zero_iff.1 hHeight
    have hFetch := Entry.fetch_planned hRaw' hPlan ht.nodup hLabels
    rw [cleaned_of_rowless (Entry.asRead_of_fetchRaw hRaw').rectangular hHeight] at hFetch
    have hFails := evalSelect_missing hEntry hCached hFetch (c := c) rfl cs
    refine ⟨iff_of_false (fun ⟨u, hu, _⟩ => ?_) nofun, fun _ => hFails⟩
    rw [hFails] at hu
    cases hu

def headerOnly : Workspace where
  drive := { files := [(["t.csv"], "a,b\n")], directories := [["d"]] }
  catalog := { dir := "d" }

theorem rowless_table_answers_uncleaned :
    ∃ v u, Work.run (addFile "t.csv" false) headerOnly = (.ok (), v) ∧
      (Work.run (evalSelect { targets := [.name ["b"] {}], source := some (.name ["t"] {}) }) v).1 =
        .ok u ∧
      u.height = 0 ∧ u.names = ["b"] := by
  have hAdd : run (addFile "t.csv" false) headerOnly =
      (.ok (), (run (addFile "t.csv" false) headerOnly).2) := Prod.ext rfl rfl
  have hRead : Csv.read "a,b\n" = .ok ⟨[], [("a", .objects []), ("b", .objects [])]⟩ := rfl
  have hSimple : Table.Simple ⟨[], [("a", .objects []), ("b", .objects [])]⟩ := by
    refine ⟨by decide, fun name hName => ?_⟩
    rcases mem_pair.1 hName with rfl | rfl <;> exact ⟨by decide, by decide, by decide⟩
  have hColumn : [("b", .objects [])] ⊆ [("a", Data.objects []), ("b", .objects [])] :=
    subset_cons_self _ _
  obtain ⟨u, hAnswer, hHeight, hNames⟩ :=
    (rowless_table_answers_iff hAdd rfl rfl rfl rfl hRead hSimple rfl hColumn).1.2 rfl
  exact ⟨_, u, hAdd, hAnswer, hHeight, hNames⟩

/-- A column of a file without rows is not found after cleaning. -/
theorem rowless_column_not_found :
    (Work.run (addFile "t.csv" true >>=
      fun _ =>
        evalSelect { targets := [.name ["a"] {}, .name ["b"] {}], source := some (.name ["t"] {}) })
      headerOnly).1 = .error (.query (.columnNotFound "a")) := by
  let e : Entry :=
    { id := 0, name := .text "t", file? := some (.text "t.csv"),
      plan := Entry.planDocument ⟨[], [.text "a", .text "b"]⟩ }
  have hFile : Entry.ofFile 0 headerOnly.drive "t.csv" true = .ok e := rfl
  have hAccepts : headerOnly.drive.Accepts (metadataPath "d") ["d", metadataName] :=
    ⟨rfl, rfl, rfl, rfl, rfl⟩
  have hExists : headerOnly.drive.pathExists "d" = true := rfl
  have hWritable : headerOnly.drive.isWritable "d" = true := rfl
  have hSave := run_saveMetadata_put (w := headerOnly.withEntry e) hExists hWritable hAccepts rfl
  have hAdd := (run_addEntry_of_new (w := headerOnly) (e := e) rfl).trans hSave
  rw [run_bind, run_addFile, hFile]
  dsimp only
  rw [hAdd]
  rfl

end Query

end TableQuery
