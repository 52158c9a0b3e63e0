import TableQuery.Proofs.GivenTables
import TableQuery.Proofs.StarNames
import TableQuery.Proofs.TableKeys

/-! Tables of files. A file is a table under its name without the extension, which a query finds
exactly if all parts between the dots are plain names. -/
namespace TableQuery

open Sql

namespace Path

theorem intercalate_pieces (name : String) : String.intercalate "." (pieces '.' name) = name := by
  apply String.toList_injective
  rw [String.toList_intercalate, pieces, split_eq_splitOn]
  simp [Function.comp_def, List.intercalate_splitOn]

/-- A name without backquotes is written as it is exactly if all its parts are. -/
theorem writeParts_pieces_eq_iff {name : String} (h : '`' ∉ name.toList) :
    writeParts (pieces '.' name) = name ↔ ∀ part ∈ pieces '.' name, writePart part = part := by
  constructor
  · intro hName
    exact writePart_eq_of_writeParts (hName.symm ▸ h)
  · intro hPlain
    rw [writeParts, List.map_congr_left hPlain, List.map_id', intercalate_pieces]

end Path

theorem entryAt?_singleton (name key : String) (e : Entry) :
    entryAt? [(.text name, e)] (.text key) = if name = key then some e else none := by
  by_cases h : name = key
  · simp [entryAt?, Document.sameKey_text, h]
  · simp [entryAt?, Document.sameKey_text, h]

namespace Work

/-- What a file that was added leaves: one entry more, under the name of the file. -/
theorem exists_entry_of_addFile {path : String} {clean : Bool} {w v : Workspace}
    (h : Work.run (addFile path clean) w = (.ok (), v)) :
    ∃ e, e.file? = some (.text path) ∧ e.cached = false ∧
      (∃ made, Entry.ofFile 0 w.drive path clean = .ok made ∧ e.plan = made.plan) ∧
      entryAt? w.catalog.entries (.text (Path.withoutExtension (Path.baseName path))) = none ∧
      v.catalog.entries =
        w.catalog.entries ++ [(.text (Path.withoutExtension (Path.baseName path)), e)] := by
  rw [run_addFile] at h
  split at h
  case h_2 => cases h
  rename_i e hFile
  obtain ⟨hName, hPath, hCached⟩ := fields_of_ofFile hFile
  obtain ⟨hFind, hRun⟩ | ⟨-, f, hRun⟩ := run_addEntry_cases e w
  · rw [hRun] at h
    obtain ⟨-, hCatalog, -⟩ := ready_of_saveMetadata h
    refine ⟨{ e with id := w.catalog.created }, hPath, hCached, ⟨e, hFile, rfl⟩,
      hName ▸ Catalog.entryAt?_of_find hFind, ?_⟩
    rw [hCatalog, ← hName]
    rfl
  · rw [hRun] at h
    cases h

end Work

namespace Query

open Work

variable {parts : List String} {w : Workspace}

/-- A table is looked up by what is written for its parts. -/
theorem run_tableOf_none (h : entryAt? w.catalog.entries (.text (writeParts parts)) = none) :
    Work.run (tableOf parts) w = (.error (.query (.unknownTable (writeParts parts))), w) := by
  unfold tableOf
  rw [run_bind_ok (run_catalog w), h]
  rfl

theorem exists_run_tableOf {e : Entry}
    (h : entryAt? w.catalog.entries (.text (writeParts parts)) = some e)
    (hCached : e.cached = false) {t : Table} (hFetch : e.fetch w.drive = .ok (some t)) :
    ∃ u, Work.run (tableOf parts) w = (.ok (.frame w.frames.size), u) ∧
      u.tableAt w.frames.size = t := by
  unfold tableOf
  rw [run_bind_ok (run_catalog w), h, run_bind_ok (run_rowsOf_fetched hCached hFetch)]
  exact ⟨_, rfl, Workspace.tableAt_push_size w t⟩

/-- A file is in the catalog under its name without the extension. A query for the parts of this
name is handed out the table exactly if all parts are plain names. -/
theorem file_table_found_iff {path : String} {clean : Bool} {w v : Workspace}
    (hAdd : Work.run (addFile path clean) w = (.ok (), v)) {name : String}
    (hName : Path.withoutExtension (Path.baseName path) = name) (hQuotes : '`' ∉ name.toList)
    (hFree : entryAt? w.catalog.entries (.text (writeParts (Path.pieces '.' name))) = none) :
    ∃ e, entryAt? v.catalog.entries (.text name) = some e ∧ e.file? = some (.text path) ∧
      (∀ t, e.fetch v.drive = .ok (some t) →
        ((∃ u, Work.run (tableOf (Path.pieces '.' name)) v = (.ok (.frame v.frames.size), u) ∧
            u.tableAt v.frames.size = t) ↔ ∀ part ∈ Path.pieces '.' name, writePart part = part)) ∧
      ((∃ part ∈ Path.pieces '.' name, writePart part ≠ part) →
        Work.run (tableOf (Path.pieces '.' name)) v =
          (.error (.query (.unknownTable (writeParts (Path.pieces '.' name)))), v)) := by
  subst hName
  obtain ⟨e, hPath, hCached, -, hNew, hEntries⟩ := exists_entry_of_addFile hAdd
  generalize Path.withoutExtension (Path.baseName path) = name at *
  have hEntry {key : String} (hKey : entryAt? w.catalog.entries (.text key) = none) :
      entryAt? v.catalog.entries (.text key) = if name = key then some e else none := by
    rw [hEntries, entryAt?_append, hKey, Option.none_or, entryAt?_singleton]
  have hPlain := Path.writeParts_pieces_eq_iff hQuotes
  have hOther (hWritten : writeParts (Path.pieces '.' name) ≠ name) :
      run (tableOf (Path.pieces '.' name)) v =
        (.error (.query (.unknownTable (writeParts (Path.pieces '.' name)))), v) :=
    run_tableOf_none ((hEntry hFree).trans (if_neg hWritten.symm))
  refine ⟨e, (hEntry hNew).trans (if_pos rfl), hPath, fun t hFetch => ?_,
    fun ⟨part, hPart, hQuoted⟩ => ?_⟩
  · rw [← hPlain]
    constructor
    · rintro ⟨u, hRun, -⟩
      by_contra hWritten
      rw [hOther hWritten] at hRun
      cases hRun
    · intro hWritten
      exact exists_run_tableOf ((hEntry hFree).trans (if_pos hWritten.symm)) hCached hFetch
  · exact hOther fun hWritten => hQuoted (hPlain.1 hWritten part hPart)

def namedFiles : Workspace where
  drive :=
    { files := [(["a.b.csv"], "v\n1\n"), (["my file.csv"], "v\n1\n")], directories := [["d"]] }
  catalog := { dir := "d" }

/-- A name with a dot in it is found by its parts. -/
theorem file_table_found_dotted :
    ∃ v u, Work.run (addFile "a.b.csv" false) namedFiles = (.ok (), v) ∧
      Work.run (tableOf ["a", "b"]) v = (.ok (.frame 0), u) ∧
      u.tableAt 0 = ⟨Column.freshLabels 1, [("v", .ints .int64 [1])]⟩ := by
  have hAdd : run (addFile "a.b.csv" false) namedFiles =
      (.ok (), (run (addFile "a.b.csv" false) namedFiles).2) := Prod.ext rfl rfl
  obtain ⟨e, hEntry, -, hFound, -⟩ := file_table_found_iff hAdd rfl (by decide) rfl
  cases hEntry
  obtain ⟨u, hRun, hTable⟩ :=
    (hFound _ rfl).2 (List.forall_mem_cons.2 ⟨rfl, List.forall_mem_singleton.2 rfl⟩)
  exact ⟨_, u, hAdd, hRun, hTable⟩

/-- A table is not found under the name of its file if there is a blank in it. -/
theorem blank_hides_table :
    (Work.run (addFile "my file.csv" false >>= fun _ => tableOf ["my file"]) namedFiles).1 =
      .error (.query (.unknownTable "`my file`")) := rfl

end Query

end TableQuery
