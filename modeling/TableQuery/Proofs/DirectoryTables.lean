import TableQuery.Proofs.FailedOpenings
import TableQuery.Proofs.GivenTables

/-! A catalog that is opened with the files of a directory. Each file that is a table is registered
once, under its name without the ending, and nothing but the metadata is written. -/
namespace TableQuery

open List Work

/-- A directory for metadata: it is there and writable, and metadata can be written but there is
none yet. -/
structure Drive.OffersDirectory (d : Drive) (dir : String) (path : Path) : Prop where
  dirExists : d.pathExists dir = true
  writable : d.isWritable dir = true
  accepts : d.Accepts (metadataPath dir) (path ++ [metadataName])
  noMetadata : d.pathExists (metadataPath dir) = false

namespace Work

open Workspace

/-- A table stands under the name of a file and is the table of this file, to be cleaned of what is
empty in it. -/
def ReadsFile (d : Drive) (filesDir stem : String) (e : Document × Entry) : Prop :=
  e.1 = .text stem ∧ e.2.name = .text stem ∧
    e.2.file? = some (.text (Path.join filesDir (stem ++ ".csv"))) ∧
    ∃ text t, d.read (Path.join filesDir (stem ++ ".csv")) = .ok text ∧ Csv.read text = .ok t ∧
      e.2.plan = Entry.planDocument t.cleaningPlan

/-- The metadata of a catalog is the one file that was written, and each entry has its text in it.
-/
def WroteMetadata (d : Drive) (dir : String) (path : Path) (w : Workspace) : Prop :=
  w.catalog.dir = dir ∧ w.drive = d.put (path ++ [metadataName]) w.catalog.toDocument.print ∧
    ∀ e ∈ w.catalog.entries, e.2.unwritable? = none

section Files

variable {d : Drive} {dir filesDir : String} {path filesPath : Path} {w : Workspace}
  (hDir : d.OffersDirectory dir path)
include hDir

theorem run_openCatalog_offered (hd : w.drive = d) :
    ∃ v, run (openCatalog dir [] (Cache.fresh none) []) w = (.ok (), v) ∧
      WroteMetadata d dir path v ∧ v.catalog.entries = [] := by
  subst hd
  have hCatalog : catalogOf w.drive dir [] = .ok { dir } := by
    simp only [catalogOf, Catalog.load, hDir.noMetadata, Bool.false_eq_true, if_false]
    rfl
  have hReaches : Reaches dir [] w w.drive (path ++ [metadataName]) { dir } :=
    ⟨run_ensureDirectory hDir.dirExists, rfl, hDir.dirExists, hCatalog, hDir.writable, hDir.accepts⟩
  exact ⟨_, hReaches.run_of_written (by simp), ⟨rfl, rfl, by simp [linked]⟩, rfl⟩

/-- A file whose name is free is added. -/
theorem run_addFile_stem (hFiles : Path.ofString? filesDir = some filesPath)
    (hw : WroteMetadata d dir path w) {stem text : String} {t : Table} (hSlash : '/' ∉ stem.toList)
    (hNew : ∀ old ∈ w.catalog.entries, old.1.sameKey (.text stem) = false)
    (hText : d.read (Path.join filesDir (stem ++ ".csv")) = .ok text)
    (hRead : Csv.read text = .ok t) :
    ∃ v e, run (addFile (Path.join filesDir (stem ++ ".csv")) true) w = (.ok (), v) ∧
      WroteMetadata d dir path v ∧ v.catalog.entries = w.catalog.entries ++ [e] ∧
      ReadsFile d filesDir stem e := by
  obtain ⟨rfl, hDrive, hWritten⟩ := hw
  let e := fileEntry (Path.join filesDir (stem ++ ".csv")) t true
  have hName : e.name = .text stem := congrArg Document.text
    (Path.stem_join (fun hEmpty => by rw [hEmpty] at hFiles; cases hFiles) hSlash)
  have hFind : w.catalog.find e.name = .ok none := by
    rw [hName]
    exact congrArg Except.ok (entryAt?_eq_none_iff.2 hNew)
  have hNe : stem ++ ".csv" ≠ metadataName := Adhoc.csv_ne stem (by decide)
  have hOther : filesPath ++ [stem ++ ".csv"] ≠ path ++ [metadataName] := fun hSame =>
    hNe (by simpa using (append_inj' hSame rfl).2)
  have hHere : w.drive.read (Path.join filesDir (stem ++ ".csv")) = .ok text := by
    rw [hDrive]
    exact Drive.read_put_of_ne
      (Path.ofString?_join (by simpa using hSlash) hFiles (Adhoc.csv_not_mem stem)) hOther hText _
  have hAdd : run (addFile (Path.join filesDir (stem ++ ".csv")) true) w =
      run (saveMetadata true) (w.withEntry e) := by
    rw [run_addFile_of_read hHere, hRead]
    exact run_addEntry_of_new hFind
  have hAll : ∀ x ∈ (w.withEntry e).catalog.entries, x.2.unwritable? = none :=
    forall_mem_append.2 ⟨hWritten, forall_mem_singleton.2 rfl⟩
  have hSave := run_saveMetadata_put (w := w.withEntry e)
    (hDrive ▸ Drive.pathExists_put hDir.dirExists _ _) (hDrive ▸ hDir.writable)
    (hDrive ▸ hDir.accepts.put _) (dump_eq_ok hAll)
  refine ⟨_, (.text stem, { e with id := w.catalog.created }), hAdd.trans hSave, ⟨rfl, ?_, hAll⟩,
    ?_, rfl, hName, rfl, text, t, hText, hRead, rfl⟩
  · change w.drive.put _ _ = _
    rw [hDrive, Drive.put_put]
  · rw [← hName]
    rfl

/-- Files whose names differ and are free are added one after another. What is not a table is passed
over. -/
theorem run_addFiles_listed (hFiles : Path.ofString? filesDir = some filesPath)
    (hw : WroteMetadata d dir path w) {given names : List String}
    (hKeys : w.catalog.keys = given.map .text) (hNew : ∀ stem ∈ given, stem ++ ".csv" ∉ names)
    (hNodup : names.Nodup) (hSlash : ∀ name ∈ names, '/' ∉ name.toList)
    (hRead : ∀ name ∈ names, name.endsWith ".csv" = true →
      ∃ text t, d.read (Path.join filesDir name) = .ok text ∧ Csv.read text = .ok t) :
    ∃ stems entries v, names.filter (·.endsWith ".csv") = stems.map (· ++ ".csv") ∧
      run (addFiles filesDir names) w = (.ok (), v) ∧ WroteMetadata d dir path v ∧
      v.catalog.entries = w.catalog.entries ++ entries ∧
      Forall₂ (ReadsFile d filesDir) stems entries := by
  induction names generalizing w given with
  | nil => exact ⟨[], [], w, rfl, rfl, hw, (append_nil _).symm, .nil⟩
  | cons name rest ih =>
    obtain ⟨hOnce, hNodup'⟩ := nodup_cons.1 hNodup
    obtain ⟨hHere, hSlash'⟩ := forall_mem_cons.1 hSlash
    obtain ⟨hFirst, hRead'⟩ := forall_mem_cons.1 hRead
    have hLater : ∀ stem ∈ given, stem ++ ".csv" ∉ rest :=
      fun stem h hMem => hNew stem h (mem_cons_of_mem _ hMem)
    cases hCsv : name.endsWith ".csv" with
    | false =>
      rw [addFiles_cons_of_other hCsv, filter_cons_of_neg (by simp [hCsv])]
      exact ih hw hKeys hLater hNodup' hSlash' hRead'
    | true =>
      obtain ⟨stem, rfl⟩ := endsWith_csv_iff.1 hCsv
      obtain ⟨text, t, hText, hTable⟩ := hFirst hCsv
      have hFree : stem ∉ given := fun h => hNew stem h mem_cons_self
      obtain ⟨w₁, e, hRun, hw₁, hEntries, hStem⟩ :=
        run_addFile_stem hDir hFiles hw (by simpa using hHere) (forall_sameKey hKeys hFree) hText
          hTable
      have hKeys₁ : w₁.catalog.keys = (given ++ [stem]).map .text := by
        rw [Catalog.keys, hEntries, map_append, map_append, ← hKeys, map_singleton, hStem.1]
        rfl
      obtain ⟨stems, entries, v, hStems, hRest, hv, hAll, hOthers⟩ := ih hw₁ hKeys₁
        (forall_mem_append.2 ⟨hLater, forall_mem_singleton.2 hOnce⟩) hNodup' hSlash' hRead'
      refine ⟨stem :: stems, e :: entries, v, ?_, ?_, hv, by rw [hAll, hEntries, append_assoc]; rfl,
        .cons hStem hOthers⟩
      · rw [filter_cons, if_pos hCsv, hStems, map_cons]
      · rw [addFiles_cons_of_csv hCsv, run_bind_ok hRun, hRest]

end Files

/-- Opening a catalog with the files of a directory registers every table among them once, in the
order in which they are listed and under its name without the ending, and each table reads its file.
Only the metadata is written. Without any table the opening fails. -/
theorem directory_registered_once {dir filesDir : String} {path : Path} {names : List String}
    {w : Workspace} (hDir : w.drive.OffersDirectory dir path)
    (hList : w.drive.list filesDir = .ok names) (hNodup : names.Nodup)
    (hSlash : ∀ name ∈ names, '/' ∉ name.toList)
    (hRead : ∀ name ∈ names, name.endsWith ".csv" = true →
      ∃ text t, w.drive.read (Path.join filesDir name) = .ok text ∧ Csv.read text = .ok t) :
    ∃ stems v, names.filter (·.endsWith ".csv") = stems.map (· ++ ".csv") ∧ stems.Nodup ∧
      Work.run (openFiles dir filesDir) w =
        (if stems = [] then .error (.query (.noDataFiles filesDir)) else .ok (), v) ∧
      v.catalog.keys = stems.map .text ∧
      Forall₂ (ReadsFile w.drive filesDir) stems v.catalog.entries ∧
      WroteMetadata w.drive dir path v := by
  obtain ⟨filesPath, hFiles⟩ : ∃ p, Path.ofString? filesDir = some p := by
    unfold Drive.list at hList
    split at hList
    · cases hList
    · exact ⟨_, ‹_›⟩
  obtain ⟨w₁, hOpen, hw₁, hNone⟩ := run_openCatalog_offered hDir rfl
  have hKeys : w₁.catalog.keys = [].map .text := by rw [Catalog.keys, hNone]; rfl
  obtain ⟨stems, entries, v, hStems, hAdd, hv, hEntries, hAll⟩ :=
    run_addFiles_listed hDir hFiles hw₁ hKeys (by simp) hNodup hSlash hRead
  rw [hNone, nil_append] at hEntries
  refine ⟨stems, v, hStems, .of_map _ (hStems ▸ hNodup.filter _), ?_, ?_, hEntries ▸ hAll, hv⟩
  · unfold openFiles
    rw [run_bind_ok (run_drive w), hList, run_bind_ok (run_lift_ok names w), run_bind_ok hOpen,
      run_bind_ok hAdd, run_bind_ok (run_catalog v), hEntries]
    cases hAll <;> rfl
  · rw [Catalog.keys, hEntries]
    exact forall₂_eq_eq_eq ▸
      forall₂_map_left_iff.2 (forall₂_map_right_iff.2 (hAll.imp fun _ _ h => h.1).flip)

/-- Files that are listed in no order of their names, one of which is no table. -/
def looseFiles : Workspace where
  drive :=
    { files := [(["f", "b.csv"], "v\n1\n"), (["f", "notes.txt"], ""), (["f", "a.b.csv"], "v\n1\n")]
      directories := [["f"], ["m"]] }
  catalog := { dir := "" }

/-- Tables are registered in the order of the listing. A name keeps its dots, but for that of the
ending. -/
theorem directory_registered_loose :
    looseFiles.drive.list "f" = .ok ["b.csv", "notes.txt", "a.b.csv"] ∧
    ∃ v, Work.run (openFiles "m" "f") looseFiles = (.ok (), v) ∧
      v.catalog.keys = [.text "b", .text "a.b"] := by
  have hList : looseFiles.drive.list "f" = .ok ["b.csv", "notes.txt", "a.b.csv"] := rfl
  have hDir : looseFiles.drive.OffersDirectory "m" ["m"] :=
    ⟨rfl, rfl, ⟨rfl, rfl, rfl, rfl, rfl⟩, rfl⟩
  have hTable : Csv.read "v\n1\n" = .ok ⟨Column.freshLabels 1, [("v", .ints .int64 [1])]⟩ := rfl
  have hFirst : "b.csv".endsWith ".csv" = true := endsWith_csv_iff.2 ⟨"b", rfl⟩
  have hLast : "a.b.csv".endsWith ".csv" = true := endsWith_csv_iff.2 ⟨"a.b", rfl⟩
  have hOther : "notes.txt".endsWith ".csv" = false := Bool.eq_false_iff.2 fun h => by
    obtain ⟨stem, hStem⟩ := endsWith_csv_iff.1 h
    have hEnd := congrArg (fun s => s.toList.getLast?) hStem
    simp at hEnd
  have hRead : ∀ name ∈ ["b.csv", "notes.txt", "a.b.csv"], name.endsWith ".csv" = true →
      ∃ text t, looseFiles.drive.read (Path.join "f" name) = .ok text ∧ Csv.read text = .ok t := by
    intro name hName hCsv
    simp only [mem_cons, not_mem_nil, or_false] at hName
    rcases hName with rfl | rfl | rfl
    · exact ⟨_, _, rfl, hTable⟩
    · cases hOther.symm.trans hCsv
    · exact ⟨_, _, rfl, hTable⟩
  obtain ⟨stems, v, hStems, -, hRun, hKeys, -⟩ :=
    directory_registered_once hDir hList (by simp) (by simp) hRead
  have hNames : ["b", "a.b"].map (· ++ ".csv") = stems.map (· ++ ".csv") := by
    rw [← hStems]
    simp [hFirst, hOther, hLast]
  obtain rfl : ["b", "a.b"] = stems := map_injective_iff.2 (fun a b h => by simpa using h) hNames
  exact ⟨hList, v, hRun, hKeys⟩

end Work

end TableQuery
