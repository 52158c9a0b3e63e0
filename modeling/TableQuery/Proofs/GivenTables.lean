import TableQuery.Adhoc
import TableQuery.Proofs.Cleaning
import TableQuery.Proofs.FieldTypes
import TableQuery.Proofs.Metadata
import TableQuery.Proofs.TableText

/-! Tables that are given with a query. Each is written to a file, read from there and cleaned.
Whole numbers come back as they were, and texts if the reader takes them for texts. -/
namespace TableQuery

open List Work Function Table Column Drive Decimal Csv TableQuery.Path Entry Data

namespace Path

theorem split_eq_splitOn (mark : Char) (cs : List Char) : split mark cs = cs.splitOn mark := by
  induction cs with
  | nil => rfl
  | cons c rest ih =>
    rw [split, ih, splitOn_cons_eq_if_modifyHead]
    split
    · rfl
    · obtain ⟨piece, more, hPieces⟩ := exists_cons_of_ne_nil (splitOn_ne_nil mark rest)
      rw [hPieces]
      rfl

section Join

variable {dir name : String} (hName : '/' ∉ name.toList)
include hName

/-- A name without slashes behind a directory is the last piece of the path. -/
theorem pieces_join (hDir : dir ≠ "") : ∃ before, pieces '/' (join dir name) = before ++ [name] ∧
    before.foldl step [] = (pieces '/' dir).foldl step [] := by
  have hPieces (cs : List Char) :
      split '/' (cs ++ '/' :: name.toList) = split '/' cs ++ [name.toList] := by
    rw [split_eq_splitOn, splitOn_append_cons_self, splitOn_eq_singleton hName, split_eq_splitOn]
  unfold join
  rw [if_neg (by simpa using hDir)]
  split
  · -- The directory's text ends with a slash, and its last piece is empty.
    obtain ⟨cs, hText⟩ := getLast?_eq_some_iff.1 (beq_iff_eq.1 ‹_›)
    have hJoined : (dir ++ name).toList = cs ++ '/' :: name.toList := by simp [hText]
    refine ⟨(split '/' cs).map String.ofList, ?_, ?_⟩
    · rw [pieces, hJoined, hPieces]
      simp
    · rw [pieces, hText, split_eq_splitOn _ (cs ++ _), splitOn_append_cons_self, ← split_eq_splitOn,
        map_append, foldl_append]
      rfl
  · have hJoined : (dir ++ "/" ++ name).toList = dir.toList ++ '/' :: name.toList := by simp
    refine ⟨pieces '/' dir, ?_, rfl⟩
    rw [pieces, hJoined, hPieces]
    simp [pieces]

/-- A plain name behind a directory is one step further along its path. -/
theorem ofString?_join {path : Path} (hDir : ofString? dir = some path)
    (hPlain : name ∉ ["", ".", ".."]) : ofString? (join dir name) = some (path ++ [name]) := by
  simp only [mem_cons, not_mem_nil, or_false, not_or] at hPlain
  unfold ofString? at hDir
  split at hDir
  · cases hDir
  rename_i hSome
  obtain ⟨before, hPieces, hBefore⟩ := pieces_join hName (by simpa using hSome)
  have hJoined : ¬ (join dir name == "") = true := by
    unfold join
    split_ifs <;> simp [hPlain]
  rw [ofString?, if_neg hJoined, hPieces, foldl_append, hBefore, Option.some.inj hDir]
  simp [step, hPlain]

end Join

theorem withoutExtension_append (name : String) {extension : String} (h : '.' ∉ extension.toList) :
    withoutExtension (name ++ "." ++ extension) = name := by
  have hText : (name ++ "." ++ extension).toList = name.toList ++ '.' :: extension.toList := by simp
  apply String.toList_injective
  rw [withoutExtension, pieces, hText, split_eq_splitOn, splitOn_append_cons_self,
    splitOn_eq_singleton h, map_append, map_singleton, dropLast_concat,
    String.toList_intercalate]
  simp [comp_def, intercalate_splitOn]

/-- The name of the table of a file. -/
theorem stem_join {dir stem : String} (hDir : dir ≠ "") (h : '/' ∉ stem.toList) :
    withoutExtension (baseName (join dir (stem ++ ".csv"))) = stem := by
  have hName : '/' ∉ (stem ++ ".csv").toList := by simpa using h
  obtain ⟨before, hPieces, -⟩ := pieces_join hName hDir
  have hFile : stem ++ ".csv" = stem ++ "." ++ "csv" := by
    rw [String.append_assoc]
    rfl
  rw [baseName, hPieces, getLast?_concat, Option.getD_some, hFile]
  exact withoutExtension_append stem (by decide)

end Path

namespace Drive

/-- A file that is there is read as before after another one was written. -/
theorem read_put_of_ne {d : Drive} {s text : String} {p path : Path} (hPath : ofString? s = some p)
    (hNe : p ≠ path) (h : d.read s = .ok text) (other : String) :
    (d.put path other).read s = .ok text := by
  obtain ⟨q, hq, hFile⟩ := read_eq_ok_iff.1 h
  obtain rfl := Option.some.inj (hPath.symm.trans hq)
  exact read_eq_ok_iff.2 ⟨p, hPath, (lookup_setFile_of_ne hNe _ _).trans hFile⟩

end Drive

/-- A name that is new among the names of some entries. -/
theorem forall_sameKey {entries : List (Document × Entry)} {names : List String} {name : String}
    (hKeys : entries.map (·.1) = names.map .text) (hNew : name ∉ names) :
    ∀ old ∈ entries, old.1.sameKey (.text name) = false := by
  intro old hOld
  have hKey : old.1 ∈ names.map Document.text := hKeys ▸ mem_map_of_mem hOld
  obtain ⟨other, hOther, hKey⟩ := mem_map.1 hKey
  rw [← hKey, Document.sameKey_text]
  simpa using fun hEq : other = name => hNew (hEq ▸ hOther)

/-- The entry of a file that holds a table. -/
def fileEntry (path : String) (t : Table) (clean : Bool) : Entry where
  id := 0
  name := .text (withoutExtension (baseName path))
  file? := some (.text path)
  plan := if clean then planDocument t.cleaningPlan else .null

/-- The table of a file is added exactly if the file can be read. -/
theorem run_addFile_of_read {path text : String} {w : Workspace}
    (hText : w.drive.read path = .ok text) (clean : Bool) :
    run (addFile path clean) w =
      match read text with
      | .ok t => run (addEntry (fileEntry path t clean)) w
      | .error f => (.error f, w) := by
  have hFile : ofFile 0 w.drive path clean = (read text).map (fileEntry path · clean) := by
    simp only [ofFile, fetchRaw, hText, bind, Except.bind]
    cases read text <;> cases clean <;> rfl
  unfold addFile
  rw [run_bind_ok (run_drive w), hFile]
  cases read text <;> rfl

namespace Adhoc

variable {file name : String}

def filePath (name : String) : String := join dir (name ++ ".csv")

theorem csv_ne (name : String) (h : file.toList.getLast? ≠ some 'v') : name ++ ".csv" ≠ file := by
  rintro rfl
  exact h (by simp)

theorem csv_not_mem (name : String) : name ++ ".csv" ∉ ["", ".", ".."] := by
  simp only [mem_cons, not_mem_nil, or_false, not_or]
  exact ⟨csv_ne name (by decide), csv_ne name (by decide), csv_ne name (by decide)⟩

theorem ofString?_filePath (hSlash : '/' ∉ name.toList) :
    ofString? (filePath name) = some [dir, name ++ ".csv"] :=
  ofString?_join (by simpa using hSlash) (show _ = some [dir] from rfl) (csv_not_mem name)

structure Taking (w : Workspace) (names : List String) : Prop where
  dir_eq : w.catalog.dir = dir
  directories : w.drive.directories = [[dir]]
  denied : w.drive.denied = []
  locked : w.drive.locked = []
  noFile : w.drive.file? [dir] = none
  keys : w.catalog.entries.map (·.1) = names.map Document.text
  written : ∀ e ∈ w.catalog.entries, e.2.unwritable? = none

namespace Taking

variable {w : Workspace} {names : List String} (hw : Taking w names)
include hw

/-- A file can be written into the directory. -/
theorem accepts (hSlash : '/' ∉ file.toList) (hName : file ∉ ["", ".", ".."]) :
    w.drive.Accepts (join dir file) [dir, file] where
  path_eq := ofString?_join hSlash (show _ = some [dir] from rfl) hName
  notDirectory := by simp [isDirectory, hw.directories]
  noFileAbove := by simp [ancestors, hw.noFile]
  parent := by simp [isDirectory, hw.directories]
  unlocked := by simp [hw.locked]

theorem put (file text : String) :
    Taking { w with drive := w.drive.put [dir, file] text } names where
  dir_eq := hw.dir_eq
  directories := hw.directories
  denied := hw.denied
  locked := hw.locked
  noFile := (lookup_setFile_of_ne (by simp) _ _).trans hw.noFile
  keys := hw.keys
  written := hw.written

theorem run_saveMetadata : run (saveMetadata true) w =
      (.ok (), { w with drive := w.drive.put [dir, metadataName] w.catalog.toDocument.print }) := by
  have hPath : ofString? dir = some [dir] := rfl
  have hExists : w.drive.pathExists dir = true := by
    simp [pathExists, hPath, holds, isDirectory, hw.directories]
  have hWritable : w.drive.isWritable dir = true := by
    simp [isWritable, hw.denied, hw.locked, hPath]
  have hAccepts := hw.accepts (show '/' ∉ metadataName.toList by decide) (by decide)
  rw [← hw.dir_eq] at hExists hWritable
  exact run_saveMetadata_put hExists hWritable (hw.dir_eq ▸ hAccepts) (dump_eq_ok hw.written)

theorem withEntry {e : Entry} (he : e.name = .text name) (hWritten : e.unwritable? = none) :
    Taking (w.withEntry e) (names ++ [name]) where
  dir_eq := hw.dir_eq
  directories := hw.directories
  denied := hw.denied
  locked := hw.locked
  noFile := hw.noFile
  keys := by simp [Workspace.withEntry, hw.keys, he]
  written := forall_mem_append.2 ⟨hw.written, forall_mem_singleton.2 hWritten⟩

end Taking

def givenEntry (id : Nat) (name : String) (raw : Table) : Entry where
  id
  name := .text name
  file? := some (.text (filePath name))
  plan := planDocument raw.cleaningPlan

def withFile (w : Workspace) (name : String) (t : Table) : Workspace :=
  { w with drive := w.drive.put [dir, name ++ ".csv"] (write t) }

def saved (w : Workspace) : Workspace :=
  { w with drive := w.drive.put [dir, metadataName] w.catalog.toDocument.print }

def taken (w : Workspace) (name : String) (t raw : Table) : Workspace :=
  saved ((withFile w name t).withEntry (givenEntry 0 name raw))

theorem fileEntry_filePath (h : '/' ∉ name.toList) (raw : Table) :
    fileEntry (filePath name) raw true = givenEntry 0 name raw := by
  rw [fileEntry, filePath, stem_join (by decide) h]
  rfl

section Step

variable {w : Workspace} {names : List String} {t raw : Table} (hw : Taking w names)
  (hSlash : '/' ∉ name.toList)
include hw hSlash

theorem Taking.accepts_filePath : w.drive.Accepts (filePath name) [dir, name ++ ".csv"] :=
  hw.accepts (by simpa using hSlash) (csv_not_mem name)

theorem Taking.run_addFile (hNew : name ∉ names) :
    run (addFile (filePath name) true) (withFile w name t) =
      match read (write t) with
      | .ok raw => (.ok (), taken w name t raw)
      | .error f => (.error f, withFile w name t) := by
  have hText : (withFile w name t).drive.read (filePath name) = .ok (write t) :=
    (hw.accepts_filePath hSlash).read_put _
  have hFind : w.catalog.find (.text name) = .ok none :=
    congrArg Except.ok (entryAt?_eq_none_iff.2 (forall_sameKey hw.keys hNew))
  rw [run_addFile_of_read hText]
  cases read (write t) with
  | error f => rfl
  | ok raw =>
    dsimp only
    rw [fileEntry_filePath hSlash, run_addEntry_of_new hFind]
    exact ((hw.put _ _).withEntry rfl rfl).run_saveMetadata

/-- Registering tables one after another goes on exactly if the file of the first can be read. -/
theorem Taking.run_addTables_cons (sql : String) (rest : List (String × Table))
    (hNew : name ∉ names) (hOccurs : occursIn name sql = true) :
    run (addTables sql ((name, t) :: rest)) w =
      match read (write t) with
      | .ok raw => run (addTables sql rest) (taken w name t raw)
      | .error f => (.error f, withFile w name t) := by
  have hWrite : w.drive.write (join dir (name ++ ".csv")) (write t) = .ok _ :=
    (hw.accepts_filePath hSlash).write _
  rw [addTables, addTablesIn]
  simp only [hOccurs, Bool.not_true, Bool.false_eq_true, if_false]
  rw [run_bind_ok (run_drive w)]
  simp only [hWrite]
  rw [run_bind_ok (run_setDrive _ w), ← filePath, ← withFile, run_bind,
    hw.run_addFile hSlash hNew]
  cases read (write t) <;> rfl

end Step

/-- A given table is in a catalog: its text is in its file, and its entry plans to clean what is
read there. -/
structure Registered (w : Workspace) (name : String) (t raw : Table) : Prop where
  text : w.drive.read (filePath name) = .ok (write t)
  entry : ∃ id, entryAt? w.catalog.entries (.text name) = some (givenEntry id name raw)

section Registered

variable {w : Workspace} {names : List String} {t raw : Table}

theorem filePath_ne_metadataPath (name : String) : [dir, name ++ ".csv"] ≠ [dir, metadataName] := by
  simpa using csv_ne name (by decide)

theorem entries_taken (w : Workspace) (name : String) (t raw : Table) :
    (taken w name t raw).catalog.entries =
      w.catalog.entries ++ [(.text name, givenEntry w.catalog.created name raw)] := rfl

theorem Taking.registered_taken (hw : Taking w names) (hSlash : '/' ∉ name.toList)
    (hNew : name ∉ names) : Registered (taken w name t raw) name t raw where
  text := by
    refine read_put_of_ne (ofString?_filePath hSlash) (filePath_ne_metadataPath name) ?_ _
    exact (hw.accepts_filePath hSlash).read_put _
  entry := by
    have hOld : entryAt? w.catalog.entries (.text name) = none :=
      entryAt?_eq_none_iff.2 (forall_sameKey hw.keys hNew)
    refine ⟨w.catalog.created, ?_⟩
    rw [entries_taken, entryAt?_append, hOld]
    simp [entryAt?, Document.sameKey_text]

/-- A table that is registered stays so when another one is. -/
theorem Registered.taken {other : String} {u raw' : Table} (h : Registered w other u raw')
    (hSlash : '/' ∉ other.toList) (hNe : other ≠ name) :
    Registered (taken w name t raw) other u raw' where
  text := by
    refine read_put_of_ne (ofString?_filePath hSlash) (filePath_ne_metadataPath other) ?_ _
    exact read_put_of_ne (ofString?_filePath hSlash) (by simpa using hNe) h.text _
  entry := by
    obtain ⟨id, h⟩ := h.entry
    refine ⟨id, ?_⟩
    rw [entries_taken, entryAt?_append, h]
    rfl

theorem Taking.taken (hw : Taking w names) (name : String) (t raw : Table) :
    Taking (taken w name t raw) (names ++ [name]) :=
  ((hw.put _ _).withEntry rfl rfl).put _ _

/-- Tables whose files can all be read are all registered. -/
theorem Taking.run_addTables {sql : String} {tables : List (String × Table)} (hw : Taking w names)
    (hNodup : (names ++ tables.map (·.1)).Nodup) (hSlash : ∀ nt ∈ tables, '/' ∉ nt.1.toList)
    (hOccurs : ∀ nt ∈ tables, occursIn nt.1 sql = true)
    (hRead : ∀ nt ∈ tables, ∃ raw, read (write nt.2) = .ok raw) :
    ∃ w', run (addTables sql tables) w = (.ok (), w') ∧
      (∀ nt ∈ tables, ∀ raw, read (write nt.2) = .ok raw → Registered w' nt.1 nt.2 raw) ∧
      ∀ other ∈ names, '/' ∉ other.toList →
        ∀ u raw, Registered w other u raw → Registered w' other u raw := by
  induction tables generalizing w names with
  | nil => exact ⟨w, rfl, by simp, fun _ _ _ _ _ h => h⟩
  | cons nt rest ih =>
    obtain ⟨name, t⟩ := nt
    obtain ⟨hSlashName, hSlash⟩ := forall_mem_cons.1 hSlash
    obtain ⟨hOccursName, hOccurs⟩ := forall_mem_cons.1 hOccurs
    obtain ⟨⟨raw, hRaw⟩, hRead⟩ := forall_mem_cons.1 hRead
    have hNew : name ∉ names := fun hMem => (nodup_append.1 hNodup).2.2 name hMem name (by simp) rfl
    obtain ⟨w', hRun, hRest, hKept⟩ :=
      ih (hw.taken name t raw) (by simpa using hNodup) hSlash hOccurs hRead
    refine ⟨w', ?_, ?_, fun other hOther hSlashOther u raw' h => ?_⟩
    · rw [hw.run_addTables_cons hSlashName sql rest hNew hOccursName, hRaw]
      exact hRun
    · refine forall_mem_cons.2 ⟨fun raw' hRaw' => ?_, hRest⟩
      obtain rfl : raw = raw' := Except.ok.inj (hRaw.symm.trans hRaw')
      exact hKept name (by simp) hSlashName t raw (hw.registered_taken hSlashName hNew)
    · refine hKept other (by simp [hOther]) hSlashOther u raw' (h.taken hSlashOther ?_)
      rintro rfl
      exact hNew hOther

/-- The rows of a registered table are those of its file without what is empty. -/
theorem Registered.run_tableRows (h : Registered w name t raw) (hRead : read (write t) = .ok raw)
    (hNames : raw.names.Nodup) (hLabels : raw.labels = freshLabels raw.height) :
    run (tableRows (.text name)) w =
      (.ok (.table raw.cleaned), { w with frames := w.frames.push { table := raw.cleaned } }) := by
  obtain ⟨id, hEntry⟩ := h.entry
  have hRaw : (givenEntry id name raw).fetchRaw w.drive = .ok (some raw) := by
    simp only [fetchRaw, givenEntry, h.text, bind, Except.bind, hRead]
    rfl
  have hFetch := fetch_planned hRaw rfl hNames hLabels
  have hFind : w.catalog.find (.text name) = .ok (some (givenEntry id name raw)) :=
    congrArg Except.ok hEntry
  unfold tableRows
  rw [run_bind_ok (run_catalog w), hFind, run_bind_ok (run_lift_ok _ w)]
  rw [run_bind_ok (run_rowsOf_fetched rfl hFetch)]
  rw [run_bind_ok (run_frame _ _)]
  simp

def opened (extensions : List (String × Extension)) : Workspace where
  drive := { files := [([dir, metadataName], "\x7b\x7d")], directories := [[dir]] }
  catalog := { dir, extensions }

theorem run_register (sql : String) (tables : List (String × Table))
    (extensions : List (String × Extension)) :
    run (register sql tables extensions) blank =
      run (addTables sql tables) (opened extensions) := by
  have hOpen : run (openCatalog dir [] (Cache.fresh none) extensions) blank =
      (.ok (), opened extensions) := rfl
  exact run_bind_ok hOpen

theorem taking_opened (extensions : List (String × Extension)) : Taking (opened extensions) [] :=
  ⟨rfl, rfl, rfl, rfl, rfl, rfl, by simp [opened]⟩

end Registered

/-- A table with rows whose columns hold data of one kind and have names that a file's header keeps
apart. -/
structure GivenTable {α : Type} (data : α → Data) where
  labels : List Cell
  columns : List (String × α)
  hasRows : labels ≠ []
  even : ∀ c ∈ columns, (data c.2).length = labels.length
  distinct : (columns.map (·.1)).Nodup
  kept : ∀ c ∈ columns, KeptName c.1

namespace GivenTable

variable {α : Type} {data : α → Data} (t : GivenTable data)
def toTable : Table := ⟨t.labels, t.columns.map fun c => (c.1, data c.2)⟩

theorem rectangular : t.toTable.Rectangular := by
  intro c hc
  obtain ⟨d, hd, rfl⟩ := mem_map.1 hc
  exact t.even d hd

theorem names_toTable : t.toTable.names = t.columns.map (·.1) := by
  simp [toTable, names]

theorem keptName {n : String} (hn : n ∈ t.toTable.names) : KeptName n := by
  rw [names_toTable] at hn
  obtain ⟨c, hc, rfl⟩ := mem_map.1 hn
  exact t.kept c hc

def readColumns : List (String × Data) :=
  t.columns.map fun c => (c.1, typed
    ((commonCells (mixesNumbers t.toTable) (data c.2)).map fun x => readBack (entryText x)))

/-- Whatever its lines look like, the file of a table with columns is read as a table with these
columns. -/
theorem exists_read (hColumns : t.columns ≠ []) :
    ∃ raw, Csv.read (Csv.write t.toTable) = .ok raw ∧ raw.names = t.toTable.names ∧
      raw.labels = freshLabels raw.height ∧ raw.height = (Csv.readRows t.toTable).length := by
  have hRead := Csv.read_write (by simpa [toTable] using hColumns) (t.names_toTable ▸ t.distinct)
    fun n hn => t.keptName hn
  refine ⟨_, hRead, ?_, ?_, ?_⟩
  · simp [names, comp_def, zipIdx_map_fst]
  · simp [height]
  · simp [height]

section Lines

variable (hColumns : t.columns ≠ [])
  (hLines : ∀ i < t.labels.length, isSkipped (fieldRow t.toTable i) = false)
include hColumns hLines

theorem read_write : read (write t.toTable) = .ok ⟨freshLabels t.labels.length, t.readColumns⟩ := by
  have hRead := read_write_of_lines t.rectangular (by simpa [toTable] using hColumns)
    (t.names_toTable ▸ t.distinct) (fun n hn => t.keptName hn) hLines
  simpa [toTable, readColumns, height, comp_def] using hRead

/-- The rows of the table in a catalog, which has it by its file. -/
theorem run_tableRows {w : Workspace}
    (h : Registered w name t.toTable ⟨freshLabels t.labels.length, t.readColumns⟩) :
    run (tableRows (.text name)) w =
      (.ok (.table (cleaned ⟨freshLabels t.labels.length, t.readColumns⟩)),
        { w with
          frames :=
            w.frames.push { table := cleaned ⟨freshLabels t.labels.length, t.readColumns⟩ } }) := by
  refine h.run_tableRows (t.read_write hColumns hLines) ?_ ?_
  · simpa [names, readColumns, comp_def] using t.distinct
  · simp [height]

theorem cleaned_readColumns (hPresent : ∀ c ∈ t.readColumns, ∀ m ∈ c.2.missing, m = false) :
    cleaned ⟨freshLabels t.labels.length, t.readColumns⟩ =
      ⟨freshLabels t.labels.length, t.readColumns.map fun c => (c.1, c.2.withMarks)⟩ := by
  have hRead := asRead_of_read (t.read_write hColumns hLines)
  have hHeight : (⟨freshLabels t.labels.length, t.readColumns⟩ : Table).height =
      t.labels.length := by
    simp [height]
  rw [cleaned_of_present hRead.rectangular ?_ ?_ hPresent, hHeight]
  · rw [hHeight]
    exact length_pos_iff.2 t.hasRows
  · simpa [readColumns] using hColumns

end Lines

/-- A table that is given alone is registered. -/
theorem exists_registered (sql : String) (extensions : List (String × Extension))
    (hColumns : t.columns ≠ [])
    (hLines : ∀ i < t.labels.length, isSkipped (fieldRow t.toTable i) = false)
    (hSlash : '/' ∉ name.toList) (hOccurs : occursIn name sql = true) :
    ∃ w, run (register sql [(name, t.toTable)] extensions) blank = (.ok (), w) ∧
      Registered w name t.toTable ⟨freshLabels t.labels.length, t.readColumns⟩ := by
  have hw := taking_opened extensions
  refine ⟨_, ?_, hw.registered_taken hSlash not_mem_nil⟩
  rw [run_register, hw.run_addTables_cons hSlash sql [] not_mem_nil hOccurs,
    t.read_write hColumns hLines]
  rfl

end GivenTable

/-- A table of signed words has a column, and its numbers are words. -/
structure AreWords (t : GivenTable (ints .int64)) : Prop where
  hasColumns : t.columns ≠ []
  fits : ∀ c ∈ t.columns, ∀ n ∈ c.2, IntKind.int64.fits n = true

section Words

variable (t : GivenTable (ints .int64))

theorem mixesNumbers_words : mixesNumbers t.toTable = false := by
  simp [mixesNumbers, GivenTable.toTable, dtype]

theorem entryText_int (n : Int) : entryText (.int n) = intText n := rfl

/-- A numeral is read back as it is. -/
theorem readBack_intText (n : Int) : readBack (intText n) = intText n := by
  refine readBack_eq fun hMem => ?_
  rcases eq_or_isDigit_of_mem_intText hMem with h | h
  · cases h
  · cases h

theorem areBlank_intText (n : Int) : areBlank (intText n).toList = false := by
  obtain ⟨c, hc⟩ := exists_mem_of_ne_nil _ (toList_intText_ne_nil n)
  refine all_eq_false.2 ⟨c, hc, ?_⟩
  rcases eq_or_isDigit_of_mem_intText hc with rfl | hDigit
  · decide
  · have hBlank := isFieldBlank_of_isDigit hDigit
    rintro hc
    rcases Bool.or_eq_true_iff.1 hc with hc | hc <;> rw [eq_of_beq hc] at hBlank <;> cases hBlank

/-- No line of numerals looks empty. -/
theorem isSkipped_words (hColumns : t.columns ≠ []) (i : Nat) :
    isSkipped (fieldRow t.toTable i) = false := by
  rw [isSkipped_eq_false_iff (by simpa [fieldRow, fieldColumns, GivenTable.toTable] using hColumns)]
  intro s hs
  have hMem : s ∈ fieldRow t.toTable i := by simp [hs]
  obtain ⟨fields, hFields, rfl⟩ := mem_map.1 hMem
  obtain ⟨c, hc, rfl⟩ := mem_map.1 hFields
  obtain ⟨d, _, rfl⟩ := mem_map.1 hc
  rw [mixesNumbers_words]
  cases hField : ((commonCells false (.ints .int64 d.2)).map entryText)[i]? with
  | none => exact Or.inl rfl
  | some s =>
    obtain ⟨x, hx, rfl⟩ := mem_map.1 (mem_of_getElem? hField)
    obtain ⟨n, _, rfl⟩ := mem_map.1 hx
    exact Or.inr (areBlank_intText n)

theorem readColumns_words (hWords : AreWords t) :
    t.readColumns = t.columns.map fun c => (c.1, .ints .int64 c.2) := by
  refine map_congr_left fun c hc => ?_
  have hSome : c.2 ≠ [] := by
    intro hEmpty
    have hLength := t.even c hc
    rw [hEmpty] at hLength
    exact t.hasRows (length_eq_zero_iff.1 hLength.symm)
  have hFields : (commonCells (mixesNumbers t.toTable) (.ints .int64 c.2)).map
      (fun x => readBack (entryText x)) = c.2.map intText := by
    simp [mixesNumbers_words, commonCells, freeCells, cells, comp_def, entryText_int,
      readBack_intText]
  rw [hFields, typed_intTexts hSome (hWords.fits c hc)]

end Words

/-- Each table of signed words comes back with its names in their order, its rows numbered from
zero, and each number in its place. -/
theorem words_come_back {sql : String} {tables : List (String × Table)}
    (extensions : List (String × Extension)) (hNodup : (tables.map (·.1)).Nodup)
    (hSlash : ∀ nt ∈ tables, '/' ∉ nt.1.toList) (hOccurs : ∀ nt ∈ tables, occursIn nt.1 sql = true)
    (hRead : ∀ nt ∈ tables, (∃ t : GivenTable (Data.ints .int64), nt.2 = t.toTable ∧ AreWords t) ∨
      ∃ raw, Csv.read (Csv.write nt.2) = .ok raw) :
    ∃ w, Work.run (register sql tables extensions) blank = (.ok (), w) ∧
      ∀ (name : String) (t : GivenTable (Data.ints .int64)), (name, t.toTable) ∈ tables →
        AreWords t →
        ∃ w', Work.run (Work.tableRows (.text name)) w =
            (.ok (.table ⟨Column.freshLabels t.labels.length,
                t.columns.map fun c => (c.1, .nullableInts .int64 (c.2.map some))⟩),
              w') := by
  have hLines {t : GivenTable (ints .int64)} (hWords : AreWords t) :
      ∀ i < t.labels.length, Csv.isSkipped (Csv.fieldRow t.toTable i) = false :=
    fun i _ => isSkipped_words t hWords.hasColumns i
  have hReadable : ∀ nt ∈ tables, ∃ raw, Csv.read (Csv.write nt.2) = .ok raw := by
    intro nt hnt
    refine (hRead nt hnt).elim (fun ⟨t, ht, hWords⟩ => ?_) id
    exact ⟨_, ht ▸ t.read_write hWords.hasColumns (hLines hWords)⟩
  obtain ⟨w, hRun, hRegistered, _⟩ :=
    (taking_opened extensions).run_addTables (by simpa using hNodup) hSlash hOccurs hReadable
  refine ⟨w, (run_register sql tables extensions).trans hRun, fun name t ht hWords => ?_⟩
  have hRows := t.run_tableRows hWords.hasColumns (hLines hWords)
    (hRegistered _ ht _ (t.read_write hWords.hasColumns (hLines hWords)))
  rw [t.cleaned_readColumns hWords.hasColumns (hLines hWords), readColumns_words t hWords,
    map_map] at hRows
  · exact ⟨_, hRows⟩
  · rw [readColumns_words t hWords]
    intro c hc m hm
    obtain ⟨d, _, rfl⟩ := mem_map.1 hc
    obtain ⟨_, _, hm⟩ := mem_map.1 hm
    exact hm.symm

def extremeWords : GivenTable (ints .int64) where
  labels := [.text "b", .text "b"]
  columns := [("a", [-9223372036854775808, 9223372036854775807]), ("n_1", [0, -7])]
  hasRows := by decide
  even := by decide
  distinct := by decide
  kept := by
    intro c hc
    fin_cases hc <;> exact ⟨by decide, by decide, by decide⟩

def wordsAndTexts : List (String × Table) :=
  [("t", extremeWords.toTable), ("other", ⟨[.int 0, .int 5], [("s", .objects [.text "x", .null])]⟩)]

/-- The extreme words come back, also next to another table. -/
theorem words_come_back_extreme :
    (∀ nt ∈ wordsAndTexts, occursIn nt.1 "SELECT a FROM t, other" = true) ∧
    ∃ w w', Work.run (register "SELECT a FROM t, other" wordsAndTexts []) blank = (.ok (), w) ∧
      Work.run (Work.tableRows (.text "t")) w =
        (.ok (.table ⟨[.int 0, .int 1],
          [("a", .nullableInts .int64 [some (-9223372036854775808), some 9223372036854775807]),
           ("n_1", .nullableInts .int64 [some 0, some (-7)])]⟩), w') := by
  have hNodup : (wordsAndTexts.map (·.1)).Nodup := by decide
  have hSlash : ∀ nt ∈ wordsAndTexts, '/' ∉ nt.1.toList := by decide
  have hOccurs : ∀ nt ∈ wordsAndTexts, occursIn nt.1 "SELECT a FROM t, other" = true := by decide
  have hWords : AreWords extremeWords := ⟨by decide, by decide⟩
  have hRead : ∀ nt ∈ wordsAndTexts,
      (∃ t : GivenTable (ints .int64), nt.2 = t.toTable ∧ AreWords t) ∨
      ∃ raw, Csv.read (Csv.write nt.2) = .ok raw := by
    intro nt hnt
    fin_cases hnt
    · exact Or.inl ⟨extremeWords, rfl, hWords⟩
    · exact Or.inr ⟨_, rfl⟩
  obtain ⟨w, hRun, hRows⟩ := words_come_back [] hNodup hSlash hOccurs hRead
  obtain ⟨w', hRows⟩ := hRows "t" extremeWords (by simp [wordsAndTexts]) hWords
  exact ⟨hOccurs, w, w', hRun, hRows⟩

/-- A column of texts, which is stored as objects or in the type for texts. -/
structure TextColumn where
  texts : List String
  asObjects : Bool

def TextColumn.data (c : TextColumn) : Data :=
  if c.asObjects then .objects (c.texts.map .text) else .texts (c.texts.map some)

theorem TextColumn.cells_data (c : TextColumn) : c.data.cells = c.texts.map .text := by
  unfold data
  split <;> simp [cells, comp_def]

theorem TextColumn.length_data (c : TextColumn) : c.data.length = c.texts.length := by
  rw [← length_cells, cells_data, length_map]

theorem TextColumn.commonCells_data (c : TextColumn) (asDoubles : Bool) :
    commonCells asDoubles c.data = c.texts.map .text := by
  have hFree : commonCells asDoubles c.data = c.data.cells := by
    unfold data
    split <;> rfl
  rw [hFree, cells_data]

theorem entryText_text (s : String) : entryText (.text s) = s := rfl

/-- The texts that a file keeps: there is a column, no null character, no line that is all blank,
and the fields are texts as they stand. -/
structure AreKept (t : GivenTable TextColumn.data) : Prop where
  hasColumns : t.columns ≠ []
  noNull : ∀ c ∈ t.columns, ∀ s ∈ c.2.texts, '\x00' ∉ s.toList
  noBlankLine : ∀ c, t.columns = [c] → ∀ s ∈ c.2.texts, s = "" ∨ areBlank s.toList = false
  keptAsText : ∀ c ∈ t.columns, KeptAsText c.2.texts

/-- A table comes back from the catalog that it is put into: with its names, its height and all its
entries. -/
def ComesBack (sql name : String) (t : GivenTable TextColumn.data)
    (extensions : List (String × Extension)) : Prop :=
  ∃ w w' r, run (register sql [(name, t.toTable)] extensions) blank = (.ok (), w) ∧
    run (tableRows (.text name)) w = (.ok (.table r), w') ∧
    r.names = t.toTable.names ∧ r.height = t.toTable.height ∧
    r.columns.map (fun c => c.2.cells) = t.toTable.columns.map fun c => c.2.cells

section Texts

variable (t : GivenTable TextColumn.data)

theorem readColumns_texts :
    t.readColumns = t.columns.map fun c => (c.1, typed (c.2.texts.map readBack)) := by
  refine map_congr_left fun c hc => ?_
  simp [TextColumn.commonCells_data, comp_def, entryText_text]

theorem fieldRow_texts (i : Nat) :
    fieldRow t.toTable i = t.columns.map fun c => c.2.texts[i]?.getD "" := by
  simp only [fieldRow, fieldColumns, GivenTable.toTable, map_map]
  simp [TextColumn.commonCells_data, comp_def, entryText_text]

/-- No line counts as empty exactly if no text that has a line of its own is all blank. -/
theorem isSkipped_texts_iff (hColumns : t.columns ≠ []) :
    (∀ i < t.labels.length, isSkipped (fieldRow t.toTable i) = false) ↔
      ∀ c, t.columns = [c] → ∀ s ∈ c.2.texts, s = "" ∨ areBlank s.toList = false := by
  have hRow (i : Nat) : t.columns.map (fun c => c.2.texts[i]?.getD "") ≠ [] := by
    simpa using hColumns
  simp only [fieldRow_texts, fun i => isSkipped_eq_false_iff (hRow i)]
  constructor
  · intro h c hc s hs
    obtain ⟨i, hi, rfl⟩ := getElem_of_mem hs
    have hLength : c.2.texts.length = t.labels.length := by
      rw [← TextColumn.length_data, t.even c (by simp [hc])]
    exact h i (hLength ▸ hi) _ (by simp [hc, hi])
  · intro h i _ s hs
    obtain ⟨c, hc, rfl⟩ := map_eq_singleton_iff.1 hs
    cases hField : c.2.texts[i]? with
    | none => exact Or.inl rfl
    | some s => exact h c hc s (mem_of_getElem? hField)

theorem texts_ne_nil {c : String × TextColumn} (hc : c ∈ t.columns) : c.2.texts ≠ [] := by
  intro hEmpty
  have hLength := t.even c hc
  rw [TextColumn.length_data, hEmpty] at hLength
  exact t.hasRows (length_eq_zero_iff.1 hLength.symm)

/-- The columns that are read hold the texts exactly if these are kept. -/
theorem cells_readColumns_iff :
    t.readColumns.map (fun c => c.2.withMarks.cells) = t.toTable.columns.map (fun c => c.2.cells) ↔
      (∀ c ∈ t.columns, ∀ s ∈ c.2.texts, '\x00' ∉ s.toList) ∧
      ∀ c ∈ t.columns, KeptAsText c.2.texts := by
  have hColumn : ∀ c ∈ t.columns,
      (typed (c.2.texts.map readBack)).withMarks.cells = c.2.texts.map .text ↔
        (∀ s ∈ c.2.texts, '\x00' ∉ s.toList) ∧ KeptAsText c.2.texts := by
    intro c hc
    have hSame : c.2.texts.map readBack = c.2.texts ↔ ∀ s ∈ c.2.texts, '\x00' ∉ s.toList := by
      rw [← forall₂_congr fun s _ => readBack_eq_self_iff]
      refine Iff.trans ?_ (map_inj_left (f := readBack) (g := id))
      rw [map_id]
    rw [cells_withMarks_typed_iff (by simpa using texts_ne_nil t hc), ← hSame]
    exact and_congr_right fun h => by rw [h]
  simp only [readColumns_texts, GivenTable.toTable, map_map, map_inj_left, comp_apply,
    TextColumn.cells_data]
  rw [forall₂_congr hColumn]
  exact forall₂_and

end Texts

def trickyTexts : GivenTable TextColumn.data where
  labels := [.text "x", .text "x", .int 7]
  columns := [("s", ⟨["a,b\"c\"\r\n", " NA ", "007"], true⟩),
    ("Ü n", ⟨["True", "no", "  "], false⟩)]
  hasRows := by decide
  even := by decide
  distinct := by decide
  kept := by
    intro c hc
    fin_cases hc <;> exact ⟨by decide, by decide, by decide⟩

def paddedTexts : GivenTable TextColumn.data where
  labels := Column.freshLabels 2
  columns := [("v", ⟨["01", "02"], true⟩)]
  hasRows := by decide
  even := by decide
  distinct := by decide
  kept := by
    intro c hc
    fin_cases hc
    exact ⟨by decide, by decide, by decide⟩

end Adhoc

end TableQuery
