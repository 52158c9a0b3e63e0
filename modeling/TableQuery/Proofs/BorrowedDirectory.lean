import TableQuery.Proofs.GivenTables
import TableQuery.Proofs.TableKeys

/-! The directory that a query over given tables borrows. All that is written goes into that
directory, so when it is taken away the drive is as it was. -/
namespace TableQuery

open List Work Drive Adhoc

namespace Drive

variable {p path : Path} {d : Drive}

theorem mem_ancestors_iff : p ∈ ancestors path ↔ p ≠ [] ∧ p <+: path := by
  constructor
  · intro h
    obtain ⟨i, hi, rfl⟩ := mem_map.1 h
    rw [mem_range] at hi
    refine ⟨?_, take_prefix _ _⟩
    rw [ne_eq, take_eq_nil_iff, not_or]
    exact ⟨by omega, ne_nil_of_length_pos (by omega)⟩
  · rintro ⟨hNonempty, hPrefix⟩
    have hLength := length_pos_of_ne_nil hNonempty
    refine mem_map.2 ⟨p.length - 1, mem_range.2 ?_, ?_⟩
    · have := hPrefix.length_le
      omega
    · rw [Nat.sub_add_cancel hLength]
      exact (prefix_iff_eq_take.1 hPrefix).symm

theorem ancestors_concat (path : Path) (name : String) :
    ancestors (path ++ [name]) = ancestors path ++ [path ++ [name]] := by
  unfold ancestors
  rw [length_append, length_singleton, range_succ, map_append, map_singleton,
    take_of_length_le (by simp)]
  congr 1
  refine map_congr_left fun i hi => ?_
  rw [mem_range] at hi
  exact take_append_of_le_length (by omega)

/-- A drive as there can be one: what is above a file or a directory is a directory, and so is what
is locked, and no file is one. -/
structure WellFormed (d : Drive) : Prop where
  files : ∀ f ∈ d.files, d.isDirectory f.1 = false ∧ ∀ p ∈ ancestors f.1.dropLast,
    d.isDirectory p = true
  directories : ∀ q ∈ d.directories, ∀ p ∈ ancestors q, d.isDirectory p = true
  locked : ∀ p ∈ d.locked, d.isDirectory p = true

/-- There is nothing at a path nor below it, and a directory can be made there. -/
structure HasRoom (d : Drive) (path : Path) : Prop where
  nonempty : path ≠ []
  files : ∀ f ∈ d.files, path.isPrefixOf f.1 = false
  directories : ∀ p ∈ d.directories, path.isPrefixOf p = false
  noFileAbove : ((ancestors path).any fun p => (d.file? p).isSome) = false
  above : ∀ p ∈ ancestors path.dropLast, d.isDirectory p = true
  unlocked : d.locked.contains path = false

theorem file?_ne_none {f : Path × String} (hf : f ∈ d.files) : d.file? f.1 ≠ none := by
  intro hNone
  have hNe := lookup_eq_none_iff.1 hNone f hf
  simp at hNe

/-- On a drive as there can be one, a path with nothing at it has nothing below it. -/
theorem WellFormed.hasRoom (hDrive : d.WellFormed) (hAbsent : d.holds path = false)
    (hParent : d.isDirectory path.dropLast = true) : d.HasRoom path := by
  rw [holds, Bool.or_eq_false_iff] at hAbsent
  obtain ⟨hNoDirectory, hNoFile⟩ := hAbsent
  rw [Option.isSome_eq_false_iff, Option.isNone_iff_eq_none] at hNoFile
  have hNonempty : path ≠ [] := by
    rintro rfl
    cases hNoDirectory
  have hAbove : ∀ p ∈ ancestors path.dropLast, d.isDirectory p = true := by
    intro p hp
    rw [isDirectory, Bool.or_eq_true, contains_iff_mem] at hParent
    rcases hParent with hRoot | hMem
    · rw [List.isEmpty_iff] at hRoot
      rw [hRoot] at hp
      cases hp
    · exact hDrive.directories _ hMem p hp
  have hUnlocked : d.locked.contains path = false := Bool.eq_false_iff.2 fun hMem => by
    rw [hDrive.locked path (contains_iff_mem.1 hMem)] at hNoDirectory
    cases hNoDirectory
  refine ⟨hNonempty, fun f hf => ?_, fun q hq => ?_, ?_, hAbove, hUnlocked⟩
  · rw [← Bool.not_eq_true, isPrefixOf_iff_prefix]
    intro hPrefix
    by_cases hSame : path = f.1
    · exact file?_ne_none hf (hSame ▸ hNoFile)
    · have hBelow : path <+: f.1.dropLast := by
        have hLength := hPrefix.length_le.lt_of_ne fun hEq => hSame (hPrefix.eq_of_length hEq)
        rw [prefix_iff_eq_take, dropLast_eq_take, take_take, min_eq_left (by omega)]
        exact prefix_iff_eq_take.1 hPrefix
      have hMade := (hDrive.files f hf).2 path (mem_ancestors_iff.2 ⟨hNonempty, hBelow⟩)
      rw [hNoDirectory] at hMade
      cases hMade
  · rw [← Bool.not_eq_true, isPrefixOf_iff_prefix]
    intro hPrefix
    have hMade := hDrive.directories q hq path (mem_ancestors_iff.2 ⟨hNonempty, hPrefix⟩)
    rw [hNoDirectory] at hMade
    cases hMade
  · rw [any_eq_false]
    intro p hp
    rw [← dropLast_append_getLast hNonempty, ancestors_concat, mem_append, mem_singleton,
      dropLast_append_getLast] at hp
    rw [Option.not_isSome_iff_eq_none]
    rcases hp with hp | rfl
    · by_contra hFile
      obtain ⟨text, hText⟩ := Option.ne_none_iff_exists'.1 hFile
      obtain ⟨before, after, hFiles, _⟩ := lookup_eq_some_iff.1 hText
      have hMade := hAbove _ hp
      rw [(hDrive.files (p, text) (by simp [hFiles])).1] at hMade
      cases hMade
    · exact hNoFile

section Room

variable (hRoom : d.HasRoom path)
include hRoom

theorem HasRoom.isDirectory_eq : d.isDirectory path = false := by
  rw [isDirectory, Bool.or_eq_false_iff, isEmpty_eq_false_iff]
  refine ⟨hRoom.nonempty, Bool.eq_false_iff.2 fun hMem => ?_⟩
  have hPrefix := hRoom.directories path (contains_iff_mem.1 hMem)
  rw [← Bool.not_eq_true, isPrefixOf_iff_prefix] at hPrefix
  exact hPrefix prefix_rfl

theorem HasRoom.holds_eq : d.holds path = false := by
  have hFile := any_eq_false.1 hRoom.noFileAbove path (mem_ancestors_self hRoom.nonempty)
  rw [holds, hRoom.isDirectory_eq, Bool.eq_false_iff]
  exact hFile

/-- Making the directory adds it alone. -/
theorem HasRoom.makeDirectories {dir : String} (hDir : Path.ofString? dir = some path) :
    d.makeDirectories dir = .ok { d with directories := d.directories ++ [path] } := by
  have hAdded : (ancestors path).filter (fun p => !d.isDirectory p) = [path] := by
    rw [← dropLast_append_getLast hRoom.nonempty, ancestors_concat, filter_append,
      filter_eq_nil_iff.2 (by simpa using hRoom.above), dropLast_append_getLast]
    simp [hRoom.isDirectory_eq]
  simp only [Drive.makeDirectories, hDir, hRoom.noFileAbove, Bool.false_eq_true, if_false, hAdded]

end Room

/-- Writing below a path leaves the files elsewhere. -/
theorem filter_setFile (h : path.isPrefixOf p = true) (files : List (Path × String))
    (text : String) :
    (setFile files p text).filter (fun f => !path.isPrefixOf f.1) =
      files.filter fun f => !path.isPrefixOf f.1 := by
  induction files with
  | nil => simp [setFile, h]
  | cons f rest ih =>
    by_cases hSame : f.1 = p
    · rw [setFile, if_pos (by simpa using hSame), filter_cons, filter_cons, hSame]
      simp [h]
    · rw [setFile, if_neg (by simpa using hSame), filter_cons, filter_cons, ih]

end Drive

namespace Work

variable {α : Type}
variable {w w' : Workspace}

/-- A handler acts where the step that it guards fails, and nowhere else. -/
theorem run_tryCatch {x : Work α} {r : Except Fault α} (h : run x w = (r, w'))
    (handle : Fault → Work α) :
    run (tryCatch x handle) w =
      match r with
      | .ok a => (.ok a, w')
      | .error f => run (handle f) w' := by
  have hRun : StateT.run x w = (r, w') := h
  change StateT.run (ExceptT.tryCatch x handle) w = _
  unfold ExceptT.tryCatch ExceptT.mk
  rw [StateT.run_bind, hRun]
  cases r <;> rfl

/-- A last step that succeeds leaves the outcome of what it follows. -/
theorem run_tryFinally {x : Work α} {y : Work Unit} {w'' : Workspace} {r : Except Fault α}
    (hx : run x w = (r, w')) (hy : run y w' = (.ok (), w'')) :
    run (tryFinally x y) w = (r, w'') := by
  have hFirst : x w = (r, w') := hx
  have hThen : y w' = (.ok (), w'') := hy
  unfold run
  cases r
  all_goals simp only [tryFinally, tryFinally', Functor.map, ExceptT.run, ExceptT.map, ExceptT.mk,
    StateT.run, bind, StateT.bind, pure, StateT.pure, hFirst, hThen]

end Work

/-- The directory is there in addition, and without what is in it all files are those of the drive.
-/
structure Workspace.Borrows (d : Drive) (dir : String) (path : Path) (w : Workspace) : Prop where
  dir_eq : w.catalog.dir = dir
  files : w.drive.files.filter (fun f => !path.isPrefixOf f.1) = d.files
  directories : w.drive.directories = d.directories ++ [path]
  others : { w.drive with files := d.files, directories := d.directories } = d

namespace Work

open Workspace

theorem ignoresQueries_borrows (d : Drive) (dir : String) (path : Path) :
    IgnoresQueries (Borrows d dir path) where
  frames _ h := ⟨h.dir_eq, h.files, h.directories, h.others⟩
  cache _ h := ⟨h.dir_eq, h.files, h.directories, h.others⟩
  scope _ h := ⟨h.dir_eq, h.files, h.directories, h.others⟩

section Borrowing

variable {d : Drive} {dir : String} {path : Path} (hDir : Path.ofString? dir = some path)
variable {w : Workspace}
include hDir

/-- Writing a file into the directory. -/
theorem borrows_write (hw : Borrows d dir path w) {file : String} (hSlash : '/' ∉ file.toList)
    (hName : file ∉ ["", ".", ".."]) {text : String} {d' : Drive}
    (hWrite : w.drive.write (Path.join dir file) text = .ok d') :
    Borrows d dir path { w with drive := d' } := by
  obtain ⟨p, hAccepts, rfl⟩ := accepts_of_write hWrite
  obtain rfl :=
    Option.some.inj (hAccepts.path_eq.symm.trans (Path.ofString?_join hSlash hDir hName))
  refine ⟨hw.dir_eq, ?_, hw.directories, hw.others⟩
  exact (filter_setFile (List.isPrefixOf_iff_prefix.2 (prefix_append _ _)) _ _).trans hw.files

theorem ofString?_metadataPath :
    Path.ofString? (metadataPath dir) = some (path ++ [metadataName]) :=
  Path.ofString?_join (by decide) hDir (by decide)

theorem pathExists_borrowed (hw : Borrows d dir path w) : w.drive.pathExists dir = true := by
  simp [pathExists, hDir, holds, isDirectory, hw.directories]

theorem borrows_saveMetadata : Maintains (Borrows d dir path) (saveMetadata true) := by
  intro w hw
  unfold saveMetadata
  rw [run_bind_ok (run_catalog w), hw.dir_eq,
    run_bind_ok (run_ensureDirectory (pathExists_borrowed hDir hw)), run_bind_ok (run_drive w)]
  dsimp only
  split
  · exact hw
  · have hWrite (text : String) : Maintains (Borrows d dir path)
        (drive >>= fun d => lift (d.write (metadataPath dir) text) >>= setDrive) := by
      intro v hv
      rw [run_bind_ok (run_drive v)]
      cases hWritten : v.drive.write (metadataPath dir) text with
      | error f => exact hv
      | ok d' => exact borrows_write hDir hv (by decide) (by decide) hWritten
    cases hEmpty : w.drive.write (metadataPath dir) "" with
    | error f => exact hw
    | ok d' =>
      have hEmptied := borrows_write hDir hw (by decide) (by decide) hEmpty
      exact ((maintains_lift w.catalog.dump).bind fun text => hWrite text) _ hEmptied

theorem borrows_addFile (file : String) (clean : Bool) :
    Maintains (Borrows d dir path) (addFile file clean) :=
  maintains_drive.bind fun _ => (maintains_lift _).bind fun _ => maintains_addEntry_of fun _ hw _ =>
    borrows_saveMetadata hDir _ ⟨hw.dir_eq, hw.files, hw.directories, hw.others⟩

/-- Whatever a statement is, it writes into the directory only. -/
theorem borrows_query (sql : String) : Maintains (Borrows d dir path) (query sql) :=
  maintains_query_of (borrows_addFile hDir) (ignoresQueries_borrows d dir path).outlasts (fun _ =>
    maintains_dropEntry_of fun _ hw => borrows_saveMetadata hDir _
      ⟨hw.dir_eq, hw.files, hw.directories, hw.others⟩) sql

/-- The files of given tables are written into the directory. -/
theorem borrows_addTablesIn (sql : String) {tables : List (String × Table)}
    (hSlash : ∀ t ∈ tables, '/' ∉ t.1.toList) :
    Maintains (Borrows d dir path) (addTablesIn dir sql tables) := by
  induction tables with
  | nil => exact maintains_pure _
  | cons t rest ih =>
    intro w hw
    obtain ⟨hHere, hSlash⟩ := forall_mem_cons.1 hSlash
    rw [addTablesIn]
    split
    · exact hw
    · rw [run_bind_ok (run_drive w)]
      cases hWrite : w.drive.write (Path.join dir (t.1 ++ ".csv")) (Csv.write t.2) with
      | error f => exact hw
      | ok d' =>
        have hWritten := borrows_write hDir hw (by simpa using hHere) (csv_not_mem t.1) hWrite
        rw [run_bind_ok (run_setDrive d' w)]
        exact ((borrows_addFile hDir _ true).bind fun _ => ih hSlash) _ hWritten

/-- Opening the catalog makes the directory and writes into it only. -/
theorem borrows_openCatalog (hRoom : d.HasRoom path) (cache : Cache Relation)
    (extensions : List (String × Extension)) :
    Borrows d dir path (run (openCatalog dir [] cache extensions) (blankOn d dir)).2 := by
  have hMissing : d.pathExists dir = false := by
    rw [pathExists, hDir, Option.any_some, hRoom.holds_eq]
  have hMade : run (ensureDirectory dir) (blankOn d dir) =
      (.ok (), blankOn { d with directories := d.directories ++ [path] } dir) := by
    change run
      (if !d.pathExists dir then (do setDrive (← lift (d.makeDirectories dir))) else pure ()) _ = _
    rw [hMissing, hRoom.makeDirectories hDir]
    rfl
  have hBorrows : Borrows d dir path
      (blankOn { d with directories := d.directories ++ [path] } dir) := by
    refine ⟨rfl, filter_eq_self.2 fun f hf => ?_, rfl, rfl⟩
    rw [hRoom.files f hf]
    rfl
  unfold openCatalog
  rw [run_bind_ok hMade]
  rw [run_bind_ok (run_drive _)]
  cases hCatalog : catalogOf _ dir [] with
  | error f => exact hBorrows
  | ok c =>
    obtain ⟨_, _, _, _, _, hDirEq, _⟩ := catalogOf_eq_ok hCatalog
    rw [run_bind_ok (run_lift_ok c _), run_bind_ok (run_setCatalog _ _)]
    refine ((borrows_saveMetadata hDir).bind fun _ => ?_) _
      ⟨hDirEq, hBorrows.files, hBorrows.directories, hBorrows.others⟩
    exact fun _ hw => ⟨hw.dir_eq, hw.files, hw.directories, hw.others⟩

/-- Taking the metadata away does not fail. -/
theorem borrows_clearMetadata (hRoom : d.HasRoom path) (hw : Borrows d dir path w) :
    ∃ w', run (clearMetadata dir) w = (.ok (), w') ∧ Borrows d dir path w' := by
  have hPath := ofString?_metadataPath hDir
  have hNotDirectory : w.drive.isDirectory (path ++ [metadataName]) = false := by
    rw [isDirectory, hw.directories, Bool.or_eq_false_iff]
    refine ⟨by simp, Bool.eq_false_iff.2 fun hMem => ?_⟩
    rcases mem_append.1 (contains_iff_mem.1 hMem) with hOld | hOwn
    · have hBelow := hRoom.directories _ hOld
      rw [List.isPrefixOf_iff_prefix.2 (prefix_append _ _)] at hBelow
      cases hBelow
    · simp at hOwn
  unfold clearMetadata
  rw [run_bind_ok (run_drive w)]
  split
  · rename_i hExists
    rw [pathExists, hPath, Option.any_some, holds, hNotDirectory, Bool.false_or] at hExists
    have hRemove : w.drive.remove (metadataPath dir) =
        .ok { w.drive with
          files := w.drive.files.filter fun f => f.1 != path ++ [metadataName] } := by
      have hUnlocked : w.drive.locked.contains (path ++ [metadataName]).dropLast = false := by
        rw [dropLast_concat, congrArg Drive.locked hw.others, hRoom.unlocked]
      simp only [remove, hPath, hExists, hUnlocked, if_true, Bool.false_eq_true, if_false]
    rw [hRemove]
    refine ⟨_, rfl, hw.dir_eq, ?_, hw.directories, hw.others⟩
    rw [← hw.files, filter_filter]
    refine filter_congr fun f _ => ?_
    by_cases hSame : f.1 = path ++ [metadataName]
    · simp [hSame]
    · simp [hSame]
  · exact ⟨w, rfl, hw⟩

/-- Taking the directory away gives the drive back. -/
theorem run_discard (hRoom : d.HasRoom path) (hw : Borrows d dir path w) :
    run (discard dir) w = (.ok (), { w with drive := d }) := by
  have hDirectory : w.drive.isDirectory path = true := by simp [isDirectory, hw.directories]
  have hOthers : (d.directories ++ [path]).filter (fun p => !path.isPrefixOf p) =
      d.directories := by
    rw [filter_append, filter_eq_self.2 fun p hp => by rw [hRoom.directories p hp]; rfl]
    simp
  have hRemoved : w.drive.removeDirectory dir = .ok d := by
    simp only [removeDirectory, hDir, hDirectory, if_true, hw.files, hw.directories, hOthers]
    rw [hw.others]
  unfold Adhoc.discard
  rw [run_bind_ok (run_drive w), hRemoved]
  rfl

end Borrowing

end Work

namespace Adhoc

open Workspace

variable {tables given : List (String × Table)}

/-- A query over tables in a borrowed directory has the answer that it has otherwise, and leaves the
drive. -/
theorem run_answerIn {d : Drive} {dir : String} {path : Path}
    (hDir : Path.ofString? dir = some path) (hRoom : d.HasRoom path) (sql : String)
    (hSlash : ∀ t ∈ tables, '/' ∉ t.1.toList) (extensions : List (String × Extension)) :
    ∃ w,
      run (answerIn dir sql tables extensions) (blankOn d dir) =
        ((Work.run (registerIn dir sql tables extensions >>= fun _ => Work.query sql)
            (blankOn d dir)).1,
          w) ∧
      w.drive = d := by
  have hOpened := borrows_openCatalog hDir hRoom (Cache.fresh none) extensions
  unfold answerIn registerIn
  rw [bind_assoc]
  rcases hOpen : run (openCatalog dir [] (Cache.fresh none) extensions) (blankOn d dir) with
    ⟨f | _, w₁⟩
  all_goals rw [hOpen] at hOpened
  · have hHandled : run (discard dir >>= fun _ => (throw f : Work Unit)) w₁ =
        (.error f, { w₁ with drive := d }) := by
      rw [run_bind_ok (run_discard hDir hRoom hOpened)]
      rfl
    rw [run_bind_error ((run_tryCatch hOpen _).trans hHandled), run_bind_error hOpen]
    exact ⟨_, rfl, rfl⟩
  · rw [run_bind_ok (run_tryCatch hOpen _), run_bind_ok hOpen]
    have hAnswered :=
      ((borrows_addTablesIn hDir sql hSlash).bind fun _ => borrows_query hDir sql) w₁ hOpened
    rcases hAnswer : Work.run (addTablesIn dir sql tables >>= fun _ => Work.query sql) w₁ with
      ⟨r, w₂⟩
    rw [hAnswer] at hAnswered
    obtain ⟨w₃, hCleared, hBorrows⟩ := borrows_clearMetadata hDir hRoom hAnswered
    have hLast : run (clearMetadata dir >>= fun _ => discard dir) w₂ =
        (.ok (), { w₃ with drive := d }) := by
      rw [run_bind_ok hCleared, run_discard hDir hRoom hBorrows]
    exact ⟨_, run_tryFinally hAnswer hLast, rfl⟩

theorem names_foldl_setNamed {S : Set String} (hTables : ∀ t ∈ tables, t.1 ∈ S)
    (hGiven : ∀ t ∈ given, t.1 ∈ S) :
    ∀ t ∈ tables.foldl (fun all t => setNamed all t.1 t.2) given, t.1 ∈ S := by
  induction tables generalizing given with
  | nil => exact hGiven
  | cons t rest ih =>
    obtain ⟨hHere, hRest⟩ := forall_mem_cons.1 hTables
    exact ih hRest (names_setNamed hGiven hHere t.2)

/-- The tables that a query takes are named as those that are given. -/
theorem names_of_accept (h : accept tables = .ok given) : ∀ t ∈ given, t.1 ∈ tables.map (·.1) := by
  have hFold : tables.foldl (fun all t => setNamed all t.1 t.2) [] = given := by
    unfold accept at h
    dsimp only at h
    split at h
    · cases h
    · split at h
      · cases h
      · exact Except.ok.inj h
  rw [← hFold]
  exact names_foldl_setNamed (S := {name | name ∈ tables.map (·.1)}) (fun t ht => mem_map_of_mem ht)
    fun t ht => absurd ht not_mem_nil

/-- A query over given tables leaves the drive as it was, whether it ends with an answer or with a
fault, if there was nothing at the path that it borrows. -/
theorem query_leaves_drive {d : Drive} (hDrive : d.WellFormed) {dir : String} {path : Path}
    (hDir : Path.ofString? dir = some path) (hParent : d.isDirectory path.dropLast = true)
    (hAbsent : d.pathExists dir = false) (sql : String) {tables : List (String × Table)}
    (hSlash : ∀ t ∈ tables, '/' ∉ t.1.toList) (extensions : List (String × Extension)) :
    (queryOn d dir sql tables extensions).2 = d ∧
      (queryOn d dir sql tables extensions).1 = (do
        let given ← accept tables
        (Work.run (registerIn dir sql given extensions >>= fun _ => Work.query sql)
          (blankOn d dir)).1) := by
  rw [pathExists, hDir, Option.any_some] at hAbsent
  have hRoom := hDrive.hasRoom hAbsent hParent
  unfold queryOn
  cases hGiven : accept tables with
  | error f => exact ⟨rfl, rfl⟩
  | ok given =>
    have hSlash : ∀ t ∈ given, '/' ∉ t.1.toList := by
      intro t ht
      obtain ⟨named, hNamed, hName⟩ := mem_map.1 (names_of_accept hGiven t ht)
      exact hName ▸ hSlash named hNamed
    obtain ⟨w, hRun, hLeft⟩ := run_answerIn hDir hRoom sql hSlash extensions
    dsimp only
    rw [hRun]
    exact ⟨hLeft, rfl⟩

def passingDrive : Drive := { files := [(["tmp", "kept.csv"], "v\n1\n")], directories := [["tmp"]] }

theorem wellFormed_passingDrive : passingDrive.WellFormed := by
  constructor
  · intro f hf
    rw [mem_singleton.1 hf]
    exact ⟨rfl, by simp [ancestors, passingDrive, isDirectory]⟩
  · intro q hq
    rw [mem_singleton.1 hq]
    simp [ancestors, passingDrive, isDirectory]
  · simp [passingDrive]

/-- A statement that drops the one table that is given, and then a text that is none. -/
theorem query_leaves_drive_passing :
    passingDrive.pathExists "tmp/q" = false ∧
    (queryOn passingDrive "tmp/q" "DROP TABLE t" [("t", ⟨[.int 0], [("v", .ints .int64 [1])]⟩)]
      []).2 = passingDrive ∧
    (queryOn passingDrive "tmp/q" "SELECT t FROM" [("t", ⟨[.int 0], [("v", .ints .int64 [1])]⟩)]
      []).2 = passingDrive := by
  have hAbsent : passingDrive.pathExists "tmp/q" = false := rfl
  have hDir : Path.ofString? "tmp/q" = some ["tmp", "q"] := rfl
  exact ⟨hAbsent, (query_leaves_drive wellFormed_passingDrive hDir rfl hAbsent _ (by simp) []).1,
    (query_leaves_drive wellFormed_passingDrive hDir rfl hAbsent _ (by simp) []).1⟩

end Adhoc

end TableQuery
