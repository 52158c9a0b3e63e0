import TableQuery.Proofs.Metadata

/-! Changes of a catalog that fail. A change that is refused leaves all as it was. A change that is
made but cannot be saved stays in the catalog, and the metadata file is empty if some table has no
text. -/
namespace TableQuery

open Work

namespace Work

open Workspace

variable {α β : Type}
variable {w : Workspace}
variable {f : Fault}

/-- The metadata file of a catalog was emptied, and nothing else was written. -/
def Emptied (w w' : Workspace) : Prop :=
  ∃ path, Path.ofString? (metadataPath w.catalog.dir) = some path ∧
    w'.drive.files = Drive.setFile w.drive.files path ""

/-- The metadata file was emptied for some entries, one of which has no text. -/
def EmptiedFor (entries : List (Document × Entry)) (w w' : Workspace) : Prop :=
  Emptied w w' ∧ ∃ e ∈ entries, e.2.unwritable? ≠ none

/-- What a step that failed left. Entries that were planned are there, but not saved. Where the
metadata file can be written, it is empty then. -/
structure Leaves (planned : Option (List (Document × Entry))) (w w' : Workspace) : Prop where
  entries : w'.catalog.entries = planned.getD w.catalog.entries
  files : w'.drive.files = w.drive.files ∨ ∃ entries ∈ planned, EmptiedFor entries w w'
  emptied : w.drive.TakesMetadata w.catalog.dir → ∀ entries ∈ planned, EmptiedFor entries w w'

def FailsWith (planned : Option (List (Document × Entry))) (x : Work α) (w : Workspace) : Prop :=
  ∀ f w', Work.run x w = (.error f, w') → Leaves planned w w'

theorem failsWith_of_maintains {x : Work α}
    (h : Maintains (fun w' => w'.drive = w.drive ∧ w'.catalog.entries = w.catalog.entries) x) :
    FailsWith none x w := by
  intro f w' hRun
  have hSame := h w ⟨rfl, rfl⟩
  rw [hRun] at hSame
  exact ⟨hSame.2, .inl (congrArg Drive.files hSame.1), by simp⟩

/-- What follows a change and cannot fail does not matter. -/
theorem FailsWith.bind_pure {planned : Option (List (Document × Entry))} {x : Work α}
    (h : FailsWith planned x w) (g : α → β) : FailsWith planned (do return g (← x)) w := by
  intro f w' hRun
  rw [run_bind] at hRun
  split at hRun
  · cases hRun
  · rename_i hFailed
    cases hRun
    exact h f w' hFailed

/-- Entries that could not be saved stay. -/
theorem failsWith_saveMetadata {w₁ : Workspace} {x : Work Unit}
    (hx : run x w = run (saveMetadata true) w₁) (hDrive : w₁.drive = w.drive)
    (hDir : w₁.catalog.dir = w.catalog.dir) : FailsWith (some w₁.catalog.entries) x w := by
  intro f w' hRun
  rw [hx] at hRun
  obtain ⟨drive, frames, catalog⟩ := w
  obtain rfl : w₁.drive = drive := hDrive
  have hEmptied {d : Drive} {path : Path} {g : Fault} (hFiles : d.files = w₁.drive.files)
      (hAccepts : d.Accepts (metadataPath w₁.catalog.dir) path)
      (hDump : w₁.catalog.dump = .error g) :
      EmptiedFor w₁.catalog.entries ⟨w₁.drive, frames, catalog⟩
        { w₁ with drive := d.put path "" } := by
    obtain ⟨e, he, hUnwritable⟩ := dump_eq_error hDump
    refine ⟨⟨path, hDir ▸ hAccepts.path_eq, ?_⟩, e, he, by simp [hUnwritable]⟩
    rw [← hFiles]
    rfl
  refine ⟨?_, ?_, fun hTakes entries hEntries => ?_⟩
  · rw [← congrArg (fun r => r.2.catalog) hRun, catalog_saveMetadata]
    rfl
  · obtain ⟨g, d, hSaved, hFiles⟩ | ⟨d, path, hFiles, hAccepts, ⟨g, hDump, hSaved⟩ | ⟨hSaved, -⟩⟩ :=
      run_saveMetadata_cases w₁
    all_goals cases hSaved.symm.trans hRun
    · exact .inl hFiles
    · exact .inr ⟨_, rfl, hEmptied hFiles hAccepts hDump⟩
  · cases hEntries
    rw [← hDir] at hTakes
    obtain ⟨path, hAccepts⟩ := hTakes.accepts
    obtain ⟨g, hDump⟩ | ⟨-, hDump⟩ := dump_cases w₁.catalog
    · rw [run_saveMetadata_empty hTakes.dirExists hTakes.writable hAccepts hDump] at hRun
      cases hRun
      exact hEmptied rfl hAccepts hDump
    · rw [run_saveMetadata_put hTakes.dirExists hTakes.writable hAccepts hDump] at hRun
      cases hRun

/-- A step that is refused leaves all as it was. -/
theorem failsWith_none {x : Work α} (h : run x w = (.error f, w)) : FailsWith none x w := by
  intro g w' hRun
  rw [h] at hRun
  cases hRun
  exact ⟨rfl, .inl rfl, by simp⟩

end Work

/-- The entries with one more; none if its name is taken or cannot be looked up. -/
def Workspace.entriesWith? (w : Workspace) (e : Entry) : Option (List (Document × Entry)) :=
  match w.catalog.find e.name with
  | .ok none => some (w.withEntry e).catalog.entries
  | _ => none

/-- The entries without that of a key; none if there is no such entry. -/
def Workspace.entriesWithout? (w : Workspace) (key : Document) : Option (List (Document × Entry)) :=
  match w.catalog.find key with
  | .ok (some _) => some (w.withoutEntry key).catalog.entries
  | _ => none

namespace Work

open Workspace

variable {entries : List (Document × Entry)} {w : Workspace}

theorem failsWith_addEntry (e : Entry) (w : Workspace) :
    FailsWith (w.entriesWith? e) (addEntry e) w := by
  unfold entriesWith?
  obtain ⟨hFind, hRun⟩ | ⟨hTaken, f, hRun⟩ := run_addEntry_cases e w
  · rw [hFind]
    exact failsWith_saveMetadata hRun rfl rfl
  · split
    · rename_i hFind
      exact absurd hFind hTaken
    · exact failsWith_none hRun

theorem failsWith_dropEntry (key : Document) (w : Workspace) :
    FailsWith (w.entriesWithout? key) (dropEntry key) w := by
  unfold entriesWithout?
  obtain ⟨old, hFind, hRun⟩ | ⟨hMissing, f, hRun⟩ := run_dropEntry_cases key w
  · rw [hFind]
    exact failsWith_saveMetadata hRun rfl rfl
  · split
    · rename_i hFind
      exact absurd hFind (hMissing _)
    · exact failsWith_none hRun

theorem failsWith_addFile (path : String) (clean : Bool) (w : Workspace) :
    FailsWith ((Entry.ofFile 0 w.drive path clean).toOption.bind w.entriesWith?)
      (addFile path clean) w := by
  intro f w' hRun
  rw [run_addFile] at hRun
  cases hFile : Entry.ofFile 0 w.drive path clean with
  | error g =>
    rw [hFile] at hRun
    exact failsWith_none rfl f w' hRun
  | ok e =>
    rw [hFile] at hRun
    exact failsWith_addEntry e w f w' hRun

/-- The calls that change the tables of a catalog, if they do not fail. A statement that is no
command changes none. -/
inductive Change where
  | addTable (e : Entry)
  | addFile (path : String) (clean : Bool)
  | dropTable (key : Document)
  | command (c : Command)
  | statement (sql : String)

def Change.work : Change → Work Unit
  | .addTable e => Work.addEntry e
  | .addFile path clean => Work.addFile path clean
  | .dropTable key => dropEntry key
  | .command c => do let _ ← execute c
  | .statement sql => do let _ ← query sql

def plannedBy (w : Workspace) (c : Command) : Option (List (Document × Entry)) :=
  match c.kind, c.args.getD [] with
  | .createTable, .text path :: .bool clean :: _ =>
    (Entry.ofFile 0 w.drive path clean).toOption.bind w.entriesWith?
  | .dropTable, .text name :: _ => w.entriesWithout? (.text name)
  | _, _ => none

/-- A text that is no command changes nothing. -/
def plannedByText (w : Workspace) (sql : String) : Option (List (Document × Entry)) :=
  (Command.read sql).toOption.join.bind (plannedBy w)

/-- The entries that a change makes, if it is not refused. -/
def Change.planned (w : Workspace) : Change → Option (List (Document × Entry))
  | .addTable e => w.entriesWith? e
  | .addFile path clean => (Entry.ofFile 0 w.drive path clean).toOption.bind w.entriesWith?
  | .dropTable key => w.entriesWithout? key
  | .command c => plannedBy w c
  | .statement sql => plannedByText w sql

theorem failsWith_execute (c : Command) (w : Workspace) :
    FailsWith (plannedBy w c) (execute c) w := by
  unfold execute plannedBy
  split
  · rename_i path clean _ hKind hArgs
    simp only [hKind, hArgs]
    exact (failsWith_addFile path clean w).bind_pure _
  · rename_i name _ hKind hArgs
    simp only [hKind, hArgs]
    exact (failsWith_dropEntry (.text name) w).bind_pure _
  · rename_i hCreate hDrop
    split
    · exact failsWith_of_maintains (maintains_pure _)
    · rename_i hKind hArgs
      exact (hCreate _ _ _ hKind hArgs).elim
    · exact failsWith_none rfl
    · rename_i hKind hArgs
      exact (hDrop _ _ hKind hArgs).elim
    · exact failsWith_none rfl
    · exact failsWith_of_maintains (maintains_listing.bind fun _ => maintains_pure _)

/-- A statement that is no command is a query, which leaves the entries and the drive. -/
theorem failsWith_query (sql : String) (w : Workspace) :
    FailsWith (plannedByText w sql) (query sql) w := by
  unfold query plannedByText
  rcases Command.read sql with f | _ | c
  · exact failsWith_none rfl
  · have hIgnores : IgnoresQueries fun w' => w'.drive = w.drive ∧
        w'.catalog.entries = w.catalog.entries := ⟨fun _ h => h, fun _ h => h, fun _ h => h⟩
    have hQuery : FailsWith none (lift (Sql.parse sql) >>= fun n => Query.eval true n) w :=
      failsWith_of_maintains
        ((maintains_lift _).bind fun n => Query.maintains_eval hIgnores.outlasts true n)
    intro f w' hRun
    rw [run_bind_ok (run_lift_ok none w)] at hRun
    exact hQuery f w' hRun
  · exact failsWith_execute c w

theorem Change.failsWith (c : Change) (w : Workspace) : FailsWith (c.planned w) c.work w := by
  cases c with
  | addTable e => exact failsWith_addEntry e w
  | addFile path clean => exact failsWith_addFile path clean w
  | dropTable key => exact failsWith_dropEntry key w
  | command c => exact (failsWith_execute c w).bind_pure fun _ => ()
  | statement sql => exact (failsWith_query sql w).bind_pure fun _ => ()

theorem entriesWith?_ne {e : Entry} (h : w.entriesWith? e = some entries) :
    entries ≠ w.catalog.entries := by
  unfold entriesWith? at h
  split at h
  · cases h
    simp [withEntry]
  · cases h

theorem entriesWithout?_ne {key : Document}
    (h : w.entriesWithout? key = some entries) : entries ≠ w.catalog.entries := by
  unfold entriesWithout? at h
  split at h
  · rename_i old hFind
    cases h
    intro hSame
    obtain ⟨e, he, _⟩ := Option.map_eq_some_iff.1 (Catalog.entryAt?_of_find hFind)
    have hKept := List.filter_eq_self.1 hSame e (List.mem_of_find?_eq_some he)
    simp [List.find?_some he] at hKept
  · cases h

theorem plannedBy_ne {c : Command} (h : plannedBy w c = some entries) :
    entries ≠ w.catalog.entries := by
  unfold plannedBy at h
  split at h
  · obtain ⟨e, _, he⟩ := Option.bind_eq_some_iff.1 h
    exact entriesWith?_ne he
  · exact entriesWithout?_ne h
  · cases h

/-- What a change makes differs from what was there. -/
theorem Change.planned_ne {c : Change} (h : c.planned w = some entries) :
    entries ≠ w.catalog.entries := by
  cases c with
  | addTable e => exact entriesWith?_ne h
  | addFile path clean =>
    obtain ⟨e, _, he⟩ := Option.bind_eq_some_iff.1 h
    exact entriesWith?_ne he
  | dropTable key => exact entriesWithout?_ne h
  | command c => exact plannedBy_ne h
  | statement sql =>
    obtain ⟨c, _, hc⟩ := Option.bind_eq_some_iff.1 h
    exact plannedBy_ne hc

/-- A change that fails leaves the tables exactly if it was refused before it was made, and then it
leaves all files too. Otherwise the tables are those that the change makes, and the metadata file is
as it was, or it is empty since some table has no text. It is empty if it could be written. -/
theorem failed_change_leaves_tables_iff {c : Change} {w w' : Workspace} {f : Fault}
    (h : Work.run c.work w = (.error f, w')) :
    (w'.catalog.entries = w.catalog.entries ↔ c.planned w = none) ∧
    (c.planned w = none → w'.drive.files = w.drive.files) ∧
    ∀ entries, c.planned w = some entries →
      w'.catalog.entries = entries ∧
      (w'.drive.files = w.drive.files ∨ EmptiedFor entries w w') ∧
      (w.drive.TakesMetadata w.catalog.dir → EmptiedFor entries w w') := by
  obtain ⟨hEntries, hFiles, hEmptied⟩ := c.failsWith w f w' h
  refine ⟨⟨fun hSame => ?_, fun hNone => ?_⟩, fun hNone => ?_, fun entries hPlanned => ?_⟩
  · cases hPlanned : c.planned w with
    | none => rfl
    | some entries =>
      rw [hPlanned] at hEntries
      exact absurd (hEntries.symm.trans hSame) (c.planned_ne hPlanned)
  · rw [hEntries, hNone, Option.getD_none]
  · exact hFiles.resolve_right (by simp [hNone])
  · rw [hPlanned] at hEntries hFiles hEmptied
    exact ⟨hEntries, by simpa using hFiles, fun hTakes => hEmptied hTakes entries rfl⟩

def deniedWorkspace : Workspace where
  drive :=
    { files := [(["t.csv"], "v\n1\n"), (["m", metadataName], "\x7b\x7d")], directories := [["m"]],
      denied := ["m"] }
  catalog := { dir := "m" }

/-- A statement that creates a table, in a directory that is not writable. -/
theorem failed_change_leaves_tables_iff_denied :
    ∃ w', Work.run (Change.statement "CREATE TABLE (t.csv)").work deniedWorkspace =
        (.error (.query (.notWritable "m")), w') ∧
      (∀ entries, (Change.statement "CREATE TABLE (t.csv)").planned deniedWorkspace = some entries →
        w'.catalog.entries = entries) ∧
      ¬deniedWorkspace.drive.TakesMetadata "m" ∧ w'.drive.files = deniedWorkspace.drive.files := by
  have hRun : run (Change.statement "CREATE TABLE (t.csv)").work deniedWorkspace =
      (.error (.query (.notWritable "m")), _) := rfl
  obtain ⟨-, -, hPlanned⟩ := failed_change_leaves_tables_iff hRun
  refine ⟨_, hRun, fun entries h => (hPlanned entries h).1, ?_, rfl⟩
  intro hTakes
  cases hTakes.writable

def openWorkspace : Workspace where
  drive := { deniedWorkspace.drive with denied := [] }
  catalog := { dir := "m" }

/-- A table of a file whose path was given as something that has no text. -/
def pathTable : Entry where
  id := 0
  name := .text "t"
  file? := some (.text "t.csv")
  unwritable? := some .wrongType

/-- A table that could not be saved is in the catalog, though adding it failed. The metadata is as
it was if the directory is not writable, and it is empty if the table has no text. -/
theorem unsaved_table_stays :
    (∃ w', Work.run (Change.addFile "t.csv" true).work deniedWorkspace =
        (.error (.query (.notWritable "m")), w') ∧
      w'.drive.files = deniedWorkspace.drive.files ∧ deniedWorkspace.catalog.keys = [] ∧
      w'.catalog.keys = [.text "t"]) ∧
    ∃ w', Work.run (Change.addTable pathTable).work openWorkspace = (.error .wrongType, w') ∧
      openWorkspace.drive.read (metadataPath "m") = .ok "\x7b\x7d" ∧
      w'.drive.read (metadataPath "m") = .ok "" ∧ w'.catalog.keys = [.text "t"] :=
  ⟨⟨_, rfl, rfl, rfl, rfl⟩, _, rfl, rfl, rfl, rfl⟩

end Work

end TableQuery
