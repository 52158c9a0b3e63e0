import TableQuery.Proofs.TableKeys

/-! Openings that fail. Opening a catalog saves last, so where it fails all files are as they were,
unless a table that was given has no text. An opening that takes the metadata away cannot put it
back, and one that adds files saves after each of them. -/
namespace TableQuery

open List Work

namespace Catalog

variable {loaded : List (Document × Entry)}

/-- The text of some entries describes entries under the same keys. -/
theorem keys_of_describes {c : Catalog} (hKeys : TextKeyed c.entries)
    (hLoaded : Describes c.toDocument.print loaded) : loaded.map (·.1) = c.entries.map (·.1) := by
  obtain ⟨ms, hRead, hLoaded⟩ := hLoaded
  obtain ⟨names, hNodup, hKeys⟩ := hKeys
  obtain ⟨ms', hSame, hMembers⟩ :=
    (Document.readAs_of_read hRead).object (by rw [map_memberName hKeys]; exact hNodup)
  obtain rfl := Document.object.inj hSame
  rw [map_readEntries hLoaded, hMembers.map_fst, map_memberName hKeys, hKeys]

/-- What is loaded where there is a metadata file is what the file describes. -/
theorem describes_of_load {drive : Drive} {dir text : String}
    (hText : drive.read (metadataPath dir) = .ok text) (h : load drive dir = .ok loaded) :
    Describes text loaded := by
  simp only [load, Drive.pathExists_of_read hText, if_true, hText] at h
  obtain ⟨_, hOnly, h⟩ := bind_eq_ok h
  cases hOnly
  obtain ⟨d, hRead, h⟩ := bind_eq_ok h
  split at h
  · exact ⟨_, hRead, h⟩
  · cases h

end Catalog

namespace Drive

variable {s text : String}

theorem read_congr_files {d d' : Drive} (hFiles : d'.files = d.files) :
    d'.read s = .ok text ↔ d.read s = .ok text := by
  simp only [read_eq_ok_iff, file?, hFiles]

/-- A file that was there cannot be taken away, or is not there afterwards. -/
theorem read_remove {d : Drive} (h : d.read s = .ok text) :
    (∃ f, d.remove s = .error f) ∨ ∃ d', d.remove s = .ok d' ∧ ∀ text, d'.read s ≠ .ok text := by
  obtain ⟨path, hPath, hFile⟩ := read_eq_ok_iff.1 h
  cases hLocked : d.locked.contains path.dropLast with
  | true =>
    exact .inl ⟨.notPermitted, by simp [remove, hPath, hFile, List.contains_iff_mem.1 hLocked]⟩
  | false =>
    refine .inr ⟨{ d with files := d.files.filter fun f => f.1 != path }, ?_, fun text' hText => ?_⟩
    · simp only [remove, hPath, hFile, hLocked, Option.isSome_some, if_true, Bool.false_eq_true,
        if_false]
    · obtain ⟨p, hp, hFound⟩ := read_eq_ok_iff.1 hText
      obtain rfl : path = p := Option.some.inj (hPath.symm.trans hp)
      have hNone : (d.files.filter fun f => f.1 != path).lookup path = none :=
        lookup_eq_none_iff.2 fun f hf => by
          rw [bne_comm]
          exact (mem_filter.1 hf).2
      rw [file?, hNone] at hFound
      cases hFound

end Drive

theorem endsWith_csv_iff {name : String} :
    name.endsWith ".csv" = true ↔ ∃ stem, stem ++ ".csv" = name := by
  rw [← String.endsWith_toSlice, String.Slice.endsWith_string_iff, String.copy_toSlice]
  constructor
  · rintro ⟨stem, hName⟩
    exact ⟨String.ofList stem, String.toList_injective (by simp [← hName])⟩
  · rintro ⟨stem, rfl⟩
    simp

namespace Work

open Workspace

variable {name dir filesDir text : String} {names : List String} {w w' : Workspace}
  {r : Except Fault Unit} {given : List Entry} {f : Fault}

/-- The table of a file is added under a free name and saved, or the file is refused and nothing is
done. -/
theorem run_addFile_cases (path : String) (clean : Bool) (w : Workspace) :
    (∃ e s, e.name = .text s ∧ e.unwritable? = none ∧
      (∀ old ∈ w.catalog.entries, old.1.sameKey (.text s) = false) ∧
      (Change.addFile path clean).planned w = some (w.withEntry e).catalog.entries ∧
      run (addFile path clean) w = run (saveMetadata true) (w.withEntry e)) ∨
    (Change.addFile path clean).planned w = none ∧
    ∃ f, run (addFile path clean) w = (.error f, w) := by
  have hPlanned : (Change.addFile path clean).planned w =
      (Entry.ofFile 0 w.drive path clean).toOption.bind w.entriesWith? := rfl
  rw [run_addFile, hPlanned]
  cases hFile : Entry.ofFile 0 w.drive path clean with
  | error f => exact .inr ⟨rfl, f, rfl⟩
  | ok e =>
    rw [Except.toOption, Option.bind_some, entriesWith?]
    obtain ⟨hFind, hRun⟩ | ⟨hTaken, f, hRun⟩ := run_addEntry_cases e w
    · have hName := (fields_of_ofFile hFile).1
      have hFree := entryAt?_eq_none_iff.1 (Catalog.entryAt?_of_find hFind)
      exact .inl ⟨e, _, hName, unwritable_ofFile hFile, hName ▸ hFree, by rw [hFind], hRun⟩
    · refine .inr ⟨?_, f, hRun⟩
      split
      · rename_i hFind
        exact absurd hFind hTaken
      · rfl

/-- None of some files is added: there is no table among them, or the first one is refused. -/
def TakesNone (filesDir : String) (names : List String) (w : Workspace) : Prop :=
  ∀ name ∈ names.find? (·.endsWith ".csv"), (Change.addFile (Path.join filesDir name) true).planned
    w = none

theorem addFiles_cons_of_csv (hCsv : name.endsWith ".csv" = true) (filesDir : String)
    (rest : List String) : addFiles filesDir (name :: rest) =
      addFile (Path.join filesDir name) true >>= fun _ => addFiles filesDir rest := by
  exact if_pos hCsv

theorem addFiles_cons_of_other (hOther : name.endsWith ".csv" = false) (filesDir : String)
    (rest : List String) : addFiles filesDir (name :: rest) = addFiles filesDir rest := by
  exact if_neg (by simp [hOther])

/-- Adding files is adding the first table among them and then the rest. -/
theorem addFiles_first (filesDir : String) (names : List String) :
    (names.find? (·.endsWith ".csv") = none ∧ addFiles filesDir names = pure ()) ∨
    ∃ name rest, names.find? (·.endsWith ".csv") = some name ∧
      addFiles filesDir names =
        addFile (Path.join filesDir name) true >>= fun _ => addFiles filesDir rest := by
  induction names with
  | nil => exact .inl ⟨rfl, rfl⟩
  | cons name rest ih =>
    cases hCsv : name.endsWith ".csv" with
    | true =>
      exact .inr ⟨name, rest, find?_cons_of_pos hCsv, addFiles_cons_of_csv hCsv filesDir rest⟩
    | false =>
      rw [addFiles_cons_of_other hCsv, find?_cons_of_neg (by simp [hCsv])]
      exact ih

/-- Tables that are added stand behind those that were there, and the metadata file mirrors them. -/
theorem maintains_addFile_behind (dir path : String) (clean : Bool)
    (entries : List (Document × Entry)) :
    Maintains
      (fun w => Mirrored dir w ∧ TextKeyed w.catalog.entries ∧ entries <+: w.catalog.entries)
      (addFile path clean) := by
  intro w hw
  obtain ⟨hMirrored, hKeys, hBehind⟩ := hw
  have hAfter := maintains_addFile dir path clean w hMirrored
  obtain ⟨e, s, hName, _, hFree, _, hRun⟩ | ⟨_, f, hRun⟩ := run_addFile_cases path clean w
  all_goals rw [hRun] at hAfter ⊢
  · refine ⟨hAfter, ?_, ?_⟩
    all_goals rw [catalog_saveMetadata]
    · have hSet := hKeys.setEntry s { e with id := w.catalog.created }
      rw [setEntry_of_new hFree, ← hName] at hSet
      exact hSet
    · exact hBehind.trans (prefix_append _ _)
  · exact ⟨hMirrored, hKeys, hBehind⟩

/-- Adding files does nothing if it takes none of them, and otherwise there are more tables. -/
theorem run_addFiles_cases (hw : Mirrored dir w) (hKeys : TextKeyed w.catalog.entries)
    (h : run (addFiles filesDir names) w = (r, w')) :
    (TakesNone filesDir names w ∧ w' = w) ∨
    ¬TakesNone filesDir names w ∧ Mirrored dir w' ∧ TextKeyed w'.catalog.entries ∧
    w.catalog.entries.length < w'.catalog.entries.length := by
  unfold TakesNone
  obtain ⟨hNone, hAdd⟩ | ⟨name, rest, hFirst, hAdd⟩ := addFiles_first filesDir names
  · rw [hAdd] at h
    cases h
    exact .inl ⟨by simp [hNone], rfl⟩
  · rw [hAdd] at h
    obtain ⟨e, s, _, hWritten, _, hPlanned, hRun⟩ | ⟨hRefused, f, hRun⟩ :=
      run_addFile_cases (Path.join filesDir name) true w
    · obtain ⟨d, hSaved, _⟩ := run_saveMetadata (w := w.withEntry e) (hw.toReady.withEntry hWritten)
      obtain ⟨w₁, hw₁⟩ : ∃ w₁, w₁ = { w.withEntry e with drive := d } := ⟨_, rfl⟩
      rw [← hw₁] at hSaved
      rw [run_bind_ok (hRun.trans hSaved)] at h
      have hOne :=
        maintains_addFile_behind dir (Path.join filesDir name) true [] w ⟨hw, hKeys, nil_prefix⟩
      rw [hRun, hSaved] at hOne
      have hAll := maintains_addFiles_of
        (fun path clean => maintains_addFile_behind dir path clean w₁.catalog.entries) filesDir rest
        w₁ ⟨hOne.1, hOne.2.1, prefix_rfl⟩
      rw [h] at hAll
      refine .inr
        ⟨by simp [hFirst, hPlanned], hAll.1, hAll.2.1, Nat.lt_of_lt_of_le ?_ hAll.2.2.length_le⟩
      simp [hw₁, withEntry]
    · rw [run_bind_error hRun] at h
      cases h
      exact .inl ⟨by simp [hFirst, hRefused], rfl⟩

/-- A metadata file holds the same text after more tables were added only if none was, and the text
is the one that is saved. -/
theorem openFiles_keeps_iff {w₁ : Workspace} (hText : w.drive.read (metadataPath dir) = .ok text)
    (hOpen : run (openCatalog dir [] (Cache.fresh none) []) w = (.ok (), w₁))
    (h : run (addFiles filesDir names) w₁ = (r, w')) :
    Mirrored dir w' ∧
    (w'.drive.read (metadataPath dir) = .ok text ↔
      w₁.catalog.toDocument.print = text ∧ TakesNone filesDir names w₁) := by
  have hMirrored := mirrored_of_openCatalog hOpen
  obtain ⟨d, path, c, hReaches, -, hOpened⟩ := openCatalog_eq_ok hOpen
  obtain ⟨named, loaded, hNamed, hLoaded, -, -, hEntries⟩ := catalogOf_eq_ok hReaches.catalog
  have hDescribes :=
    Catalog.describes_of_load ((Drive.read_congr_files hReaches.files).2 hText) hLoaded
  have hKeys : w₁.catalog.entries.map (·.1) = loaded.map (·.1) := by
    have hNone : named = [] := (Except.ok.inj hNamed).symm
    rw [hOpened, linked, hEntries, hNone]
    cases loaded with
    | nil => rfl
    | cons e rest => simp
  have hTextKeyed : TextKeyed w₁.catalog.entries := by
    obtain ⟨ms, hNodup, hLoadedKeys⟩ := Catalog.textKeyed_load hLoaded
    exact ⟨ms, hNodup, hKeys.trans hLoadedKeys⟩
  obtain ⟨hTakes, rfl⟩ | ⟨hTakes, hMirrored', hTextKeyed', hMore⟩ :=
    run_addFiles_cases hMirrored hTextKeyed h
  · refine ⟨hMirrored, ?_⟩
    rw [hMirrored.text, Except.ok.injEq]
    exact ⟨fun hSame => ⟨hSame, hTakes⟩, And.left⟩
  · refine ⟨hMirrored', fun hSame => ?_, fun hKept => absurd hKept.2 hTakes⟩
    -- The text that was loaded has fewer tables than the one that is there now.
    rw [hMirrored'.text, Except.ok.injEq] at hSame
    have hSameKeys := Catalog.keys_of_describes hTextKeyed' (hSame ▸ hDescribes)
    have hLength := congrArg length (hKeys.trans hSameKeys)
    simp only [length_map] at hLength
    omega

variable {cache : Cache Relation} {extensions : List (String × Extension)}

/-- An opening comes so far that a catalog is saved. It then fails only if some table has no text.
-/
def ReachesSave (dir : String) (given : List Entry) (w : Workspace) : Prop :=
  ∃ d path c, Reaches dir given w d path c

/-- An opening that fails leaves the metadata. On a directory it does so unless it comes to the
save; with metadata that is taken away, if it cannot be taken away or was empty and is emptied
again; with files, if the catalog was not opened, or if the text is the one that is saved and no
file was taken. -/
def Opening.KeepsMetadata (w : Workspace) (text : String) : Opening → Prop
  | .onDirectory dir given _ _ => ¬ReachesSave dir given w
  | .anew dir given =>
    (∃ f, w.drive.remove (metadataPath dir) = .error f) ∨ text = "" ∧
      ∃ d, w.drive.remove (metadataPath dir) = .ok d ∧ ReachesSave dir given { w with drive := d }
  | .withFiles dir filesDir =>
    ∀ names w₁, w.drive.list filesDir = .ok names →
      Work.run (openCatalog dir [] (Cache.fresh none) []) w = (.ok (), w₁) →
      w₁.catalog.toDocument.print = text ∧ TakesNone filesDir names w₁

/-- The metadata file after an opening of a catalog that fails: as it was, or empty. -/
theorem read_of_failed_openCatalog
    (h : run (openCatalog dir given cache extensions) w = (.error f, w')) :
    (ReachesSave dir given w ∧ w'.drive.read (metadataPath dir) = .ok "") ∨
    ¬ReachesSave dir given w ∧ w'.drive.files = w.drive.files := by
  obtain ⟨_, _, hFiles, hNot⟩ | ⟨d, path, c, hReaches, ⟨_, _, _, rfl⟩ | ⟨_, hOk, _⟩⟩ :=
    openCatalog_cases h
  · exact .inr ⟨fun ⟨d, path, c, hReaches⟩ => hNot d path c hReaches, hFiles⟩
  · exact .inl ⟨⟨d, path, c, hReaches⟩, hReaches.accepts.read_put _⟩
  · cases hOk

/-- A catalog is not opened on an empty metadata file. -/
theorem Reaches.ne_empty {d : Drive} {path : Path} {c : Catalog} (h : Reaches dir given w d path c)
    (hText : w.drive.read (metadataPath dir) = .ok text) : text ≠ "" := by
  rintro rfl
  obtain ⟨_, loaded, _, hLoaded, _⟩ := catalogOf_eq_ok h.catalog
  exact Catalog.not_describes_empty
    (Catalog.describes_of_load ((Drive.read_congr_files h.files).2 hText) hLoaded)

/-- Metadata that cannot be taken away stays. What was taken away is gone, unless an empty file was
left. -/
theorem failed_createCatalog_keeps_iff (h : run (createCatalog dir given) w = (.error f, w'))
    (hText : w.drive.read (metadataPath dir) = .ok text) :
    (w'.drive.read (metadataPath dir) = .ok text ↔ (Opening.anew dir given).KeepsMetadata w text) ∧
    ∀ text', w'.drive.read (metadataPath dir) = .ok text' → text' = text ∨ text' = "" := by
  have hClear : run (clearMetadata dir) w =
      run (lift (w.drive.remove (metadataPath dir)) >>= setDrive) w := by
    unfold clearMetadata
    rw [run_bind_ok (run_drive w), if_pos (Drive.pathExists_of_read hText)]
  obtain ⟨g, hKept⟩ | ⟨d, hRemoved, hGone⟩ := Drive.read_remove hText
  · rw [hKept] at hClear
    have hRun : run (createCatalog dir given) w = (.error g, w) := run_bind_error hClear
    cases hRun.symm.trans h
    exact ⟨iff_of_true hText (.inl ⟨_, hKept⟩),
      fun text' hText' => .inl (Except.ok.inj (hText'.symm.trans hText))⟩
  · rw [hRemoved] at hClear
    have hCreate : run (createCatalog dir given) w =
        run (openCatalog dir given (Cache.fresh none) []) { w with drive := d } :=
      run_bind_ok hClear
    rw [Opening.KeepsMetadata, hRemoved]
    obtain ⟨hReaches, hEmpty⟩ | ⟨hNot, hFiles⟩ := read_of_failed_openCatalog (hCreate.symm.trans h)
    · refine ⟨?_, fun text' hText' => .inr (Except.ok.inj (hText'.symm.trans hEmpty))⟩
      rw [hEmpty]
      simp [hReaches, eq_comm]
    · have hNone (text' : String) : w'.drive.read (metadataPath dir) ≠ .ok text' := by
        rw [ne_eq, Drive.read_congr_files hFiles]
        exact hGone text'
      exact ⟨iff_of_false (hNone text) (by simp [hNot]),
        fun text' hText' => absurd hText' (hNone text')⟩

/-- An opening that fails leaves the metadata file exactly if it keeps the metadata in the sense
above. In any case the file is as it was, or gone, or empty, or it has the text of the tables. -/
theorem failed_opening_keeps_metadata_iff {o : Opening} {w w' : Workspace} {f : Fault}
    {text : String} (h : Work.run o.work w = (.error f, w'))
    (hText : w.drive.read (metadataPath o.dir) = .ok text) :
    (w'.drive.read (metadataPath o.dir) = .ok text ↔ o.KeepsMetadata w text) ∧
    ∀ text', w'.drive.read (metadataPath o.dir) = .ok text' →
      text' = text ∨ text' = "" ∨ text' = w'.catalog.toDocument.print := by
  have hUnchanged (hFiles : w'.drive.files = w.drive.files) :
      w'.drive.read (metadataPath o.dir) = .ok text := (Drive.read_congr_files hFiles).2 hText
  cases o with
  | onDirectory dir given cache extensions =>
    obtain ⟨hReaches, hEmpty⟩ | ⟨hNot, hFiles⟩ := read_of_failed_openCatalog h
    · refine ⟨iff_of_false (fun hSame => ?_) fun hKeeps => hKeeps hReaches, fun text' hText' => ?_⟩
      · obtain ⟨d, path, c, hReaches⟩ := hReaches
        exact hReaches.ne_empty hText (Except.ok.inj (hSame.symm.trans hEmpty))
      · exact .inr (.inl (Except.ok.inj (hText'.symm.trans hEmpty)))
    · have hSame := hUnchanged hFiles
      refine ⟨iff_of_true hSame hNot, fun text' hText' => .inl ?_⟩
      exact (Except.ok.inj (hSame.symm.trans hText')).symm
  | anew dir given =>
    obtain ⟨hKeeps, hHolds⟩ := failed_createCatalog_keeps_iff h hText
    exact ⟨hKeeps, fun text' hText' => (hHolds text' hText').imp_right .inl⟩
  | withFiles dir filesDir =>
    obtain ⟨-, hFiles, hNot⟩ | ⟨names, w₁, r, hList, hOpen, hAdd⟩ := openFiles_cases h
    · have hSame := hUnchanged hFiles
      refine ⟨iff_of_true hSame fun names w₁ hList hOpen => absurd hOpen (hNot names w₁ hList), ?_⟩
      exact fun text' hText' => .inl (Except.ok.inj (hSame.symm.trans hText')).symm
    · obtain ⟨hMirrored, hKeeps⟩ := openFiles_keeps_iff hText hOpen hAdd
      refine ⟨hKeeps.trans
          ⟨fun hKept names' w₂ hList' hOpen' => ?_, fun hKept => hKept names w₁ hList hOpen⟩,
        fun text' hText' => .inr (.inr (Except.ok.inj (hMirrored.text.symm.trans hText')).symm)⟩
      rw [hList] at hList'
      rw [hOpen] at hOpen'
      cases hList'
      cases hOpen'
      exact hKept

def keptAway : Workspace where
  drive := { files := [(["m", metadataName], "\x7b\x7d")], directories := [["m"]], denied := ["m"] }
  catalog := { dir := "" }

/-- An opening on the directory leaves the metadata. -/
theorem failed_opening_keeps_metadata_iff_denied :
    ∃ w',
      Work.run (Opening.onDirectory "m" [] .nothing []).work keptAway =
        (.error (.query (.notWritable "m")), w') ∧
      keptAway.drive.read (metadataPath "m") = .ok "\x7b\x7d" ∧
      w'.drive.read (metadataPath "m") = .ok "\x7b\x7d" := by
  have hRun : run (Opening.onDirectory "m" [] .nothing []).work keptAway =
      (.error (.query (.notWritable "m")), _) := rfl
  have hText : keptAway.drive.read (metadataPath "m") = .ok "\x7b\x7d" := rfl
  have hFails : ¬ReachesSave "m" [] keptAway := by
    rintro ⟨d, path, c, h⟩
    obtain rfl : keptAway.drive = d := congrArg (·.2.drive) h.ensured
    exact absurd h.writable (by decide)
  exact ⟨_, hRun, hText, (failed_opening_keeps_metadata_iff hRun hText).1.2 hFails⟩

/-- A directory of files, the second of which holds no table, beside one with metadata. -/
def halfReadable : Workspace where
  drive :=
    { files := [(["m", metadataName], "\x7b\x7d"), (["d", "a.csv"], "v\n1\n"), (["d", "b.csv"], "")]
      directories := [["m"], ["d"]] }
  catalog := { dir := "" }

/-- The files that were added before the one that fails stay in the metadata, and metadata that is
taken away is not put back if a table has no name. -/
theorem metadata_lost_by_failed_opening :
    halfReadable.drive.read (metadataPath "m") = .ok "\x7b\x7d" ∧
    (∃ w', Work.run (Opening.withFiles "m" "d").work halfReadable = (.error .badValue, w') ∧
      w'.catalog.keys = [.text "a"] ∧
      w'.drive.read (metadataPath "m") = .ok w'.catalog.toDocument.print) ∧
    ∃ w',
      Work.run (Opening.anew "m" [{ id := 0, name := .int 5, file? := none }]).work halfReadable =
        (.error .missingMember, w') ∧
      w'.drive.pathExists (metadataPath "m") = false := by
  have hFirst : "a.csv".endsWith ".csv" = true := endsWith_csv_iff.2 ⟨"a", rfl⟩
  have hSecond : "b.csv".endsWith ".csv" = true := endsWith_csv_iff.2 ⟨"b", rfl⟩
  have hFiles : addFiles "d" ["a.csv", "b.csv"] =
      addFile "d/a.csv" true >>= fun _ => addFile "d/b.csv" true >>= fun _ => pure () := by
    rw [addFiles_cons_of_csv hFirst, addFiles_cons_of_csv hSecond]
    rfl
  have hRun : run (Opening.withFiles "m" "d").work halfReadable =
      (.error .badValue,
        (run (openCatalog "m" [] (Cache.fresh none) [] >>= fun _ => addFile "d/a.csv" true)
          halfReadable).2) := by
    have hList : halfReadable.drive.list "d" = .ok ["a.csv", "b.csv"] := rfl
    rw [Opening.work, openFiles, run_bind_ok (run_drive _), hList, run_bind_ok (run_lift_ok _ _),
      hFiles]
    rfl
  exact ⟨rfl, ⟨_, hRun, rfl, rfl⟩, _, rfl, rfl⟩

end Work

end TableQuery
