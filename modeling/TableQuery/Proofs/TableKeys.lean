import TableQuery.Proofs.EntryKeys
import TableQuery.Proofs.FailedChanges

/-! The keys of tables. Only a table that is given to an opening stands under its name in lower
case. So all tables stand under their names, through every history, exactly if openings are given
names in lower case only. -/
namespace TableQuery

open List Work Document

/-- All entries stand under their names, those that are there and those that can be loaded. -/
structure Workspace.KeyedByName (w : Workspace) : Prop where
  entries : NameKeyed w.catalog.entries
  drive : w.drive.KeyedByName

namespace Work

open Workspace

variable {w w' : Workspace} {e : Entry} {first : Nat}
variable {extensions : List (String × Extension)} {cache : Cache Relation} {dir : String}

theorem ignoresQueries_keyedByName : IgnoresQueries KeyedByName where
  frames _ h := ⟨h.entries, h.drive⟩
  cache _ h := ⟨h.entries, h.drive⟩
  scope _ h := ⟨h.entries, h.drive⟩

/-- Saving writes entries that stand under their names, or leaves an empty file, or writes nothing.
-/
theorem keyedByName_saveMetadata (hw : w.KeyedByName) :
    (run (saveMetadata true) w).2.KeyedByName := by
  obtain ⟨f, d, hRun, hFiles⟩ | ⟨d, path, hFiles, -, ⟨f, -, hRun⟩ | ⟨hRun, -⟩⟩ :=
    run_saveMetadata_cases w
  all_goals rw [hRun]
  · exact ⟨hw.entries, hw.drive.of_files hFiles⟩
  · exact ⟨hw.entries,
      (hw.drive.of_files hFiles).put path fun _ h => absurd h Catalog.not_describes_empty⟩
  · exact ⟨hw.entries,
      (hw.drive.of_files hFiles).put path fun _ => Catalog.nameKeyed_of_describes hw.entries⟩

theorem keyedByName_addEntry {s : String} (hName : e.name = .text s) :
    Maintains KeyedByName (addEntry e) :=
  maintains_addEntry_of fun w hw hNew => keyedByName_saveMetadata
    ⟨hw.entries.append (e := { e with id := w.catalog.created }) hName
      (entryAt?_eq_none_iff.1 hNew), hw.drive⟩

theorem keyedByName_dropEntry (key : Document) : Maintains KeyedByName (dropEntry key) :=
  maintains_dropEntry_of fun _ hw => keyedByName_saveMetadata ⟨hw.entries.filter _, hw.drive⟩

theorem keyedByName_addFile (path : String) (clean : Bool) :
    Maintains KeyedByName (addFile path clean) :=
  maintains_addFile_of fun _ hName _ => keyedByName_addEntry hName

/-- Adds only tables whose names are texts. -/
def Change.HasTextName : Change → Prop
  | .addTable e => ∃ s, e.name = .text s
  | _ => True

theorem Change.keyedByName {c : Change} (hName : c.HasTextName) : Maintains KeyedByName c.work := by
  cases c with
  | addTable e =>
    obtain ⟨s, hName⟩ := hName
    exact keyedByName_addEntry hName
  | addFile path clean => exact keyedByName_addFile path clean
  | dropTable key => exact keyedByName_dropEntry key
  | command c =>
    exact (maintains_execute_of keyedByName_addFile keyedByName_dropEntry c).bind
      fun _ => maintains_pure _
  | statement sql =>
    exact (maintains_query_of keyedByName_addFile ignoresQueries_keyedByName.outlasts
      keyedByName_dropEntry sql).bind fun _ => maintains_pure _

def AreLowerCase (given : List Entry) : Prop :=
  ∀ g ∈ given, ∀ s, g.name = .text s → Text.lower s = s

/-- Tables whose names are in lower case stand under their names. -/
theorem nameKeyed_nameEntries {given : List Entry} {named : List (Document × Entry)}
    (h : nameEntries first given = .ok named) (hLower : AreLowerCase given) : NameKeyed named where
  distinct := (standFor_nameEntries h).1.distinct
  named := by
    intro e he
    obtain ⟨g, hg, s, hName, hKey, hSame⟩ := (standFor_nameEntries h).2.1 e he
    rw [hLower g hg s hName] at hKey
    exact ⟨s, hKey, hSame.name.trans hName⟩

theorem eq_nil_of_nameEntries {given : List Entry} (h : nameEntries first given = .ok []) :
    given = [] := by
  refine eq_nil_iff_forall_not_mem.2 fun g hg => ?_
  obtain ⟨_, _, hKey⟩ := (standFor_nameEntries h).2.2 g hg
  cases hKey

/-- Opens a catalog whose entries stand under their names, if given names are in lower case. -/
def OpensByName (given : List Entry) (x : Work Unit) : Prop :=
  ∀ w r w', w.drive.KeyedByName → Work.run x w = (r, w') → (r = .ok () → AreLowerCase given) →
    w'.drive.KeyedByName ∧ (r = .ok () → NameKeyed w'.catalog.entries)

theorem opensByName_openCatalog (dir : String) (given : List Entry) (cache : Cache Relation)
    (extensions : List (String × Extension)) :
    OpensByName given (openCatalog dir given cache extensions) := by
  intro w r w' hw h hLower
  obtain ⟨f, rfl, hFiles, -⟩ | ⟨d, path, c, hReaches, hOutcome⟩ := openCatalog_cases h
  · exact ⟨hw.of_files hFiles, fun hOk => by cases hOk⟩
  have hDrive := hw.of_files hReaches.files
  obtain ⟨f, -, rfl, rfl⟩ | ⟨-, rfl, rfl⟩ := hOutcome
  · exact ⟨hDrive.put path fun _ h => absurd h Catalog.not_describes_empty, fun hOk => by cases hOk⟩
  · obtain ⟨named, loaded, hNamed, hLoaded, _, _, hEntries⟩ := catalogOf_eq_ok hReaches.catalog
    have hKeyed : NameKeyed c.entries := by
      rw [hEntries]
      split
      · exact nameKeyed_nameEntries hNamed (hLower rfl)
      · exact hDrive dir loaded hLoaded
    exact ⟨hDrive.put path fun _ => Catalog.nameKeyed_of_describes hKeyed,
      fun _ => hKeyed.map (f := fun e => { e with cached := true }) fun _ => rfl⟩

/-- A first step that keeps the drive well does not matter. -/
theorem OpensByName.after {α : Type} {x : Work α} {f : α → Work Unit} {given : List Entry}
    (hx : Maintains (fun w => w.drive.KeyedByName) x) (hf : ∀ a, OpensByName given (f a)) :
    OpensByName given (x >>= f) := by
  intro w r w' hw h hLower
  have hFirst := hx w hw
  rcases hRun : run x w with ⟨e | a, w₁⟩
  all_goals rw [hRun] at hFirst
  · rw [run_bind_error hRun] at h
    cases h
    exact ⟨hFirst, fun hOk => by cases hOk⟩
  · rw [run_bind_ok hRun] at h
    exact hf a w₁ r w' hFirst h hLower

/-- What follows an opening that is given nothing works on entries that stand under their names. -/
theorem OpensByName.bind {x : Work Unit} {f : Unit → Work Unit} (hx : OpensByName [] x)
    (hf : ∀ a, Maintains KeyedByName (f a)) : OpensByName [] (x >>= f) := by
  intro w r w' hw h hLower
  rcases hRun : run x w with ⟨e | a, w₁⟩
  all_goals obtain ⟨hDrive, hEntries⟩ := hx w _ w₁ hw hRun fun _ => by simp [AreLowerCase]
  · rw [run_bind_error hRun] at h
    cases h
    exact ⟨hDrive, fun hOk => by cases hOk⟩
  · rw [run_bind_ok hRun] at h
    have hFinal := hf a w₁ ⟨hEntries rfl, hDrive⟩
    rw [h] at hFinal
    exact ⟨hFinal.drive, fun _ => hFinal.entries⟩

theorem opensByName_createCatalog (dir : String) (given : List Entry) :
    OpensByName given (createCatalog dir given) := by
  refine .after ?_ fun _ => opensByName_openCatalog dir given _ _
  intro w hw
  unfold clearMetadata
  rw [run_bind_ok (run_drive w)]
  split
  · cases hRemoved : w.drive.remove (metadataPath dir) with
    | error f => exact hw
    | ok d => exact hw.remove hRemoved
  · exact hw

theorem opensByName_openFiles (dir filesDir : String) :
    OpensByName [] (openFiles dir filesDir) := by
  refine .after maintains_drive fun drive => .after (maintains_lift _) fun names => ?_
  refine (opensByName_openCatalog dir [] _ _).bind fun _ => ?_
  refine (maintains_addFiles_of keyedByName_addFile filesDir names).bind
    fun _ => maintains_catalog.bind fun c => ?_
  split
  · exact maintains_throw _
  · exact maintains_pure _

def Opening.given : Opening → List Entry
  | .onDirectory _ given _ _ => given
  | .anew _ given => given
  | .withFiles _ _ => []

theorem Opening.opensByName (o : Opening) : OpensByName o.given o.work := by
  cases o with
  | onDirectory dir given cache extensions =>
    exact opensByName_openCatalog dir given cache extensions
  | anew dir given => exact opensByName_createCatalog dir given
  | withFiles dir filesDir => exact opensByName_openFiles dir filesDir

/-- What an opening that succeeds was given stands in the catalog, under names in lower case. -/
theorem standFor_openCatalog {given : List Entry} (hGiven : given ≠ [])
    (h : run (openCatalog dir given cache extensions) w = (.ok (), w')) :
    StandFor w'.catalog.entries given ∧
    ∀ g ∈ given, ∃ s, g.name = .text s ∧ .text (Text.lower s) ∈ w'.catalog.entries.map (·.1) := by
  obtain ⟨d, path, c, hReaches, -, rfl⟩ := openCatalog_eq_ok h
  obtain ⟨named, loaded, hNamed, -, hOne, -, hEntries⟩ := catalogOf_eq_ok hReaches.catalog
  obtain rfl := hOne.resolve_right fun hNone => hGiven (eq_nil_of_nameEntries (hNone ▸ hNamed))
  obtain ⟨-, hStand, hKeys⟩ := standFor_nameEntries hNamed
  rw [linked, hEntries]
  constructor
  · intro e he
    obtain ⟨old, hOld, rfl⟩ := mem_map.1 he
    obtain ⟨g, hg, s, hName, hKey, hSame⟩ := hStand old hOld
    exact ⟨g, hg, s, hName, hKey, hSame.kind, hSame.name, hSame.plan, hSame.file⟩
  · intro g hg
    obtain ⟨s, hName, hKey⟩ := hKeys g hg
    exact ⟨s, hName, by simpa using hKey⟩

theorem Opening.standFor {o : Opening} (h : run o.work w = (.ok (), w')) (hGiven : o.given ≠ []) :
    StandFor w'.catalog.entries o.given ∧
    ∀ g ∈ o.given, ∃ s, g.name = .text s ∧ .text (Text.lower s) ∈ w'.catalog.entries.map (·.1) := by
  cases o with
  | onDirectory dir given cache extensions => exact standFor_openCatalog hGiven h
  | anew dir given =>
    obtain ⟨_, w₁, _, h⟩ := run_bind_eq_ok h
    exact standFor_openCatalog hGiven h
  | withFiles dir filesDir => exact absurd rfl hGiven

end Work

/-- Each table stands under its name, no two share one, and each can be dropped by it, up to saving.
-/
structure Workspace.WellNamed (w : Workspace) : Prop where
  keyed : ∀ e ∈ w.catalog.entries, e.1 = e.2.name
  distinct : w.catalog.entries.Pairwise fun a b => a.2.name ≠ b.2.name
  droppable : ∀ e ∈ w.catalog.entries, ∃ r w', Work.run (Work.dropEntry e.2.name) w = (r, w') ∧
    (∀ x, x ∈ w'.catalog.entries ↔ x ∈ w.catalog.entries ∧ x.2.name ≠ e.2.name) ∧
    (w.Ready w.catalog.dir → r = .ok ())

theorem NameKeyed.wellNamed {w : Workspace} (h : NameKeyed w.catalog.entries) : w.WellNamed where
  keyed _ he := h.key_eq he
  distinct := h.name_ne
  droppable := by
    intro e he
    obtain ⟨old, hFind⟩ := h.exists_find he
    obtain ⟨_, _, hRun⟩ | ⟨hMissing, _⟩ := run_dropEntry_cases e.2.name w
    case inr => exact absurd hFind (hMissing old)
    have hCatalog := catalog_saveMetadata (w.withoutEntry e.2.name)
    rcases hSaved : run (saveMetadata true) (w.withoutEntry e.2.name) with ⟨r, w'⟩
    rw [hSaved] at hRun hCatalog
    refine ⟨r, w', hRun, fun x => ?_, fun hReady => ?_⟩
    · rw [hCatalog, Workspace.withoutEntry, mem_filter, Bool.not_eq_true', ← Bool.not_eq_true]
      exact and_congr_right fun hx => not_congr (h.sameKey_iff hx he)
    · have hReady : (w.withoutEntry e.2.name).Ready w.catalog.dir :=
        ⟨hReady.toTakesMetadata, rfl, fun x hx => hReady.written x (mem_of_mem_filter hx)⟩
      obtain ⟨d, hOk, _⟩ := run_saveMetadata hReady
      exact congrArg Prod.fst (hSaved.symm.trans hOk)

namespace Session

variable {step : Work Unit} {w : Workspace} {s : Session}

def workspace? (s : Session) : Option Workspace :=
  s.catalog?.map fun catalog => { drive := s.drive, frames := s.frames, catalog }

/-- All entries stand under their names, those of the open catalog and those that can be loaded. -/
structure KeyedByName (s : Session) : Prop where
  drive : s.drive.KeyedByName
  entries : ∀ c, s.catalog? = some c → NameKeyed c.entries

/-- A step of a history: a catalog is opened, in place of the one before, or the open one is
changed. -/
inductive Move where
  | opening (keepsOld : Bool) (o : Work.Opening)
  | change (c : Work.Change)

namespace Move

def after (s : Session) : Move → Session
  | .opening keepsOld o => (s.opening keepsOld o.work).2
  | .change c => (s.work c.work).2

def given (s : Session) : Move → List Entry
  | .opening keepsOld o => if (s.opening keepsOld o.work).1.isOk then o.given else []
  | .change _ => []

/-- Adds only tables whose names are texts. -/
def HasTextName : Move → Prop
  | .opening _ _ => True
  | .change c => c.HasTextName

/-- After a move the tables go by their names, and for each table that was given there is one of its
name. -/
structure GoesByName (s : Session) (m : Move) : Prop where
  wellNamed : ∀ w, (m.after s).workspace? = some w → w.WellNamed
  registered : ∀ g ∈ m.given s, ∃ w, (m.after s).workspace? = some w ∧
    ∃ e ∈ w.catalog.entries, ∃ g' ∈ m.given s, g'.name = g.name ∧ e.2.SameTable g'

def GivesLowerCase (s : Session) (m : Move) : Prop := Work.AreLowerCase (m.given s)

def Throughout (P : Session → Move → Prop) : Session → List Move → Prop
  | _, [] => True
  | s, m :: rest => P s m ∧ Throughout P (m.after s) rest

theorem Throughout.imp {P Q : Session → Move → Prop} (hPQ : ∀ s m, P s m → Q s m)
    {moves : List Move} (h : Throughout P s moves) : Throughout Q s moves := by
  induction moves generalizing s with
  | nil => trivial
  | cons m rest ih => exact ⟨hPQ s m h.1, ih h.2⟩

end Move

theorem opening_of_ok (keepsOld : Bool)
    (h : run step { drive := s.drive, frames := s.frames, catalog := { dir := "" } } =
      (.ok (), w)) :
    s.opening keepsOld step =
      (.ok w.catalog.keys,
        { drive := w.drive, frames := w.frames, catalog? := some w.catalog }) := by
  unfold opening
  rw [h]

theorem opening_of_error {f : Fault} (keepsOld : Bool)
    (h : run step { drive := s.drive, frames := s.frames, catalog := { dir := "" } } =
      (.error f, w)) :
    s.opening keepsOld step =
      (.error f,
        { drive := w.drive, frames := w.frames,
          catalog? := if keepsOld then s.catalog? else none }) := by
  unfold opening
  rw [h]

namespace Move

variable {m : Move}

/-- An opening that succeeds opened its catalog with its tables. -/
theorem exists_run_of_mem_given {g : Entry} (hg : g ∈ m.given s) :
    ∃ o : Opening, ∃ w₀ w, run o.work w₀ = (.ok (), w) ∧ m.given s = o.given ∧
        (m.after s).workspace? = some w := by
  cases m with
  | opening keepsOld o =>
    rcases hRun : run o.work { drive := s.drive, frames := s.frames, catalog := { dir := "" } } with
      ⟨f | _, w⟩
    · rw [given, opening_of_error keepsOld hRun] at hg
      cases hg
    · have hOpened := opening_of_ok keepsOld hRun
      refine ⟨o, _, w, hRun, ?_, ?_⟩
      · rw [given, hOpened]
        rfl
      · rw [after, hOpened]
        rfl
  | change c => cases hg

/-- Tables that all stand under their names, with none lost, were given names in lower case. -/
theorem GoesByName.givesLowerCase (h : m.GoesByName s) : m.GivesLowerCase s := by
  intro g hg n hn
  obtain ⟨o, w₀, w, hRun, hGiven, hAfter⟩ := exists_run_of_mem_given hg
  obtain ⟨w', hAfter', e, he, g', _, hSameName, hSame⟩ := h.registered g hg
  obtain rfl := Option.some.inj (hAfter.symm.trans hAfter')
  have hNonempty : o.given ≠ [] := ne_nil_of_mem (hGiven ▸ hg)
  obtain ⟨g'', _, t, ht, hKey, hSame'⟩ := (o.standFor hRun hNonempty).1 e he
  -- The entry has the name of the table, and its key is this name in lower case.
  have hName : e.2.name = .text n := hSame.name.trans (hSameName.trans hn)
  have hText : text t = .text n := ht.symm.trans (hSame'.name.symm.trans hName)
  have hLower : text (Text.lower t) = .text n :=
    hKey.symm.trans (((h.wellNamed w hAfter).keyed e he).trans hName)
  obtain rfl := text.inj hText
  exact text.inj hLower

theorem keyedByName_after (hs : s.KeyedByName) (hName : m.HasTextName)
    (hLower : m.GivesLowerCase s) : (m.after s).KeyedByName := by
  cases m with
  | opening keepsOld o =>
    rcases hRun : run o.work { drive := s.drive, frames := s.frames, catalog := { dir := "" } } with
      ⟨f | _, w⟩
    · obtain ⟨hDrive, _⟩ := o.opensByName _ _ w hs.drive hRun fun hOk => by cases hOk
      rw [after, opening_of_error keepsOld hRun]
      refine ⟨hDrive, fun c hc => ?_⟩
      cases keepsOld with
      | false => cases hc
      | true => exact hs.entries c hc
    · rw [GivesLowerCase, given, opening_of_ok keepsOld hRun] at hLower
      obtain ⟨hDrive, hEntries⟩ := o.opensByName _ _ w hs.drive hRun fun _ => hLower
      rw [after, opening_of_ok keepsOld hRun]
      refine ⟨hDrive, fun c hc => ?_⟩
      cases hc
      exact hEntries rfl
  | change c =>
    rw [after, Session.work]
    cases hCatalog : s.catalog? with
    | none => exact hs
    | some catalog =>
      have hw : Workspace.KeyedByName { drive := s.drive, frames := s.frames, catalog } :=
        ⟨hs.entries catalog hCatalog, hs.drive⟩
      have hFinal := Change.keyedByName hName _ hw
      refine ⟨hFinal.drive, fun c hc => ?_⟩
      cases hc
      exact hFinal.entries

theorem goesByName_of_keyedByName (hAfter : (m.after s).KeyedByName)
    (hLower : m.GivesLowerCase s) : m.GoesByName s where
  wellNamed := by
    intro w hw
    obtain ⟨c, hc, rfl⟩ := Option.map_eq_some_iff.1 hw
    exact (hAfter.entries c hc).wellNamed
  registered := by
    intro g hg
    obtain ⟨o, w₀, w, hRun, hGiven, hOpened⟩ := exists_run_of_mem_given hg
    have hNonempty : o.given ≠ [] := ne_nil_of_mem (hGiven ▸ hg)
    obtain ⟨hStand, hKeys⟩ := o.standFor hRun hNonempty
    obtain ⟨n, hn, hKey⟩ := hKeys g (hGiven ▸ hg)
    obtain ⟨e, he, hKey⟩ := mem_map.1 hKey
    obtain ⟨g', hg', t, ht, hKey', hSame⟩ := hStand e he
    refine ⟨w, hOpened, e, he, g', hGiven ▸ hg', ?_, hSame⟩
    have hText : text (Text.lower t) = .text (Text.lower n) := hKey'.symm.trans hKey
    rw [hLower g' (hGiven ▸ hg') t ht, hLower g hg n hn] at hText
    rw [ht, hn, hText]

/-- Tables go by their names throughout a history exactly if openings are given names in lower case
only. -/
theorem tables_go_by_name_iff {s : Session} (hs : s.KeyedByName) {moves : List Move}
    (hNames : ∀ m ∈ moves, m.HasTextName) :
    Throughout (fun s m => m.GoesByName s) s moves ↔
      Throughout (fun s m => m.GivesLowerCase s) s moves := by
  constructor
  · exact Throughout.imp fun _ _ => GoesByName.givesLowerCase
  · intro h
    induction moves generalizing s with
    | nil => trivial
    | cons m rest ih =>
      have hAfter := keyedByName_after hs (hNames m mem_cons_self) h.1
      exact ⟨goesByName_of_keyedByName hAfter h.1,
        ih hAfter (fun m hm => hNames m (mem_cons_of_mem _ hm)) h.2⟩

def freshSession : Session where
  drive := { files := [(["Data.csv"], "v\n1\n")] }

theorem keyedByName_freshSession : freshSession.KeyedByName where
  drive := by
    refine Drive.keyedByName_of_read fun dir text loaded hText hLoaded => ?_
    obtain ⟨path, _, hFile⟩ := Drive.read_eq_ok_iff.1 hText
    obtain ⟨ms, hRead, _⟩ := hLoaded
    rw [Drive.file?, freshSession, lookup_cons] at hFile
    split at hFile
    · cases hFile
      cases hRead
    · cases hFile
  entries _ hc := by cases hc

/-- Two tables whose names differ in case; then a file is added, a table dropped, and the catalog
opened again. -/
def mixedMoves : List Move :=
  [.opening false (.onDirectory "m" [{ id := 0, name := .text "sales", file? := none },
      { id := 0, name := .text "größe 1", file? := none }] .nothing []),
    .change (.addTable { id := 0, name := .text "Sales", file? := none }),
    .change (.statement "CREATE TABLE (Data.csv)"),
    .change (.dropTable (.text "sales")),
    .opening false (.onDirectory "m" [] (Cache.fresh none) [])]

theorem givesLowerCase_opening {keepsOld : Bool} {o : Opening}
    (h : AreLowerCase o.given) : (opening keepsOld o).GivesLowerCase s := by
  rw [GivesLowerCase, given]
  split
  · exact h
  · simp [AreLowerCase]

theorem givesLowerCase_change (c : Change) : (change c).GivesLowerCase s := by
  simp [GivesLowerCase, given, AreLowerCase]

theorem tables_go_by_name_iff_mixed :
    freshSession.KeyedByName ∧ (∀ m ∈ mixedMoves, m.HasTextName) ∧
      Throughout (fun s m => m.GoesByName s) freshSession mixedMoves ∧
      ((mixedMoves.take 2).foldl after freshSession).catalog?.map Catalog.keys =
        some [.text "sales", .text "größe 1", .text "Sales"] := by
  have hNames : ∀ m ∈ mixedMoves, m.HasTextName := by
    simp [mixedMoves, HasTextName, Work.Change.HasTextName]
  refine ⟨keyedByName_freshSession, hNames,
    (tables_go_by_name_iff keyedByName_freshSession hNames).2 ?_, rfl⟩
  refine ⟨givesLowerCase_opening ?_, givesLowerCase_change _, givesLowerCase_change _,
    givesLowerCase_change _, givesLowerCase_opening ?_, trivial⟩
  · intro g hg n hn
    simp only [Work.Opening.given, mem_cons, not_mem_nil, or_false] at hg
    rcases hg with rfl | rfl
    · cases hn
      rfl
    · cases hn
      rfl
  · simp [Work.AreLowerCase, Work.Opening.given]

def capitalMove : Move :=
  .opening false (.onDirectory "m" [{ id := 0, name := .text "Sales", file? := none }]
    (Cache.fresh none) [])

/-- A table that is given with a capital letter in its name stands under another key, and cannot be
dropped. -/
theorem capital_name_not_droppable :
    (capitalMove.after freshSession).catalog?.map
      (fun c => c.entries.map fun e => (e.1, e.2.name)) = some [(.text "sales", .text "Sales")] ∧
    ((capitalMove.after freshSession).work (Work.dropEntry (.text "Sales"))).1 =
      .error .missingKey ∧
    ¬ capitalMove.GoesByName freshSession := by
  refine ⟨rfl, rfl, fun h => ?_⟩
  have hKey : Document.text "sales" = .text "Sales" :=
    (h.wellNamed _ rfl).keyed _ mem_cons_self
  exact absurd (Document.text.inj hKey) (by decide)

end Move

end Session

end TableQuery
