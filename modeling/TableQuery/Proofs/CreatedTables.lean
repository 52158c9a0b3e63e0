import TableQuery.Proofs.CleanedTables
import TableQuery.Proofs.CommandGrammar
import TableQuery.Proofs.FileTables

/-! Tables that are created from files. A statement that creates a table has a flag for its
cleaning, which is true for whatever text is written for it, so the table is cleaned in any case. -/
namespace TableQuery

open List Work Command

namespace Command

def flagText : Option Bool → String
  | none => ""
  | some true => ", True"
  | some false => ", False"

def creationText (path : String) (flag : Option Bool) : String :=
  "CREATE TABLE (" ++ path ++ flagText flag ++ ")"

def isQuote (c : Char) : Bool := c == '\'' || c == '"'

/-- A path that can be written in a creation as it is. -/
structure IsPlainPath (path : String) : Prop where
  run : IsRun path.toList
  first : ∀ c ∈ path.toList.head?, isQuote c = false
  last : ∀ c ∈ path.toList.getLast?, isQuote c = false

theorem unquote_eq {path : String} (h : IsPlainPath path) : unquote path.toList = path := by
  have hEnd {cs : List Char} (hHead : ∀ c ∈ cs.head?, isQuote c = false)
      (hRun : ∀ c ∈ cs, Text.isBlank c = false) :
      cs.dropWhile (fun c => c == ' ' || c == '\'' || c == '"') = cs := by
    cases cs with
    | nil => rfl
    | cons c rest =>
      have hQuote : isQuote c = false := hHead c rfl
      have hBlank : (c == ' ') = false := by
        rw [beq_eq_false_iff_ne]
        rintro rfl
        cases hRun ' ' mem_cons_self
      rw [isQuote, Bool.or_eq_false_iff] at hQuote
      exact dropWhile_cons_of_neg (by simp [hBlank, hQuote])
  rw [unquote, hEnd h.first h.run.2, hEnd (by simpa using h.last) (by simpa using h.run.2),
    reverse_reverse, String.ofList_toList]

theorem read_creationText {path : String} (h : IsPlainPath path) (flag : Option Bool) :
    read (creationText path flag) = .ok (some ⟨.createTable, some [.text path, .bool true]⟩) := by
  have hFlag : (flagText flag).toList ∈ flagTexts := by
    rcases flag with _ | _ | _ <;> simp [flagText, flagTexts]
  have hEnds : Ends [] := ⟨[], by simp [semicolons], [], by simp [lineEnds], rfl⟩
  have hCreates : CreatesTable path.toList (creationText path flag).toList :=
    ⟨h.run, _, hFlag, [], hEnds, by simp [creationText]⟩
  rw [read_eq_some_iff.2 (.inl ⟨_, hCreates, rfl⟩), creation, unquote_eq h]

end Command

namespace Work

variable {path text : String} {t : Table} {w : Workspace}

theorem run_bind_pure_snd {α β : Type} (x : Work α) (b : β) (w : Workspace) :
    (run (x >>= fun _ => pure b) w).2 = (run x w).2 := by
  rw [run_bind]
  rcases run x w with ⟨_ | _, w'⟩ <;> rfl

/-- A table is added alike with and without cleaning only where its name is taken. -/
theorem run_addFile_alike_iff (hText : w.drive.read path = .ok text) (hRead : Csv.read text = .ok t)
    {β : Type} (b : β) :
    run (addFile path true >>= fun _ => pure b) w = run (addFile path false >>= fun _ => pure b) w ↔
      (entryAt? w.catalog.entries (.text (Path.withoutExtension (Path.baseName path)))).isSome =
        true := by
  have hAdd (clean : Bool) :
      run (addFile path clean) w = run (addEntry (fileEntry path t clean)) w := by
    rw [run_addFile_of_read hText, hRead]
  cases hTaken : entryAt? w.catalog.entries (.text (Path.withoutExtension (Path.baseName path)))
    with
  | some old =>
    have hFind (clean : Bool) : w.catalog.find (fileEntry path t clean).name = .ok (some old) :=
      congrArg Except.ok hTaken
    refine iff_of_true ?_ rfl
    rw [run_bind, run_bind, hAdd, hAdd]
    unfold addEntry
    rw [run_bind_ok (run_catalog w), run_bind_ok (run_catalog w), hFind, hFind]
    rfl
  | none =>
    refine iff_of_false (fun hSame => ?_) Bool.false_ne_true
    have hFind (clean : Bool) : w.catalog.find (fileEntry path t clean).name = .ok none :=
      congrArg Except.ok hTaken
    have hCatalog := congrArg (fun r => r.2.catalog.entries) hSame
    simp only [run_bind_pure_snd, hAdd, run_addEntry_of_new (hFind _),
      catalog_saveMetadata] at hCatalog
    rw [Workspace.withEntry, Workspace.withEntry, append_cancel_left_eq] at hCatalog
    cases congrArg (fun es => es.map fun e => e.2.plan.isTrue) hCatalog

/-- A creation does what adding the file with cleaning does. So it obeys its flag exactly if that is
not false, or the name of the file is taken. -/
theorem creation_obeys_flag_iff {path text : String} {t : Table} {w : Workspace}
    (hPath : IsPlainPath path) (hText : w.drive.read path = .ok text)
    (hRead : Csv.read text = .ok t) (flag : Option Bool) :
    (Work.run (query (creationText path flag)) w =
      Work.run (addFile path (flag.getD true) >>= fun _ => pure (.scalar (.text "OK"))) w ↔
      flag ≠ some false ∨
      (entryAt? w.catalog.entries (.text (Path.withoutExtension (Path.baseName path)))).isSome =
        true) ∧
    ∀ v, Work.run (query (creationText path flag)) w = (.ok (.scalar (.text "OK")), v) →
      v.drive.read path = .ok text →
      ∃ e,
        entryAt? v.catalog.entries (.text (Path.withoutExtension (Path.baseName path))) = some e ∧
        e.fetch v.drive = (t.clean t.cleaningPlan).map some := by
  have hQuery : query (creationText path flag) =
      addFile path true >>= fun _ => pure (.scalar (.text "OK")) := by
    unfold query
    rw [read_creationText hPath flag]
    rfl
  rw [hQuery]
  constructor
  · rcases flag with _ | _ | _
    · simp
    · simpa using run_addFile_alike_iff hText hRead _
    · simp
  · intro v hRun hAfter
    obtain ⟨_, v', hAdd, hOk⟩ := run_bind_eq_ok hRun
    cases hOk
    obtain ⟨e, hFile, -, ⟨made, hMade, hPlan⟩, hNew, hEntries⟩ := exists_entry_of_addFile hAdd
    have hRaw {e : Entry} {d : Drive} (hFile : e.file? = some (.text path))
        (hText : d.read path = .ok text) : e.fetchRaw d = .ok (some t) := by
      simp only [Entry.fetchRaw, hFile, hText, hRead, bind, Except.bind]
      rfl
    have hOld := hRaw (fields_of_ofFile hMade).2.1 hText
    refine ⟨e, ?_, ?_⟩
    · rw [hEntries, entryAt?_append, hNew, Option.none_or, entryAt?_singleton, if_pos rfl]
    · refine Entry.fetch_of_plan (hRaw hFile hAfter) (hPlan.trans (Entry.plan_of_ofFile hMade hOld))
        (fun l hl => ?_) (Entry.toCell_dropColumns t)
      obtain ⟨i, hi, -⟩ :=
        (Table.mem_emptyRows_iff (Entry.asRead_of_fetchRaw hOld).rectangular).1 hl
      exact (Table.plain_labels_of_read hRead l (mem_of_getElem? hi)).2

/-- A file with a row and a column that are empty. -/
def sparseFile : Workspace where
  drive := { Entry.holding "a,b\nx,\n,\n" with directories := [["d"]] }
  catalog := { dir := "d" }

theorem creation_obeys_no_flag : Work.run (query "CREATE TABLE (t.csv)") sparseFile =
    Work.run (addFile "t.csv" true >>= fun _ => pure (.scalar (.text "OK"))) sparseFile := by
  have hPath : IsPlainPath "t.csv" :=
    ⟨⟨by simp, by simp; decide⟩, by simp [isQuote], by simp [isQuote]⟩
  have hRead : Csv.read "a,b\nx,\n,\n" = .ok (Entry.besideGaps [.text "x", Csv.gap]) := rfl
  have hStatement : creationText "t.csv" none = "CREATE TABLE (t.csv)" := rfl
  rw [← hStatement]
  exact (creation_obeys_flag_iff hPath rfl hRead none).1.2 (.inl fun h => by cases h)

/-- A table is cleaned though its creation says that it should not be. -/
theorem creation_cleans_unasked :
    (Work.run (query "CREATE TABLE (t.csv, False)") sparseFile).2.catalog.entries =
      [(.text "t", Entry.halfEmpty)] ∧
    Entry.halfEmpty.fetchRaw sparseFile.drive = .ok (some (Entry.besideGaps [.text "x", Csv.gap])) ∧
    Entry.halfEmpty.fetch sparseFile.drive = .ok (some ⟨[.int 0], [("a", .texts [some "x"])]⟩) := by
  have hRaw : Entry.halfEmpty.fetchRaw sparseFile.drive =
      .ok (some (Entry.besideGaps [.text "x", Csv.gap])) := rfl
  exact ⟨rfl, hRaw, Entry.fetch_halfEmpty hRaw⟩

end Work

end TableQuery
