import Mathlib.Data.List.Nodup
import Mathlib.Data.List.TakeWhile
import TableQuery.Csv.Writer
import TableQuery.Proofs.Answers

/-! Tables written as text and read back. Every record comes back, up to null characters, except for
a single field of blanks. A table comes back with its names, and with the storage types of its
fields. -/
namespace TableQuery.Csv

open List Scan Table

variable {s : String} {cs : List Char} {stage : Stage} {fields : List String} {n i : Nat}
  {rows : List (List String)} {t : Table}

/-- The state after some characters, and the records that end in them. -/
def scan (s : Scan) : List Char → Scan × List (List String)
  | [] => (s, [])
  | c :: rest =>
    let (next, done) := step s c
    let (last, records) := scan next rest
    (last, done.toList ++ records)

@[simp] theorem scan_nil (s : Scan) : scan s [] = (s, []) := rfl

theorem scan_cons (s : Scan) (c : Char) (rest : List Char) : scan s (c :: rest) =
      ((scan (step s c).1 rest).1, (step s c).2.toList ++ (scan (step s c).1 rest).2) := rfl

theorem scan_append (s : Scan) (cs ds : List Char) : scan s (cs ++ ds) =
    ((scan (scan s cs).1 ds).1, (scan s cs).2 ++ (scan (scan s cs).1 ds).2) := by
  induction cs generalizing s with
  | nil => simp
  | cons c rest ih => simp [scan_cons, ih]

/-- A text that leaves the reader at the start of a line is read as the records that end in it. -/
theorem recordsFrom_of_scan {s : Scan} {records : List (List String)}
    (h : scan s cs = (.fresh, records)) : recordsFrom s cs = .ok records := by
  induction cs generalizing s records with
  | nil =>
    obtain ⟨rfl, rfl⟩ := Prod.mk.inj h
    rfl
  | cons c rest ih =>
    rw [scan_cons] at h
    obtain ⟨hLast, rfl⟩ := Prod.mk.inj h
    have hRest := ih (Prod.ext hLast rfl)
    rw [recordsFrom]
    cases hDone : (step s c).2 <;> simp [hRest, hDone, bind, Except.bind, pure, Except.pure]

def doubled (cs : List Char) : List Char := cs.flatMap fun c => if c == '"' then ['"', '"'] else [c]

theorem toList_quoteField (cs : List Char) :
    (quoteField cs).toList = '"' :: (doubled cs ++ ['"']) := by
  simp [quoteField, doubled]

theorem scan_doubled (cs field : List Char) (record : List String) :
    scan ⟨.quoted, field, record⟩ (doubled cs) = (⟨.quoted, cs.reverse ++ field, record⟩, []) := by
  induction cs generalizing field with
  | nil => rfl
  | cons c rest ih =>
    have hChar : scan ⟨.quoted, field, record⟩ (if c == '"' then ['"', '"'] else [c]) =
        (⟨.quoted, c :: field, record⟩, []) := by
      by_cases hc : c = '"'
      · simp [hc, scan_cons, step, push]
      · simp [hc, scan_cons, step, push]
    have hText : doubled (c :: rest) = (if c == '"' then ['"', '"'] else [c]) ++ doubled rest := rfl
    rw [hText, scan_append, hChar]
    simp [ih]

def IsPlain (c : Char) : Prop := c ≠ ',' ∧ c ≠ '"' ∧ c ≠ '\n' ∧ c ≠ '\r'

theorem needsQuotes_eq_false_iff : needsQuotes cs = false ↔ ∀ c ∈ cs, IsPlain c := by
  simp [needsQuotes, IsPlain, and_assoc]

theorem scan_plain (h : ∀ c ∈ cs, IsPlain c) (field : List Char) (record : List String) :
    scan ⟨.field, field, record⟩ cs = (⟨.field, cs.reverse ++ field, record⟩, []) := by
  induction cs generalizing field with
  | nil => rfl
  | cons c rest ih =>
    obtain ⟨hComma, _, hLine, hReturn⟩ := h c mem_cons_self
    simp [scan_cons, step, hComma, hLine, hReturn, push,
      ih fun d hd => h d (mem_cons_of_mem c hd)]

/-- Whether all characters are blanks, so that they could be an empty line. -/
def areBlank (cs : List Char) : Bool := cs.all fun c => c == ' ' || c == '\t'

theorem scan_blankLine (h : ∀ c ∈ cs, IsPlain c) (field : List Char) (record : List String) :
    scan ⟨.blankLine, field, record⟩ cs =
      (⟨if areBlank cs then .blankLine else .field, cs.reverse ++ field, record⟩, []) := by
  induction cs generalizing field with
  | nil => rfl
  | cons c rest ih =>
    obtain ⟨hComma, _, hLine, hReturn⟩ := h c mem_cons_self
    have hRest : ∀ d ∈ rest, IsPlain d := fun d hd => h d (mem_cons_of_mem c hd)
    by_cases hc : c = ' ' ∨ c = '\t'
    · have hBlank : areBlank (c :: rest) = areBlank rest := by simp [areBlank, hc]
      rw [hBlank]
      simp [scan_cons, step, hLine, hReturn, hc, push, ih hRest]
    · have hBlank : areBlank (c :: rest) = false := by simp [areBlank, hc]
      rw [hBlank]
      simp [scan_cons, step, hComma, hLine, hReturn, hc, push, scan_plain hRest]

/-- A state in which the separator and the line end both end a field, the last one of `record`. -/
structure Closes (s : Scan) (record : List String) : Prop where
  comma : step s ',' = (⟨.fieldStart, [], record⟩, none)
  lineEnd : step s '\n' = (.fresh, some record.reverse)

theorem closes_of_stage (h : stage = .fieldStart ∨ stage = .field ∨ stage = .afterQuote)
    (field : List Char) (record : List String) :
    Closes ⟨stage, field, record⟩ (fieldText field.reverse :: record) := by
  constructor <;> rcases h with rfl | rfl | rfl <;> simp [step, endField, finished]

def readBack (s : String) : String := fieldText s.toList

theorem closes_reverse (h : stage = .fieldStart ∨ stage = .field ∨ stage = .afterQuote) (s : String)
    (record : List String) : Closes ⟨stage, s.toList.reverse, record⟩ (readBack s :: record) := by
  simpa [readBack] using closes_of_stage h s.toList.reverse record

/-- A field is read as it was written. -/
theorem scan_writeField (s : String) (record : List String) :
    ∃ s', scan ⟨.fieldStart, [], record⟩ (writeField s).toList = (s', []) ∧
      Closes s' (readBack s :: record) := by
  unfold writeField
  split
  · refine ⟨_, ?_, closes_reverse (.inr (.inr rfl)) s record⟩
    rw [toList_quoteField, scan_cons, scan_append]
    simp [step, scan_doubled, scan_cons]
  · rename_i hQuotes
    have hPlain := needsQuotes_eq_false_iff.1 (by simpa using hQuotes)
    cases hText : s.toList with
    | nil =>
      have hClosed := closes_reverse (.inl rfl) s record
      rw [hText] at hClosed
      exact ⟨_, rfl, hClosed⟩
    | cons c rest =>
      rw [hText] at hPlain
      obtain ⟨hComma, hQuote, hLine, hReturn⟩ := hPlain c mem_cons_self
      refine ⟨_, ?_, closes_reverse (.inr (.inl rfl)) s record⟩
      simp [hText, scan_cons, step, hComma, hQuote, hLine, hReturn, push,
        scan_plain fun d hd => hPlain d (mem_cons_of_mem c hd)]

theorem areBlank_eq_false_of_needsQuotes (h : needsQuotes cs = true) : areBlank cs = false := by
  obtain ⟨c, hc, hQuoted⟩ := any_eq_true.1 h
  rw [areBlank, all_eq_false]
  refine ⟨c, hc, ?_⟩
  simp only [Bool.or_eq_true, beq_iff_eq, or_assoc] at hQuoted
  rcases hQuoted with rfl | rfl | rfl | rfl <;> decide

/-- The first field of a line is read as it was written, but blanks at the end of the line are no
field. -/
theorem scan_firstField (s : String) : ∃ s', scan .fresh (writeField s).toList = (s', []) ∧
      step s' ',' = (⟨.fieldStart, [], [readBack s]⟩, none) ∧
      step s' '\n' = (.fresh, if areBlank s.toList then none else some [readBack s]) := by
  have hClosed {stage : Stage} (h : stage = .field ∨ stage = .afterQuote) :
      Closes ⟨stage, s.toList.reverse, []⟩ [readBack s] := closes_reverse (.inr h) s []
  unfold writeField
  split
  · rename_i hQuotes
    rw [areBlank_eq_false_of_needsQuotes hQuotes]
    refine ⟨_, ?_, (hClosed (.inr rfl)).comma, (hClosed (.inr rfl)).lineEnd⟩
    rw [toList_quoteField, scan_cons, scan_append]
    simp [step, startLine, fresh, scan_doubled, scan_cons]
  · rename_i hQuotes
    have hPlain := needsQuotes_eq_false_iff.1 (by simpa using hQuotes)
    cases hText : s.toList with
    | nil => exact ⟨.fresh, rfl, by simp [step, startLine, fresh, endField, readBack, hText], rfl⟩
    | cons c rest =>
      rw [hText] at hPlain
      obtain ⟨hComma, hQuote, hLine, hReturn⟩ := hPlain c mem_cons_self
      have hRest : ∀ d ∈ rest, IsPlain d := fun d hd => hPlain d (mem_cons_of_mem c hd)
      by_cases hc : c = ' ' ∨ c = '\t'
      · refine ⟨⟨if areBlank rest then .blankLine else .field, s.toList.reverse, []⟩, ?_, ?_, ?_⟩
        · simp [hText, scan_cons, step, startLine, fresh, hLine, hReturn, hc, push,
            scan_blankLine hRest]
        · split
          · simp [step, endField, readBack]
          · exact (hClosed (.inl rfl)).comma
        · have hBlank : areBlank (c :: rest) = areBlank rest := by simp [areBlank, hc]
          rw [hBlank]
          split
          · simp [step]
          · exact (hClosed (.inl rfl)).lineEnd
      · have hBlank : areBlank (c :: rest) = false := by simp [areBlank, hc]
        rw [hBlank]
        refine ⟨_, ?_, (hClosed (.inl rfl)).comma, (hClosed (.inl rfl)).lineEnd⟩
        simp [hText, scan_cons, step, startLine, fresh, hComma, hQuote, hLine, hReturn, hc, push,
          scan_plain hRest]

def restOfLine (fields : List String) : List Char :=
  fields.flatMap (fun s => ',' :: (writeField s).toList) ++ ['\n']

theorem restOfLine_cons (s : String) (fields : List String) :
    restOfLine (s :: fields) = ',' :: ((writeField s).toList ++ restOfLine fields) := by
  simp [restOfLine]

theorem scan_restOfLine (fields : List String) {s : Scan} {record : List String}
    (h : Closes s record) :
    scan s (restOfLine fields) = (.fresh, [record.reverse ++ fields.map readBack]) := by
  induction fields generalizing s record with
  | nil => simp [restOfLine, scan_cons, h.lineEnd]
  | cons f rest ih =>
    obtain ⟨s', hField, hClosed⟩ := scan_writeField f record
    rw [restOfLine_cons, scan_cons, h.comma, scan_append, hField, ih hClosed]
    simp

theorem toList_writeRecord (h : s :: fields ≠ [""]) :
    (writeRecord (s :: fields)).toList = (writeField s).toList ++ restOfLine fields := by
  have hLine : writeRecord (s :: fields) =
      String.intercalate "," ((s :: fields).map writeField) ++ "\n" := by
    unfold writeRecord
    split
    · rename_i hEmpty
      exact absurd hEmpty h
    · rfl
  have hRest (first : String) (rest : List String) :
      (String.intercalate "," ((first :: rest).map writeField) ++ "\n").toList =
        (writeField first).toList ++ restOfLine rest := by
    induction rest generalizing first with
    | nil => simp [restOfLine]
    | cons second rest ih =>
      have hNext := ih second
      simp only [map_cons, String.toList_append, String.toList_intercalate] at hNext ⊢
      rw [intercalate_cons_cons, append_assoc, append_assoc, hNext, restOfLine_cons]
      rfl
  rw [hLine, hRest]

def isSkipped : List String → Bool
  | [] => true
  | [s] => s != "" && areBlank s.toList
  | _ => false

theorem isSkipped_eq_false_iff (h : fields ≠ []) :
    isSkipped fields = false ↔ ∀ s, fields = [s] → s = "" ∨ areBlank s.toList = false := by
  match fields with
  | [] => exact absurd rfl h
  | [s] => simp [isSkipped, or_iff_not_imp_left]
  | _ :: _ :: _ => simp [isSkipped]

/-- The line of a record is read as this record. -/
theorem scan_writeRecord (fields : List String) : scan .fresh (writeRecord fields).toList =
      (.fresh, if isSkipped fields then [] else [fields.map readBack]) := by
  match fields with
  | [] => rfl
  | s :: rest =>
    by_cases hEmpty : s :: rest = [""]
    · rw [hEmpty]
      rfl
    · obtain ⟨s', hFirst, hComma, hEnd⟩ := scan_firstField s
      rw [toList_writeRecord hEmpty, scan_append, hFirst]
      cases rest with
      | nil =>
        have hSome : s ≠ "" := fun hs => hEmpty (by rw [hs])
        cases hBlank : areBlank s.toList <;>
          simp [restOfLine, scan_cons, hEnd, isSkipped, hBlank, hSome]
      | cons f more =>
        obtain ⟨s'', hField, hClosed⟩ := scan_writeField f [readBack s]
        rw [restOfLine_cons, scan_cons, hComma, scan_append, hField, scan_restOfLine more hClosed]
        simp [isSkipped]

/-- The lines of some records are read as these records, less those that look empty. -/
theorem scan_writeRecords (records : List (List String)) :
    scan .fresh (records.flatMap fun r => (writeRecord r).toList) =
      (.fresh, (records.filter fun r => !isSkipped r).map (map readBack)) := by
  induction records with
  | nil => rfl
  | cons r rest ih =>
    rw [flatMap_cons, scan_append, scan_writeRecord, ih]
    cases hSkipped : isSkipped r <;> simp [hSkipped]

/-- A name that a header keeps: it does not look empty, and no character in it is dropped. -/
structure KeptName (name : String) : Prop where
  notBlank : areBlank name.toList = false
  noNull : '\x00' ∉ name.toList
  noMark : name.toList.head? ≠ some '\ufeff'

theorem readBack_eq (h : '\x00' ∉ s.toList) : readBack s = s := by
  have hAll : ∀ c ∈ s.toList, (c != '\x00') = true := by
    intro c hc
    rw [bne_iff_ne]
    rintro rfl
    exact h hc
  rw [readBack, fieldText, takeWhile_eq_self_iff.2 hAll, String.ofList_toList]

theorem readBack_eq_self_iff : readBack s = s ↔ '\x00' ∉ s.toList := by
  refine ⟨fun h hNull => ?_, readBack_eq⟩
  have hTake : s.toList.takeWhile (fun c => c != '\x00') = s.toList := by
    rw [← String.toList_ofList (l := s.toList.takeWhile _)]
    exact congrArg String.toList h
  have hAll := takeWhile_eq_self_iff.1 hTake '\x00' hNull
  exact absurd hAll (by decide)

theorem KeptName.ne_empty {name : String} (h : KeptName name) : name ≠ "" := by
  rintro rfl
  exact absurd h.notBlank (by decide)

section Names

variable {names : List String}
variable {name : String} {counts : NameCounts}

theorem isSkipped_names (hNames : names ≠ []) (h : ∀ n ∈ names, KeptName n) :
    isSkipped names = false := by
  match names with
  | [] => exact absurd rfl hNames
  | [n] => simp [isSkipped, (h n mem_cons_self).notBlank]
  | _ :: _ :: _ => rfl

theorem map_readBack_names (h : ∀ n ∈ names, KeptName n) : names.map readBack = names :=
  (map_congr_left fun n hn => readBack_eq (h n hn).noNull).trans (map_id' names)

/-- A kept name is written with its first character, or with a quote. -/
theorem head?_writeField (h : KeptName name) (rest : List Char) :
    ((writeField name).toList ++ rest).head? ≠ some '\ufeff' := by
  unfold writeField
  split
  · rw [toList_quoteField]
    simp
  · cases hText : name.toList with
    | nil => exact absurd h.notBlank (by rw [hText]; decide)
    | cons c cs =>
      have hMark := h.noMark
      rw [hText] at hMark
      simpa using hMark

theorem timesGiven_cons_of_ne {other : String} (h : other ≠ name) (n : Nat) :
    timesGiven ((name, n) :: counts) other = timesGiven counts other := by
  have hOther : (other == name) = false := by simpa using h
  rw [timesGiven, lookup_cons, hOther, timesGiven]

/-- Names that are all different are final. -/
theorem settleNames_of_nodup (hNodup : names.Nodup) {positions : List Nat}
    (hPositions : positions.Nodup) (hIn : ∀ p ∈ positions, p < names.length)
    (hCounts : ∀ p ∈ positions, timesGiven counts (names[p]?.getD "") = 0) :
    settleNames names counts positions = names := by
  induction positions generalizing counts with
  | nil => rfl
  | cons p rest ih =>
    obtain ⟨hp, hRest⟩ := nodup_cons.1 hPositions
    have hLt := hIn p mem_cons_self
    have hName : names[p]?.getD "" = names[p] := by simp [hLt]
    have hFree : (timesGiven counts names[p] == 0) = true := by
      simpa [hName] using hCounts p mem_cons_self
    rw [settleNames, hName]
    simp only [hFree, if_true, set_getElem_self]
    refine ih hRest (fun q hq => hIn q (mem_cons_of_mem p hq)) fun q hq => ?_
    have hqLt := hIn q (mem_cons_of_mem p hq)
    have hNe : names[q]?.getD "" ≠ names[p] := by
      have hqp : q ≠ p := fun h => hp (h ▸ hq)
      simpa [hqLt, hNodup.getElem_inj_iff] using hqp
    rw [timesGiven_cons_of_ne hNe]
    exact hCounts q (mem_cons_of_mem p hq)

theorem columnNames_of_nodup (hNodup : names.Nodup) (hNames : ∀ n ∈ names, n ≠ "") :
    columnNames names = names := by
  have hSame : names.zipIdx.map (fun p => if p.1 == "" then unnamed p.2 else p.1) = names := by
    refine (map_congr_left fun p hp => ?_).trans (zipIdx_map_fst 0 names)
    have hNe := hNames p.1 (fst_mem_of_mem_zipIdx hp)
    simp [hNe]
  have hNamed : ∀ i ∈ range names.length, (names[i]?.getD "" != "") = true := by
    intro i hi
    have hLt := mem_range.1 hi
    simpa [hLt] using hNames names[i] (getElem_mem hLt)
  unfold columnNames
  refine (congrArg (fun ns => settleNames ns [] _) hSame).trans ?_
  rw [filter_eq_self.2 hNamed, filter_eq_nil_iff.2 fun i hi => by simp [hNamed i hi],
    append_nil]
  exact settleNames_of_nodup hNodup nodup_range (fun p hp => mem_range.1 hp) fun _ _ => rfl

end Names

theorem evenRows_eq (h : ∀ r ∈ rows, r.length = n) : evenRows n rows = .ok rows := by
  induction rows with
  | nil => rfl
  | cons r rest ih =>
    have hr := h r mem_cons_self
    have hRest := ih fun s hs => h s (mem_cons_of_mem r hs)
    simp [evenRows, hr, hRest, bind, Except.bind, pure, Except.pure]

theorem bodyRows_eq (h : ∀ r ∈ rows, r.length = n) : bodyRows n rows = .ok rows := by
  cases rows with
  | nil => rfl
  | cons r rest =>
    rw [bodyRows, h r mem_cons_self, Nat.max_self]
    exact evenRows_eq h

def fieldColumns (t : Table) : List (List String) :=
  t.columns.map fun c => (commonCells (mixesNumbers t) c.2).map entryText

def fieldRow (t : Table) (i : Nat) : List String := (fieldColumns t).map fun xs => xs[i]?.getD ""

theorem length_fieldRow (t : Table) (i : Nat) : (fieldRow t i).length = t.names.length := by
  simp [fieldRow, fieldColumns, names]

def readRows (t : Table) : List (List String) :=
  (((List.range t.height).map (fieldRow t)).filter fun r => !isSkipped r).map (List.map readBack)

theorem length_of_mem_readRows {r : List String} (h : r ∈ readRows t) :
    r.length = t.names.length := by
  obtain ⟨r, hr, rfl⟩ := mem_map.1 h
  obtain ⟨i, _, rfl⟩ := mem_map.1 (mem_of_mem_filter hr)
  rw [length_map, length_fieldRow]

theorem toList_write (t : Table) : (write t).toList =
      (t.names :: (range t.height).map (fieldRow t)).flatMap fun r => (writeRecord r).toList := by
  have hText : write t = writeRecord t.names ++
      String.join ((range t.height).map fun i => writeRecord (fieldRow t i)) := by
    unfold write
    dsimp only
    congr 3
    funext i
    simp only [fieldRow, fieldColumns, map_map]
    congr 1
    refine map_congr_left fun c _ => ?_
    simp only [Function.comp_apply, getElem?_map]
    cases (commonCells (mixesNumbers t) c.2)[i]? <;> rfl
  rw [hText]
  simp [flatMap_map]

/-- A text without a mark in front is read from its first character on. -/
theorem records_eq (h : s.toList.head? ≠ some '\ufeff') :
    records s = recordsFrom .fresh s.toList := by
  unfold records
  split
  · rename_i hText
    exact absurd (by rw [hText]; rfl) h
  · rfl

theorem records_write (h : (write t).toList.head? ≠ some '\ufeff') :
    records (write t) = .ok (((t.names :: (range t.height).map (fieldRow t)).filter
      fun r => !isSkipped r).map (map readBack)) := by
  rw [records_eq h, toList_write]
  exact recordsFrom_of_scan (scan_writeRecords _)

/-- The text of a table without columns has no records at all. -/
theorem read_write_of_nil (h : t.columns = []) : read (write t) = .error .badValue := by
  have hNames : t.names = [] := by simp [names, h]
  have hRow (i : Nat) : fieldRow t i = [] := by simp [fieldRow, fieldColumns, h]
  have hHead : (write t).toList.head? ≠ some '\ufeff' := by
    rw [toList_write, hNames]
    simp [writeRecord]
  have hRecords : records (write t) = .ok [] := by
    rw [records_write hHead, hNames, filter_eq_nil_iff.2, map_nil]
    intro r hr
    have hEmpty : r = [] := by
      rcases mem_cons.1 hr with rfl | hr
      · rfl
      · obtain ⟨i, _, rfl⟩ := mem_map.1 hr
        exact hRow i
    rw [hEmpty]
    decide
  rw [read, hRecords]
  rfl

/-- The text of a table with columns is read as its names and the records that do not look empty. -/
theorem read_write (hColumns : t.columns ≠ []) (hNodup : t.names.Nodup)
    (hNames : ∀ n ∈ t.names, KeptName n) :
    read (write t) =
      .ok ⟨Column.freshLabels (readRows t).length,
        t.names.zipIdx.map fun (n, i) => (n, typed (columnFields (readRows t) i))⟩ := by
  have hSome : t.names ≠ [] := by simpa [names] using hColumns
  have hHead : (write t).toList.head? ≠ some '\ufeff' := by
    obtain ⟨first, rest, hFirst⟩ := exists_cons_of_ne_nil hSome
    have hKept := hNames first (by simp [hFirst])
    have hLine : first :: rest ≠ [""] := fun h => hKept.ne_empty (cons.inj h).1
    rw [toList_write, hFirst, flatMap_cons, toList_writeRecord hLine, append_assoc]
    exact head?_writeField hKept _
  have hRecords : records (write t) = .ok (t.names :: readRows t) := by
    rw [records_write hHead, filter_cons_of_pos (by simp [isSkipped_names hSome hNames]),
      map_cons, map_readBack_names hNames]
    rfl
  have hRows : bodyRows t.names.length (readRows t) = .ok (readRows t) :=
    bodyRows_eq fun r hr => length_of_mem_readRows hr
  have hSettled := columnNames_of_nodup hNodup fun n hn => (hNames n hn).ne_empty
  rw [read, hRecords]
  simp only [bind, Except.bind, hRows, hSettled]
  cases hCases : readRows t with
  | nil => simp [pure, Except.pure]
  | cons r rest =>
    have hWidth : r.length = t.names.length := length_of_mem_readRows (t := t) (by simp [hCases])
    simp [hWidth, pure, Except.pure]

@[simp] theorem length_commonCells (asDoubles : Bool) (d : Data) :
    (commonCells asDoubles d).length = d.length := by
  unfold commonCells
  split
  · split
    · simp [Data.length]
    · simp
  · simp

/-- The fields of a column are read back one by one if no line is taken for an empty one. -/
theorem columnFields_readRows (ht : t.Rectangular)
    (hLines : ∀ i < t.height, isSkipped (fieldRow t i) = false) (hi : i < t.columns.length) :
    columnFields (readRows t) i =
      (commonCells (mixesNumbers t) t.columns[i].2).map fun c => readBack (entryText c) := by
  have hKept : ((range t.height).map (fieldRow t)).filter (fun r => !isSkipped r) =
      (range t.height).map (fieldRow t) := by
    refine filter_eq_self.2 fun r hr => ?_
    obtain ⟨j, hj, rfl⟩ := mem_map.1 hr
    simp [hLines j (mem_range.1 hj)]
  have hLength : t.columns[i].2.length = t.height := ht _ (getElem_mem hi)
  rw [columnFields, readRows, hKept]
  refine ext_getElem (by simp [hLength]) fun j hj _ => ?_
  have hj : j < t.columns[i].2.length := by simpa [hLength] using hj
  simp [fieldRow, fieldColumns, hi, hj]

/-- A table is read back with a column for each of its columns if no line is taken for an empty one.
-/
theorem read_write_of_lines (ht : t.Rectangular) (hColumns : t.columns ≠ [])
    (hNodup : t.names.Nodup) (hNames : ∀ n ∈ t.names, KeptName n)
    (hLines : ∀ i < t.height, isSkipped (fieldRow t i) = false) :
    read (write t) = .ok ⟨Column.freshLabels t.height, t.columns.map fun c =>
      (c.1, typed ((commonCells (mixesNumbers t) c.2).map fun x => readBack (entryText x)))⟩ := by
  have hHeight : (readRows t).length = t.height := by
    rw [readRows, length_map, filter_eq_self.2, length_map, length_range]
    intro r hr
    obtain ⟨j, hj, rfl⟩ := mem_map.1 hr
    simp [hLines j (mem_range.1 hj)]
  rw [read_write hColumns hNodup hNames, hHeight]
  congr 2
  refine ext_getElem (by simp [names]) fun i hi _ => ?_
  have hi : i < t.columns.length := by simpa [names] using hi
  simp [names, columnFields_readRows ht hLines hi]

/-- A line that is taken for an empty one is missing among the rows that are read. -/
theorem length_readRows_lt (hi : i < t.height) (h : isSkipped (fieldRow t i) = true) :
    (readRows t).length < t.height := by
  have hLess := length_filter_lt_length_iff_exists (p := fun r => !isSkipped r)
    (l := (range t.height).map (fieldRow t))
  rw [readRows, length_map]
  refine lt_of_lt_of_eq (hLess.2 ⟨fieldRow t i, ?_, by simp [h]⟩) (by simp)
  exact mem_map_of_mem (mem_range.2 hi)

end TableQuery.Csv
