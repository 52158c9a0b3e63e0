import TableQuery.Proofs.Projection

/-! The names of columns under `SELECT *`. A star reads each name as if it was written in a query.
So a name comes back if it is one part, or two plain parts with a dot between them. -/
namespace TableQuery

open List Table

open Sql

namespace Sql

variable {parts : List String} {name : String}

/-- What is written without backquotes has plain parts only. -/
theorem writePart_eq_of_writeParts (h : '`' ∉ (writeParts parts).toList) :
    ∀ part ∈ parts, writePart part = part := by
  have hPart {part : String} (hFree : '`' ∉ (writePart part).toList) : writePart part = part := by
    unfold writePart at hFree ⊢
    dsimp only at hFree ⊢
    split
    · rfl
    · rename_i hQuoted
      rw [if_neg hQuoted] at hFree
      exact absurd (by simp) hFree
  induction parts with
  | nil => nofun
  | cons part rest ih =>
    cases rest with
    | nil =>
      exact forall_mem_singleton.2 (hPart h)
    | cons other rest =>
      rw [writeParts, map_cons, map_cons, String.intercalate_cons_cons, ← map_cons] at h
      simp only [String.toList_append, mem_append, not_or] at h
      exact forall_mem_cons.2 ⟨hPart h.1.1, ih h.2⟩

theorem writeParts_pair (p q : String) : writeParts [p, q] = writePart p ++ "." ++ writePart q := by
  rw [writeParts, map_cons, map_singleton, String.intercalate_cons_cons,
    String.intercalate_singleton]

/-- Two plain parts with a dot between them are read as they were written. -/
theorem splitName_qualified {p q : String} (hp : writePart p = p) (hq : writePart q = q) :
    splitName (p ++ "." ++ q) = [p, q] := by
  have hWholeP := (isSimple_of_writePart hp).isWhole
  have hWholeQ := (isSimple_of_writePart hq).isWhole
  have hChars : (p ++ "." ++ q).toList = p.toList ++ '.' :: q.toList := by simp
  obtain ⟨fuel, hFuel⟩ : ∃ fuel, (p.toList ++ '.' :: q.toList).length = fuel + 1 + 1 := by
    have hLength := length_pos_iff.2 hWholeP.nonempty
    exact ⟨p.toList.length + q.toList.length - 1, by simp; omega⟩
  have hRest : splitPieces (fuel + 1 + 1) ('.' :: q.toList) = [q.toList] := by
    have hLast :=
      splitPieces_piece hWholeQ.nonempty hWholeQ.undotted hWholeQ.head takeWhile_nil fuel
    rw [append_nil, splitPieces_nil] at hLast
    exact hLast
  rw [splitName, hChars, hFuel,
    splitPieces_piece hWholeP.nonempty hWholeP.undotted hWholeP.head
      (takeWhile_cons_of_neg (by simp)),
    hRest, map_cons, map_singleton, hWholeP.stripBackquotes_eq, hWholeQ.stripBackquotes_eq,
    String.ofList_toList, String.ofList_toList]

/-- A name that a star shows as it is: one part, or two plain parts with a dot between them. -/
def ComesBack (name : String) : Prop :=
  IsWhole name ∨ ∃ p q, writePart p = p ∧ writePart q = q ∧ name = p ++ "." ++ q

theorem bareName_eq_self (h : '`' ∉ name.toList) : bareName name = name := by
  unfold bareName
  rw [if_neg]
  intro hQuoted
  simp only [Bool.and_eq_true, Option.any_eq_true, beq_iff_eq] at hQuoted
  obtain ⟨⟨⟨c, hHead, rfl⟩, -⟩, -⟩ := hQuoted
  exact h (mem_of_mem_head? hHead)

/-- A name that is shown as it is. -/
theorem ComesBack.bareName_writeParts (h : ComesBack name) :
    bareName (writeParts (splitName name)) = name := by
  rcases h with hWhole | ⟨p, q, hp, hq, rfl⟩
  · rw [hWhole.splitName_eq, hWhole.bareName_writeParts]
  · rw [splitName_qualified hp hq, writeParts_pair, hp, hq]
    refine bareName_eq_self ?_
    simp [(isSimple_of_writePart hp).2.2, (isSimple_of_writePart hq).2.2]

/-- Only such a name is shown for one part or two. -/
theorem comesBack_of_bareName (hSome : name ≠ "") (hFree : '`' ∉ name.toList)
    (hParts : (∃ p, parts = [p]) ∨ ∃ p q, parts = [p, q])
    (hName : bareName (writeParts parts) = name) : ComesBack name := by
  unfold bareName at hName
  dsimp only at hName
  split at hName
  · rename_i hQuoted
    rw [Bool.and_eq_true] at hQuoted
    have hUndotted : '.' ∉ (writeParts parts).toList := by simpa using hQuoted.2
    refine .inl (IsSimple.isWhole ⟨hSome, fun hDot => hUndotted ?_, hFree⟩)
    rw [← hName, String.toList_ofList, mem_reverse] at hDot
    have hInner := mem_reverse.1 ((dropWhile_sublist _).subset hDot)
    exact (dropWhile_sublist _).subset hInner
  · have hPlain := writePart_eq_of_writeParts (hName ▸ hFree : '`' ∉ (writeParts parts).toList)
    rcases hParts with ⟨p, rfl⟩ | ⟨p, q, rfl⟩
    · have hp := hPlain p mem_cons_self
      rw [writeParts, map_singleton, hp] at hName
      exact .inl (hName ▸ (isSimple_of_writePart hp).isWhole)
    · have hp := hPlain p mem_cons_self
      have hq := hPlain q (mem_cons_of_mem _ mem_cons_self)
      rw [writeParts_pair, hp, hq] at hName
      exact .inr ⟨p, q, hp, hq, hName.symm⟩

end Sql

/-- Data that shows the entries of other data, and shows them exactly where these stay exact. -/
def Data.ShownBy (d e : Data) : Prop :=
  List.Forall₂ Cell.ShownAs d.cells e.cells ∧
    (d.StaysExact → List.Forall₂ Cell.SameValue d.cells e.cells)

theorem Data.shownBy_anew (d : Data) : d.ShownBy d.anew :=
  ⟨d.forall₂_shownAs_anew, StaysExact.forall₂_anew⟩

theorem Data.ShownBy.length_eq {d e : Data} (h : d.ShownBy e) : d.length = e.length := by
  rw [← d.length_cells, ← e.length_cells]
  exact h.1.length_eq

namespace Table

variable {t : Table}

/-- A table that shows another: the same names in the same order, and under each the same entries in
the same rows. -/
structure Shows (u t : Table) : Prop where
  names : u.names = t.names
  height : u.height = t.height
  columns : List.Forall₂ (fun c c' => c.2.ShownBy c'.2) t.columns u.columns

/-- Where the names are different, a name that is there has one column. -/
theorem exists_named_of_has (ht : t.names.Nodup) {name : String} (h : t.has name = true) :
    ∃ d, t.named name = [d] := by
  obtain ⟨c, hc, rfl⟩ := mem_map.1 (mem_names_iff.2 (has_eq_true_iff.1 h))
  exact ⟨c.2, named_of_nodup ht hc⟩

/-- Columns under new names show a table exactly if each shows the column in its place under the
bare name. -/
theorem exists_shows_columns_iff (hRectangular : t.Rectangular) (hColumns : t.columns ≠ [])
    {name : String → String} {column : String → Column} {origin : String → Option Origin} :
    (∃ u, ofValues (columnValues name column origin t.names) = .ok u ∧ u.bareNames.Shows t) ↔
      ∀ c ∈ t.columns, bareName (name c.1) = c.1 ∧ c.2.ShownBy (column c.1).data.anew := by
  have hSome : t.names ≠ [] := mt map_eq_nil_iff.1 hColumns
  have hSame (hBare : ∀ n ∈ t.names, bareName (name n) = n) :
      ∀ m ∈ t.names, ∀ n ∈ t.names, name m = name n → (column m).data = (column n).data := by
    intro m hm n hn hName
    rw [← hBare m hm, hName, hBare n hn]
  have hShows {height : Nat} :
      Forall₂ (fun c c' => c.2.ShownBy c'.2) t.columns
        (bareNames ⟨Column.freshLabels height,
          t.names.map fun n => (name n, (column n).data.anew)⟩).columns ↔
        ∀ c ∈ t.columns, c.2.ShownBy (column c.1).data.anew := by
    simp only [bareNames, names, map_map, forall₂_map_right_iff, forall₂_same]
    rfl
  constructor
  · rintro ⟨u, hTable, hu⟩
    have hBare : ∀ n ∈ t.names, bareName (name n) = n := by
      have hShown := hu.names
      rw [names_bareNames, names_of_ofValues_columns hTable, map_map] at hShown
      exact map_eq_map_iff.1 (hShown.trans (map_id _).symm)
    obtain ⟨first, hFirst⟩ := exists_mem_of_ne_nil _ hSome
    have hLength : ∀ n ∈ t.names, (column n).data.length = (column first).data.length := by
      intro n hn
      by_contra hOther
      rw [ofValues_columns_error (hSame hBare) hn hFirst hOther] at hTable
      cases hTable
    rw [ofValues_columns (hSame hBare) hLength fun hNone => absurd hNone hSome] at hTable
    cases hTable
    exact fun c hc => ⟨hBare c.1 (mem_map_of_mem hc), hShows.1 hu.columns c hc⟩
  · intro h
    have hBare : ∀ n ∈ t.names, bareName (name n) = n := forall_mem_map.2 fun c hc => (h c hc).1
    have hLength : ∀ n ∈ t.names, (column n).data.length = t.height := by
      refine forall_mem_map.2 fun c hc => ?_
      rw [← Data.length_anew, ← (h c hc).2.length_eq, hRectangular c hc]
    refine ⟨_, ofValues_columns (hSame hBare) hLength fun hNone => absurd hNone hSome, ?_, ?_, ?_⟩
    · rw [names_bareNames, names, map_map, map_map]
      exact (map_congr_left hBare).trans (map_id _)
    · exact Column.length_freshLabels _
    · exact hShows.2 fun c hc => (h c hc).2

end Table

namespace Query

open Work

section Stars

variable {v : Workspace} {i : Nat}
variable {parts names : List String} {read : List String → Option Value}

theorem toOption_eq_some_iff {ε α : Type} {x : Except ε α} {a : α} :
    x.toOption = some a ↔ x = .ok a := by
  cases x <;> simp [Except.toOption]

/-- A reference reads a column exactly if its reading is that column. -/
theorem reads_iff_reading {d : Data} :
    Reads v (.frame i) parts d ↔
      ∃ c origin, reading true v i parts = some (.column c origin) ∧ c.data = d := by
  have hAnswer := (gives_columnOf true v i parts v ⟨rfl, rfl⟩).2
  constructor
  · rintro ⟨c, origin, v', hRun, hData⟩
    rw [evalExpr] at hRun
    rw [hRun] at hAnswer
    exact ⟨c.nameless, origin, hAnswer.symm, hData⟩
  · rintro ⟨c, origin, hReading, hData⟩
    rcases hRun : Work.run (columnOf parts (.frame i)) v with
      ⟨_ | value, v'⟩ <;> rw [hRun, hReading] at hAnswer
    · cases hAnswer
    · cases value with
      | column c' origin' =>
        cases hAnswer
        refine ⟨c', origin', v', ?_, hData⟩
        exact hRun
      | _ => cases hAnswer

/-- Where the columns of the tables have different names, all that is read is a column. -/
theorem exists_reads_of_reading (hNames : (v.tableAt i).names.Nodup)
    (hScope : ∀ name j, v.catalog.scope.lookup name = some (.frame j) → (v.tableAt j).names.Nodup)
    {value : Value} (h : reading true v i parts = some value) :
    ((∃ p, parts = [p]) ∨ ∃ p q, parts = [p, q]) ∧ ∃ d, Reads v (.frame i) parts d := by
  have hStored {j : Nat} {name : String} (hNodup : (v.tableAt j).names.Nodup)
      (hHas : (v.tableAt j).has name = true)
      (hReading : reading true v i parts = some (stored true v j name)) :
      ∃ d, Reads v (.frame i) parts d := by
    obtain ⟨d, hd⟩ := exists_named_of_has hNodup hHas
    rw [stored, hd] at hReading
    exact ⟨d, reads_iff_reading.2 ⟨_, _, hReading, rfl⟩⟩
  match parts with
  | [] => cases h
  | [name] =>
    refine ⟨.inl ⟨name, rfl⟩, ?_⟩
    rw [reading] at h
    split at h
    · exact hStored hNames ‹_› (if_pos ‹_›)
    · cases h
  | [table, column] =>
    refine ⟨.inr ⟨table, column, rfl⟩, ?_⟩
    rw [reading] at h
    by_cases hOwn : (v.tableAt i).has (table ++ "." ++ column) = true
    · exact hStored hNames hOwn (if_pos hOwn)
    · rw [if_neg hOwn] at h
      cases hLookup : v.catalog.scope.lookup table with
      | none =>
        rw [hLookup] at h
        cases h
      | some r =>
        rw [hLookup] at h
        cases r with
        | frame j =>
          dsimp only at h
          by_cases hHas : (v.tableAt j).has column = true
          · refine hStored (hScope _ _ hLookup) hHas ?_
            rw [reading, if_neg hOwn, hLookup]
            exact if_pos hHas
          · rw [if_neg hHas] at h
            cases h
        | _ => cases h
  | _ :: _ :: _ :: _ => cases h

/-- What a star stands for is known once each name of it has a reading. -/
theorem exists_reading_of_starOf {values : List (String × Value)}
    (h : starOf read names = some values) :
    ∀ name ∈ names, name ≠ "" ∧ ∃ value, read (splitName name) = some value := by
  induction names generalizing values with
  | nil => nofun
  | cons name rest ih =>
    rw [starOf] at h
    split at h
    · cases h
    · rename_i hSome
      obtain ⟨value, hValue, h⟩ := Option.bind_eq_some_iff.1 h
      obtain ⟨others, hOthers, rfl⟩ := Option.map_eq_some_iff.1 h
      exact forall_mem_cons.2 ⟨⟨by simpa using hSome, value, hValue⟩, ih hOthers⟩

theorem starOf_columns {column : String → Column} {origin : String → Option Origin}
    (h : ∀ name ∈ names, name ≠ "" ∧
      read (splitName name) = some (.column (column name) (origin name))) :
    starOf read names =
      some (columnValues (fun name => writeParts (splitName name)) column origin names) := by
  induction names with
  | nil => rfl
  | cons name rest ih =>
    obtain ⟨⟨hSome, hRead⟩, hRest⟩ := forall_mem_cons.1 h
    rw [starOf, if_neg (by simpa using hSome), hRead, ih hRest]
    rfl

/-- A star makes a table of what its names read. -/
theorem toOption_targetTable_star :
    (Work.run (targetTable [.star {}] [] none (.frame i)) v).1.toOption =
      (starOf (reading true v i) (v.tableAt i).names).bind
        fun values => (ofValues values).toOption := by
  have hStar : Work.run (starColumns (.frame i) [.star {}]) v =
      (.ok (some (v.tableAt i).names), v) := rfl
  have hTargets : evalTargets (.frame i) (some (v.tableAt i).names) [.star {}] =
      starTargets (.frame i) (v.tableAt i).names := by
    rw [evalTargets, evalTargets]
    · simp
    · rfl
  have hGives : Gives v id
      (starTargets (.frame i) (v.tableAt i).names >>= fun values => lift (ofValues values))
      ((starOf (reading true v i) (v.tableAt i).names).bind
        fun values => (ofValues values).toOption.map id) := by
    refine (gives_starTargets i _).bind fun values _ _ _ => ?_
    rw [ofValues_nameless]
    exact gives_lift v id _
  rw [targetTable, if_pos isEmpty_nil, run_bind_ok hStar, hTargets]
  simpa only [Option.map_id, id] using (hGives v ⟨rfl, rfl⟩).2

/-- A star shows a table exactly if each name reads a column that is called so and shows what is
under the name. -/
theorem exists_shows_star_iff (hNames : (v.tableAt i).names.Nodup)
    (hRectangular : (v.tableAt i).Rectangular) (hColumns : (v.tableAt i).columns ≠ [])
    (hScope : ∀ name j, v.catalog.scope.lookup name = some (.frame j) → (v.tableAt j).names.Nodup) :
    (∃ u, (Work.run (targetTable [.star {}] [] none (.frame i)) v).1.toOption = some u ∧
      u.bareNames.Shows (v.tableAt i)) ↔
      ∀ c ∈ (v.tableAt i).columns, bareName (writeParts (splitName c.1)) = c.1 ∧
        ∃ d, Reads v (.frame i) (splitName c.1) d ∧ c.2.ShownBy d.anew := by
  have : Nonempty Column := ⟨⟨[], none, .objects []⟩⟩
  rw [toOption_targetTable_star]
  by_cases hRead : ∀ name ∈ (v.tableAt i).names, ∃ c origin,
      name ≠ "" ∧ reading true v i (splitName name) = some (.column c origin)
  · choose! column origin hColumn using hRead
    have hReads {c : String × Data} (hc : c ∈ (v.tableAt i).columns) :
        (∃ d, Reads v (.frame i) (splitName c.1) d ∧ c.2.ShownBy d.anew) ↔
          c.2.ShownBy (column c.1).data.anew := by
      simp only [reads_iff_reading, (hColumn _ (mem_map_of_mem hc)).2]
      simp
    simp only [starOf_columns hColumn, Option.bind_some, toOption_eq_some_iff]
    rw [exists_shows_columns_iff hRectangular hColumns]
    exact forall₂_congr fun c hc => and_congr_right fun _ => (hReads hc).symm
  · refine iff_of_false (fun h => hRead ?_) fun h => hRead (forall_mem_map.2 fun c hc => ?_)
    · obtain ⟨u, hu, -⟩ := h
      obtain ⟨values, hValues, -⟩ := Option.bind_eq_some_iff.1 hu
      intro name hName
      obtain ⟨hSome, value, hValue⟩ := exists_reading_of_starOf hValues name hName
      obtain ⟨-, d, hReads⟩ := exists_reads_of_reading hNames hScope hValue
      obtain ⟨c, origin, hColumn, -⟩ := reads_iff_reading.1 hReads
      exact ⟨c, origin, hSome, hColumn⟩
    · obtain ⟨-, d, hReads, -⟩ := h c hc
      obtain ⟨column, origin, hColumn, -⟩ := reads_iff_reading.1 hReads
      refine ⟨column, origin, fun hEmpty => ?_, hColumn⟩
      rw [hEmpty] at hColumn
      cases hColumn

end Stars

/-- A name that comes back reads its own column. -/
theorem reads_of_comesBack {v : Workspace} {i : Nat} (hNames : (v.tableAt i).names.Nodup)
    {c : String × Data} (hc : c ∈ (v.tableAt i).columns) (h : ComesBack c.1) :
    Reads v (.frame i) (splitName c.1) c.2 := by
  have hNamed := named_of_nodup hNames hc
  rcases h with hWhole | ⟨p, q, hp, hq, hName⟩
  · rw [hWhole.splitName_eq]
    have hRun := run_columnOf_simple hNamed
    exact ⟨_, _, v, hRun, rfl⟩
  · rw [hName] at hNamed ⊢
    rw [splitName_qualified hp hq]
    exact reads_qualified_iff.2 (.inl hNamed)

/-- `SELECT *` shows the rows of FROM exactly if all their names come back: one part, or two plain
parts with a dot between them. A name with a backquote may be read as that of another column. -/
theorem star_shows_table_iff {source : Option Node} {w v : Workspace} {i : Nat}
    (hFrom : Work.run (evalFrom source) w = (.ok (.frame i), v))
    (hNames : (v.tableAt i).names.Nodup) (hRectangular : (v.tableAt i).Rectangular)
    (hColumns : (v.tableAt i).columns ≠ [])
    (hScope : ∀ name j, v.catalog.scope.lookup name = some (.frame j) → (v.tableAt j).names.Nodup) :
    (∃ u, (Work.run (evalSelect { targets := [.star {}], source }) w).1 = .ok u ∧
      u.Shows (v.tableAt i)) ↔
      ∀ c ∈ (v.tableAt i).columns, ComesBack c.1 ∨
        '`' ∈ c.1.toList ∧ bareName (writeParts (splitName c.1)) = c.1 ∧
        ∃ d, Reads v (.frame i) (splitName c.1) d ∧ c.2.ShownBy d.anew := by
  have hAnswer : (∃ u, (run (evalSelect { targets := [.star {}], source }) w).1 = .ok u ∧
      u.Shows (v.tableAt i)) ↔
      ∃ u, (run (targetTable [.star {}] [] none (.frame i)) v).1.toOption = some u ∧
        u.bareNames.Shows (v.tableAt i) := by
    rw [evalSelect_eq_afterFrom, run_bind_ok hFrom, run_afterFrom_targets rfl]
    rcases run (targetTable [.star {}] [] none (.frame i)) v with
      ⟨_ | t, v'⟩ <;> simp [Except.toOption]
  rw [hAnswer, exists_shows_star_iff hNames hRectangular hColumns hScope]
  refine forall₂_congr fun c hc => ⟨fun h => ?_, fun h => ?_⟩
  · by_cases hQuote : '`' ∈ c.1.toList
    · exact .inr ⟨hQuote, h⟩
    · obtain ⟨hBare, d, hReads, -⟩ := h
      obtain ⟨column, origin, hReading, -⟩ := reads_iff_reading.1 hReads
      have hSome : c.1 ≠ "" := by
        intro hEmpty
        rw [hEmpty] at hReading
        cases hReading
      exact .inl (comesBack_of_bareName hSome hQuote
        (exists_reads_of_reading hNames hScope hReading).1 hBare)
  · rcases h with hBack | ⟨-, h⟩
    · exact ⟨hBack.bareName_writeParts, c.2, reads_of_comesBack hNames hc hBack, c.2.shownBy_anew⟩
    · exact h

def rowsUnder (names : List String) : Table :=
  ⟨Column.freshLabels 2, names.map fun name => (name, .ints .int64 [1, 2])⟩

/-- A star over names with blanks, dots and backquotes. -/
theorem star_shows_table_dotted :
    ∃ u,
      (Work.run (evalSelect (starFrom "t"))
        (.ofTables [("t", rowsUnder ["a b", "c.d", "e`f"])])).1 = .ok u ∧
      u.Shows (rowsUnder ["a b", "c.d", "e`f"]) := by
  let w : Workspace := .ofTables [("t", rowsUnder ["a b", "c.d", "e`f"])]
  have hFrom : run (evalFrom (some (.name ["t"] {}))) w =
      (.ok (.frame 0), (run (evalFrom (some (.name ["t"] {}))) w).2) := Prod.ext rfl rfl
  have hNames : (rowsUnder ["a b", "c.d", "e`f"]).names.Nodup := by decide
  refine (star_shows_table_iff hFrom hNames ?_ (cons_ne_nil _ _) fun name j hLookup => ?_).2 ?_
  · exact forall_mem_map.2 fun _ _ => rfl
  · change lookup name [("t", Relation.frame 0)] = _ at hLookup
    rw [lookup_cons] at hLookup
    split at hLookup
    · cases hLookup
      exact hNames
    · cases hLookup
  · refine forall_mem_map.2
      (forall_mem_cons.2 ⟨?_, forall_mem_cons.2 ⟨?_, forall_mem_singleton.2 ?_⟩⟩)
    · exact .inl (.inl ⟨by decide, by decide, by decide, by decide⟩)
    · exact .inl (.inr ⟨"c", "d", rfl, rfl, rfl⟩)
    · exact .inl (.inl ⟨by decide, by decide, by decide, by decide⟩)

/-- A star does not find a name of three parts. -/
theorem star_misses_three_parts :
    (Work.run (evalSelect (starFrom "t")) (.ofTables [("t", rowsUnder ["a.b.c"])])).1 =
      .error (.query (.tooManyParts ["a", "b", "c"])) := rfl

end Query

end TableQuery
