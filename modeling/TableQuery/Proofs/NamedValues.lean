import TableQuery.Proofs.OutputNames

/-! The table of named values. Of all values of one name the last one that is no column counts, or
the last column if there is none. A value that is no column makes a row where there is none. -/
namespace TableQuery

open List Table

namespace Value

variable {v : Value}

def isColumn : Value → Bool
  | .column _ _ => true
  | _ => false

/-- A value that fits `n` rows: a scalar that is no list, or a column with an entry for each of
them. -/
def Fits (n : Nat) : Value → Prop
  | .scalar (.list _) => False
  | .scalar _ => True
  | .column c _ => c.length = n
  | .table _ => False

/-- The column of an answer that shows the value in `n` rows. Its type is the one that its entries
have on their own. -/
def shownIn (n : Nat) : Value → Data
  | .column c _ => c.data.anew
  | v => Data.infer (List.replicate n v.toCell)

@[simp] theorem isColumn_column (c : Column) (origin : Option Origin) :
    (Value.column c origin).isColumn = true := rfl

theorem not_column_of_isColumn (h : v.isColumn = false) (c : Column) (origin : Option Origin) :
    v ≠ .column c origin := by
  rintro rfl
  cases h

theorem Fits.length_shownIn {n : Nat} (h : v.Fits n) : (v.shownIn n).length = n := by
  cases v with
  | scalar c => simp [shownIn]
  | column c origin => exact (Data.length_anew c.data).trans h
  | table t => exact h.elim

end Value

section LastNamed

variable {α β : Type}

/-- The last value of a name. -/
def lastNamed? (pairs : List (String × α)) (name : String) : Option α :=
  (pairs.reverse.find? (·.1 == name)).map (·.2)

theorem lastNamed?_append (xs ys : List (String × α)) (name : String) :
    lastNamed? (xs ++ ys) name = (lastNamed? ys name).or (lastNamed? xs name) := by
  rw [lastNamed?, reverse_append, find?_append, Option.map_or]
  rfl

theorem lastNamed?_singleton (p : String × α) (name : String) :
    lastNamed? [p] name = if p.1 = name then some p.2 else none := by
  by_cases hName : p.1 = name <;> simp [lastNamed?, hName]

theorem lastNamed?_map (f : α → β) (pairs : List (String × α)) (name : String) :
    lastNamed? (pairs.map fun p => (p.1, f p.2)) name = (lastNamed? pairs name).map f := by
  rw [lastNamed?, ← map_reverse, find?_map, Option.map_map, lastNamed?, Option.map_map]
  rfl

theorem mem_of_lastNamed? {pairs : List (String × α)} {name : String} {a : α}
    (h : lastNamed? pairs name = some a) : (name, a) ∈ pairs := by
  obtain ⟨p, hp, rfl⟩ := Option.map_eq_some_iff.1 h
  have hName := find?_some hp
  obtain rfl := beq_iff_eq.1 hName
  exact mem_reverse.1 (mem_of_find?_eq_some hp)

theorem exists_lastNamed? {pairs : List (String × α)} {p : String × α} (hp : p ∈ pairs) :
    ∃ a, lastNamed? pairs p.1 = some a := by
  cases hFound : pairs.reverse.find? (·.1 == p.1) with
  | some q => exact ⟨q.2, by rw [lastNamed?, hFound, Option.map_some]⟩
  | none => exact absurd (beq_self_eq_true p.1) (find?_eq_none.1 hFound p (mem_reverse.2 hp))

end LastNamed

namespace Table

section SetColumn

variable {t : Table} {name other : String} {d : Data}

theorem labels_setColumn (t : Table) (name : String) (d : Data) :
    (t.setColumn name d).labels = t.labels := by
  unfold setColumn
  split <;> rfl

theorem height_setColumn (t : Table) (name : String) (d : Data) :
    (t.setColumn name d).height = t.height :=
  congrArg length (labels_setColumn t name d)

/-- The columns of a name after a column was set. -/
theorem named_setColumn (t : Table) (name : String) (d : Data) (other : String) :
    (t.setColumn name d).named other =
      if t.has name
        then (t.named other).map fun e =>
          if other = name then d else e else t.named other ++ if other = name then [d] else [] := by
  unfold setColumn
  split
  · unfold named
    have hFilter : (t.columns.map fun c => if c.1 == name then (name, d) else c).filter
        (fun c => c.1 == other) =
        (t.columns.filter fun c => c.1 == other).map
          fun c => if c.1 == name then (name, d) else c := by
      rw [filter_map]
      refine congrArg _ (filter_congr fun c _ => ?_)
      by_cases hName : c.1 = name <;> simp [hName]
    rw [hFilter, map_map, map_map]
    refine map_congr_left fun c hc => ?_
    obtain rfl : c.1 = other := by simpa using (mem_filter.1 hc).2
    by_cases hName : c.1 = name <;> simp [hName]
  · unfold named
    by_cases hName : other = name
    · simp [hName]
    · simp [hName, Ne.symm hName]

theorem named_setColumn_of_ne (h : other ≠ name) (d : Data) :
    (t.setColumn name d).named other = t.named other := by
  simp only [named_setColumn, if_neg h, map_id', append_nil, ite_self]

theorem named_setColumn_self (h : (t.named name).length ≤ 1) (d : Data) :
    (t.setColumn name d).named name = [d] := by
  rw [named_setColumn]
  split
  · rename_i hHas
    have hSome := length_pos_iff.2 (has_eq_true_iff.1 hHas)
    obtain ⟨e, he⟩ := length_eq_one_iff.1 (show (t.named name).length = 1 by omega)
    simp [he]
  · rename_i hHas
    simp [has_eq_false_iff.1 (Bool.not_eq_true _ ▸ hHas)]

theorem eq_of_mem_named_setColumn {e : Data} (h : e ∈ (t.setColumn name d).named name) : e = d := by
  rw [named_setColumn] at h
  split at h
  · simp only [if_true, mem_map] at h
    obtain ⟨_, -, rfl⟩ := h
    rfl
  · rename_i hHas
    rw [has_eq_false_iff.1 (Bool.not_eq_true _ ▸ hHas)] at h
    simpa using h

theorem has_setColumn_self (t : Table) (name : String) (d : Data) :
    (t.setColumn name d).has name = true := by
  rw [has_eq_true_iff, named_setColumn]
  split
  · rename_i hHas
    simpa using has_eq_true_iff.1 hHas
  · simp

theorem has_setColumn (h : t.has other = true) (d : Data) :
    (t.setColumn name d).has other = true := by
  rw [has_eq_true_iff] at h ⊢
  rw [named_setColumn]
  split
  · simpa using h
  · simpa using fun hNone => absurd hNone h

def setColumns (t : Table) (cs : List (String × Data)) : Table :=
  cs.foldl (fun t c => t.setColumn c.1 c.2) t

theorem labels_setColumns (t : Table) (cs : List (String × Data)) :
    (t.setColumns cs).labels = t.labels :=
  foldlRecOn (motive := fun u : Table => u.labels = t.labels) cs _ rfl fun _ hLabels _ _ =>
    (labels_setColumn _ _ _).trans hLabels

/-- Under each name stands the column that was set last. -/
theorem named_setColumns (h : (t.named name).length ≤ 1) (cs : List (String × Data)) :
    (t.setColumns cs).named name = ((lastNamed? cs name).map fun d => [d]).getD (t.named name) := by
  induction cs using reverseRecOn with
  | nil => rfl
  | append_singleton rest c ih =>
    have hStep : t.setColumns (rest ++ [c]) = (t.setColumns rest).setColumn c.1 c.2 :=
      foldl_concat ..
    rw [hStep, lastNamed?_append, lastNamed?_singleton]
    by_cases hName : c.1 = name
    · subst hName
      have hOne : ((t.setColumns rest).named c.1).length ≤ 1 := by
        rw [ih]
        cases lastNamed? rest c.1 <;> simp [h]
      rw [named_setColumn_self hOne, if_pos rfl]
      rfl
    · rw [named_setColumn_of_ne (Ne.symm hName), ih, if_neg hName]
      rfl

end SetColumn

theorem named_cons (labels : List Cell) (c : String × Data) (cs : List (String × Data))
    (name : String) :
    named ⟨labels, c :: cs⟩ name =
      if c.1 = name then c.2 :: named ⟨labels, cs⟩ name else named ⟨labels, cs⟩ name := by
  by_cases hName : c.1 = name <;> simp [named, hName]

/-- The columns of a name after one was set among named columns. -/
theorem named_setNamed {labels : List Cell} {cs : List (String × Data)} {name : String}
    (h : (named ⟨labels, cs⟩ name).length ≤ 1) (d : Data) (other : String) :
    named ⟨labels, setNamed cs name d⟩ other =
      if other = name then [d] else named ⟨labels, cs⟩ other := by
  induction cs with
  | nil =>
    rw [setNamed, named_cons]
    exact if_congr eq_comm rfl rfl
  | cons c rest ih =>
    rw [named_cons] at h
    rw [setNamed]
    by_cases hName : c.1 = name
    · rw [if_pos hName, length_cons] at h
      have hNone : named ⟨labels, rest⟩ name = [] := length_eq_zero_iff.1 (by omega)
      rw [if_pos (beq_iff_eq.2 hName), named_cons, named_cons, hName]
      by_cases hOther : name = other
      · simp [← hOther, hNone]
      · simp [hOther, Ne.symm hOther]
    · rw [if_neg hName] at h
      rw [if_neg (mt beq_iff_eq.1 hName), named_cons, named_cons, ih h]
      by_cases hOther : c.1 = other
      · simp [← hOther, hName]
      · simp [hOther]

section Values

variable {values : List (String × Value)} {n : Nat}
variable {t : Table} {c : String × Data}

/-- The value that counts under a name: columns come before the others, and later values before
earlier ones. -/
def decisive? (values : List (String × Value)) (name : String) : Option Value :=
  lastNamed? (values.filter (·.2.isColumn) ++ values.filter (!·.2.isColumn)) name

def rowsAmong (n : Nat) (values : List (String × Value)) : Nat :=
  if values.all (·.2.isColumn) then n else if values.any (·.2.isColumn) then max n 1 else 1

def shownAmong (n height : Nat) (v : Value) : Data :=
  if v.isColumn && n != height then (v.shownIn n).reindex [none] else v.shownIn height

/-- Of columns under one name the last one is kept. -/
theorem named_columnsOf (labels : List Cell) (n : Nat) (values : List (String × Value))
    (name : String) :
    named ⟨labels, columnsOf values⟩ name =
      ((lastNamed? (values.filter (·.2.isColumn)) name).map (·.shownIn n)).toList := by
  induction values using reverseRecOn generalizing name with
  | nil => rfl
  | append_singleton rest p ih =>
    obtain ⟨m, v⟩ := p
    cases v with
    | column c origin =>
      have hOne : (named ⟨labels, columnsOf rest⟩ m).length ≤ 1 := ih m ▸ Option.length_toList_le
      have hLast : [(m, Value.column c origin)].filter (·.2.isColumn) = [(m, .column c origin)] :=
        rfl
      rw [columnsOf_append_column, named_setNamed hOne, ih, filter_append, hLast, lastNamed?_append,
        lastNamed?_singleton]
      by_cases hName : m = name
      · rw [if_pos hName.symm, if_pos hName]
        rfl
      · rw [if_neg (Ne.symm hName), if_neg hName]
        rfl
    | _ =>
      rw [columnsOf_append_other rest m (Value.not_column_of_isColumn rfl), ih, filter_append,
        filter_cons_of_neg Bool.false_ne_true, filter_nil, append_nil]

def opened (t : Table) : Table :=
  if t.isEmpty then ⟨Column.freshLabels 1, t.columns.map fun c => (c.1, c.2.reindex [none])⟩ else t

theorem opened_eq_self (h : t.isEmpty = false) : t.opened = t := by
  rw [opened, h]
  rfl

theorem isEmpty_eq_false_iff : t.isEmpty = false ↔ t.height ≠ 0 ∧ t.columns ≠ [] := by
  simp [isEmpty, height]

theorem height_opened (t : Table) : t.opened.height ≠ 0 := by
  unfold opened
  cases hEmpty : t.isEmpty with
  | true => exact Nat.one_ne_zero
  | false => exact (isEmpty_eq_false_iff.1 hEmpty).1

theorem addScalar_of_fits {v : Value} (hv : v.Fits n) (hOther : v.isColumn = false)
    (name : String) :
    t.addScalar name v = .ok (t.opened.setColumn name (v.shownIn t.opened.height)) := by
  cases v with
  | column c origin => cases hOther
  | table u => exact hv.elim
  | scalar c =>
    unfold addScalar opened
    cases c with
    | list items => exact hv.elim
    | _ => cases t.isEmpty <;> rfl

/-- Values that are no columns are set in a table that has rows for them. -/
theorem addScalars_of_fits (hFits : ∀ p ∈ values, p.2.Fits n) :
    t.addScalars values = .ok (if values.all (·.2.isColumn) then t else t.opened.setColumns
        ((values.filter (!·.2.isColumn)).map fun p => (p.1, p.2.shownIn t.opened.height))) := by
  induction values generalizing t with
  | nil => rfl
  | cons p rest ih =>
    obtain ⟨name, v⟩ := p
    obtain ⟨hFirst, hRest⟩ := forall_mem_cons.1 hFits
    cases hColumn : v.isColumn with
    | true =>
      cases v with
      | column c origin => exact ih hRest
      | _ => cases hColumn
    | false =>
      let added := t.opened.setColumn name (v.shownIn t.opened.height)
      have hHeight : added.height = t.opened.height := height_setColumn t.opened name _
      have hOpened : added.opened = added := by
        refine opened_eq_self (isEmpty_eq_false_iff.2 ⟨hHeight ▸ height_opened t, fun hNone => ?_⟩)
        have hHas : added.has name = true := has_setColumn_self t.opened name _
        rw [has, hNone] at hHas
        cases hHas
      rw [addScalars_cons_other t name (Value.not_column_of_isColumn hColumn),
        addScalar_of_fits hFirst hColumn]
      refine (ih (t := added) hRest).trans (congrArg Except.ok ?_)
      rw [all_cons, hColumn, filter_cons_of_pos (by simp [hColumn]),
        hOpened, hHeight]
      split
      · rename_i hAll
        have hNone : rest.filter (!·.2.isColumn) = [] := by simpa [filter_eq_nil_iff] using hAll
        rw [hNone]
        rfl
      · rfl

theorem named_opened (t : Table) (name : String) :
    t.opened.named name =
      if t.isEmpty then (t.named name).map (·.reindex [none]) else t.named name := by
  unfold opened
  split
  · simp only [named, filter_map, map_map]
    rfl
  · rfl

/-- The columns of names of which each has one. -/
theorem selectNames?_of_named {ι : Type} {is : List ι} {name : ι → String} {data : ι → Data}
    (h : ∀ i ∈ is, t.named (name i) = [data i]) :
    t.selectNames? (is.map name) = some ⟨t.labels, is.map fun i => (name i, data i)⟩ := by
  have hHas : (is.map name).all t.has = true := by
    rw [all_eq_true, forall_mem_map]
    exact fun i hi => has_eq_true_iff.2 (by simp [h i hi])
  rw [selectNames?, if_pos hHas, flatMap_map,
    flatMap_congr fun i hi => by rw [h i hi, map_singleton], ← map_eq_flatMap]

/-- A column among some values is one of them. -/
theorem exists_of_mem_columnsOf (h : c ∈ columnsOf values) (n : Nat) :
    ∃ p ∈ values, p.2.isColumn = true ∧ p.2.shownIn n = c.2 := by
  have hData : c.2 ∈ named ⟨[], columnsOf values⟩ c.1 :=
    mem_map_of_mem (mem_filter.2 ⟨h, beq_self_eq_true c.1⟩)
  rw [named_columnsOf [] n, Option.mem_toList] at hData
  obtain ⟨v, hv, hShown⟩ := Option.map_eq_some_iff.1 hData
  obtain ⟨hMem, hColumn⟩ := mem_filter.1 (mem_of_lastNamed? hv)
  exact ⟨_, hMem, hColumn, hShown⟩

theorem heightOf_columnsOf (hFits : ∀ p ∈ values, p.2.Fits n) :
    (∀ c ∈ columnsOf values, c.2.length = n) ∧
    heightOf (columnsOf values) = if values.any (·.2.isColumn) then n else 0 := by
  have hLength : ∀ c ∈ columnsOf values, c.2.length = n := by
    intro c hc
    obtain ⟨p, hp, -, hShown⟩ := exists_of_mem_columnsOf hc n
    rw [← hShown]
    exact (hFits p hp).length_shownIn
  refine ⟨hLength, ?_⟩
  cases hAny : values.any (·.2.isColumn) with
  | true =>
    refine heightOf_of_mem hLength fun hNone => ?_
    obtain ⟨p, hp, hColumn⟩ := any_eq_true.1 hAny
    obtain ⟨v, hv⟩ :=
      exists_lastNamed? (mem_filter.2 ⟨hp, hColumn⟩ : p ∈ values.filter (·.2.isColumn))
    have hNamed := named_columnsOf [] n values p.1
    rw [hv, hNone] at hNamed
    cases hNamed
  | false =>
    cases hColumns : columnsOf values with
    | nil => rfl
    | cons c rest =>
      obtain ⟨p, hp, hColumn, -⟩ := exists_of_mem_columnsOf (hColumns ▸ mem_cons_self) n
      exact absurd hColumn (any_eq_false.1 hAny p hp)

theorem isEmpty_freshLabels (cs : List (String × Data)) :
    (mk (Column.freshLabels (heightOf cs)) cs).isEmpty = (heightOf cs == 0) := by
  cases cs with
  | nil => rfl
  | cons c rest =>
    rw [isEmpty, isEmpty_cons, Bool.or_false, Bool.eq_iff_iff, isEmpty_iff_length_eq_zero,
      Column.length_freshLabels, beq_iff_eq]

theorem rowsAmong_eq (hFits : ∀ p ∈ values, p.2.Fits n) (hSome : values = [] → n = 0) :
    rowsAmong n values = if values.all (·.2.isColumn) then heightOf (columnsOf values)
      else max (heightOf (columnsOf values)) 1 := by
  rw [(heightOf_columnsOf hFits).2]
  unfold rowsAmong
  cases values with
  | nil => simp [hSome rfl]
  | cons p rest =>
    cases hFirst : p.2.isColumn <;> cases hAny : rest.any (·.2.isColumn) <;> simp [hFirst, hAny]

/-- The values are filled in under their names. -/
theorem exists_filled (hFits : ∀ p ∈ values, p.2.Fits n) (hSome : values = [] → n = 0) :
    ∃ filled,
      addScalars ⟨Column.freshLabels (heightOf (columnsOf values)), columnsOf values⟩ values =
        .ok filled ∧
      filled.labels = Column.freshLabels (rowsAmong n values) ∧
      ∀ p ∈ values, filled.named p.1 =
          [shownAmong n (rowsAmong n values) ((decisive? values p.1).getD p.2)] := by
  have hRows := rowsAmong_eq hFits hSome
  have hNamed := named_columnsOf (Column.freshLabels (heightOf (columnsOf values))) n values
  rw [addScalars_of_fits hFits]
  cases hAll : values.all (·.2.isColumn) with
  | true =>
    have hColumns : values.filter (·.2.isColumn) = values := filter_eq_self.2 (all_eq_true.1 hAll)
    have hOthers : values.filter (!·.2.isColumn) = [] := by simpa [filter_eq_nil_iff] using hAll
    have hHeight : rowsAmong n values = n := by rw [rowsAmong, hAll, if_pos rfl]
    rw [hAll, if_pos rfl] at hRows
    refine ⟨_, rfl, by rw [hRows, if_pos rfl], fun p hp => ?_⟩
    obtain ⟨v, hv⟩ := exists_lastNamed? hp
    rw [if_pos rfl, hNamed, decisive?, hOthers, append_nil, hColumns, hv, hHeight, shownAmong]
    simp
  | false =>
    rw [hAll] at hRows
    let t : Table := ⟨Column.freshLabels (heightOf (columnsOf values)), columnsOf values⟩
    have hEmpty : t.isEmpty = (heightOf (columnsOf values) == 0) :=
      isEmpty_freshLabels (columnsOf values)
    have hLabels : t.opened.labels = Column.freshLabels (rowsAmong n values) := by
      rw [hRows, opened, hEmpty]
      cases hHeight : heightOf (columnsOf values) with
      | zero => rfl
      | succ k =>
        exact congrArg Column.freshLabels (hHeight.trans (Nat.max_eq_left (Nat.succ_pos k)).symm)
    have hHeight : t.opened.height = rowsAmong n values := by
      rw [height, hLabels, Column.length_freshLabels]
    refine ⟨_, rfl, (labels_setColumns _ _).trans hLabels, fun p hp => ?_⟩
    have hOne : (t.opened.named p.1).length ≤ 1 := by
      rw [named_opened, hNamed]
      split <;> simp [Option.length_toList_le]
    rw [if_neg Bool.false_ne_true, named_setColumns hOne, hHeight, lastNamed?_map, decisive?,
      lastNamed?_append]
    cases hLast : lastNamed? (values.filter (!·.2.isColumn)) p.1 with
    | some v =>
      have hOther : v.isColumn = false := by simpa using (mem_filter.1 (mem_of_lastNamed? hLast)).2
      simp [shownAmong, hOther]
    | none =>
      have hColumn : p.2.isColumn = true := by
        by_contra hOther
        obtain ⟨v, hv⟩ := exists_lastNamed? (mem_filter.2 ⟨hp, by simpa using hOther⟩ :
          p ∈ values.filter (!·.2.isColumn))
        cases hv.symm.trans hLast
      obtain ⟨v, hv⟩ :=
        exists_lastNamed? (mem_filter.2 ⟨hp, hColumn⟩ : p ∈ values.filter (·.2.isColumn))
      have hShown : v.isColumn = true := (mem_filter.1 (mem_of_lastNamed? hv)).2
      have hTall : heightOf (columnsOf values) = n := by
        rw [(heightOf_columnsOf hFits).2, any_eq_true.2 ⟨p, hp, hColumn⟩, if_pos rfl]
      rw [hTall] at hEmpty hRows
      rw [named_opened, hNamed, hv, hEmpty, hRows, shownAmong]
      cases n <;> simp [hShown]

/-- One of the values of a name counts under it. -/
theorem exists_decisive? {p : String × Value} (hp : p ∈ values) :
    ∃ v, decisive? values p.1 = some v ∧ (p.1, v) ∈ values := by
  have hMem (q : String × Value) :
      q ∈ values.filter (·.2.isColumn) ++ values.filter (!·.2.isColumn) ↔ q ∈ values :=
    (filter_append_perm _ values).mem_iff
  obtain ⟨v, hv⟩ := exists_lastNamed? ((hMem p).2 hp)
  exact ⟨v, hv, (hMem _).1 (mem_of_lastNamed? hv)⟩

/-- Values that fit some rows are a table. Each stands at its place as the one that counts under its
name. -/
theorem ofValues_eq (hFits : ∀ p ∈ values, p.2.Fits n) (hSome : values = [] → n = 0) :
    ofValues values = .ok ⟨Column.freshLabels (rowsAmong n values), values.map fun p =>
      (p.1, shownAmong n (rowsAmong n values) ((decisive? values p.1).getD p.2))⟩ := by
  have hAll :
      ((columnsOf values).all fun c => c.2.length == heightOf (columnsOf values)) = true := by
    obtain ⟨hLength, -⟩ := heightOf_columnsOf hFits
    refine all_eq_true.2 fun c hc => beq_iff_eq.2 ?_
    rw [hLength c hc, heightOf_of_mem hLength fun h => by rw [h] at hc; cases hc]
  obtain ⟨filled, hFilled, hLabels, hNamed⟩ := exists_filled hFits hSome
  rw [ofValues, hAll]
  rw [hFilled]
  dsimp only [bind, Except.bind]
  rw [selectNames?_of_named hNamed, hLabels]
  rfl

end Values

section Columns

variable {ι : Type} (name : ι → String) (column : ι → Column) (origin : ι → Option Origin)

def columnValues (is : List ι) : List (String × Value) :=
  is.map fun i => (name i, .column (column i) (origin i))

theorem filter_columnValues (is : List ι) :
    (columnValues name column origin is).filter (·.2.isColumn) =
      columnValues name column origin is ∧
    (columnValues name column origin is).filter (!·.2.isColumn) = [] := by
  simp [columnValues]

theorem addScalars_columnValues (t : Table) (is : List ι) :
    t.addScalars (columnValues name column origin is) = .ok t := by
  induction is with
  | nil => rfl
  | cons i rest ih => exact ih

variable {is : List ι}

/-- Under a name of columns the last of them counts. -/
theorem exists_lastColumn {i : ι} (hi : i ∈ is) :
    ∃ j ∈ is, name j = name i ∧
      lastNamed? (columnValues name column origin is) (name i) =
        some (.column (column j) (origin j)) := by
  have hMem : (name i, Value.column (column i) (origin i)) ∈ columnValues name column origin is :=
    mem_map_of_mem hi
  obtain ⟨v, hv⟩ := exists_lastNamed? hMem
  obtain ⟨j, hj, hColumn⟩ := mem_map.1 (mem_of_lastNamed? hv)
  exact ⟨j, hj, congrArg Prod.fst hColumn, hv.trans (congrArg (fun p => some p.2) hColumn).symm⟩

theorem exists_named_columnsOf (labels : List Cell) {i : ι} (hi : i ∈ is) :
    ∃ j ∈ is, name j = name i ∧
      named ⟨labels, columnsOf (columnValues name column origin is)⟩ (name i) =
        [(column j).data.anew] := by
  obtain ⟨j, hj, hName, hLast⟩ := exists_lastColumn name column origin hi
  refine ⟨j, hj, hName, ?_⟩
  rw [named_columnsOf labels 0, (filter_columnValues name column origin is).1, hLast]
  rfl

variable {name column origin}

/-- A table of columns has their names. -/
theorem names_of_ofValues_columns {u : Table}
    (h : ofValues (columnValues name column origin is) = .ok u) : u.names = is.map name := by
  have hOut : (columnValues name column origin is).map (·.1) = is.map name := map_map
  unfold ofValues at h
  dsimp only at h
  rw [addScalars_columnValues, hOut] at h
  split at h
  · cases h
  · dsimp only [bind, Except.bind, pure, Except.pure, selectNames?] at h
    split at h
    · rename_i hSelected
      cases h
      split at hSelected
      · cases hSelected
        rw [names, map_flatMap, flatMap_map, map_eq_flatMap]
        refine flatMap_congr fun i hi => ?_
        obtain ⟨j, -, -, hNamed⟩ := exists_named_columnsOf name column origin _ hi
        rw [hNamed]
        rfl
      · cases hSelected
    · cases h

variable (hSame : ∀ i ∈ is, ∀ j ∈ is, name i = name j → (column i).data = (column j).data)
include hSame

/-- The table of columns, all of one length. -/
theorem ofValues_columns {height : Nat} (hLength : ∀ i ∈ is, (column i).data.length = height)
    (hHeight : is = [] → height = 0) : ofValues (columnValues name column origin is) =
      .ok ⟨Column.freshLabels height, is.map fun i => (name i, (column i).data.anew)⟩ := by
  have hFits : ∀ p ∈ columnValues name column origin is, p.2.Fits height := forall_mem_map.2 hLength
  have hRows : rowsAmong height (columnValues name column origin is) = height := by
    simp [rowsAmong, columnValues]
  rw [ofValues_eq hFits fun hNone => hHeight (map_eq_nil_iff.1 hNone), hRows]
  refine congrArg (fun columns => Except.ok (mk _ columns))
    (map_map.trans (map_congr_left fun i hi => ?_))
  obtain ⟨j, hj, hName, hLast⟩ := exists_lastColumn name column origin hi
  obtain ⟨hAll, hNone⟩ := filter_columnValues name column origin is
  rw [Function.comp_apply, decisive?, hAll, hNone, append_nil, hLast, hSame i hi j hj hName.symm]
  simp [shownAmong, Value.shownIn]

/-- Columns of different lengths make no table. -/
theorem ofValues_columns_error {i j : ι} (hi : i ∈ is) (hj : j ∈ is)
    (hLength : (column i).data.length ≠ (column j).data.length) :
    ofValues (columnValues name column origin is) = .error .badValue := by
  have hAll : ((columnsOf (columnValues name column origin is)).all fun c =>
      c.2.length == heightOf (columnsOf (columnValues name column origin is))) = false := by
    rw [Bool.eq_false_iff, Ne, all_eq_true]
    intro hAll
    have hHeight (k : ι) (hk : k ∈ is) :
        (column k).data.length = heightOf (columnsOf (columnValues name column origin is)) := by
      obtain ⟨l, hl, hName, hNamed⟩ := exists_named_columnsOf name column origin [] hk
      obtain ⟨c, hc, hData⟩ := mem_map.1 (hNamed ▸ mem_singleton_self _)
      rw [hSame k hk l hl hName.symm, ← Data.length_anew, ← hData]
      exact beq_iff_eq.1 (hAll c (mem_filter.1 hc).1)
    exact hLength ((hHeight i hi).trans (hHeight j hj).symm)
  unfold ofValues
  dsimp only
  rw [hAll]
  rfl

end Columns

end Table

end TableQuery
