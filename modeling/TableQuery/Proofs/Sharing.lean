import TableQuery.Proofs.Agreement

/-! A workspace without a cache beside one with it. In the second a table is shared by the queries:
it is the partner of several tables of the first, and equal to them as long as no column is added to
it. -/
namespace TableQuery

open List Work Workspace Value Cache Nat TableQuery.Relation Option

open Sql

variable {columns : String → Prop} {column : String} {f : Frame}
variable {w : Workspace}

namespace Workspace

variable {id : Nat}

def frameAt (w : Workspace) (id : Nat) : Frame := w.frames[id]?.getD default

theorem tableAt_eq_frameAt (w : Workspace) (id : Nat) : w.tableAt id = (w.frameAt id).table := rfl

theorem tableAt_withCache (w : Workspace) (cache : Cache Relation) (id : Nat) :
    (w.withCache cache).tableAt id = w.tableAt id := rfl

theorem frameAt_push_of_lt (h : id < w.frames.size) (f : Frame) :
    { w with frames := w.frames.push f }.frameAt id = w.frameAt id := by
  simp [frameAt, Array.getElem?_push_lt h, Array.getElem?_eq_getElem h]

theorem frameAt_push_size (w : Workspace) (f : Frame) :
    { w with frames := w.frames.push f }.frameAt w.frames.size = f := by
  simp [frameAt]

theorem frameAt_set_self (h : id < w.frames.size) (f : Frame) :
    { w with frames := w.frames.set! id f }.frameAt id = f := by
  simp [frameAt, h]

theorem frameAt_set_ne {other : Nat} (h : id ≠ other) (f : Frame) :
    { w with frames := w.frames.set! id f }.frameAt other = w.frameAt other := by
  simp [frameAt, Array.getElem?_setIfInBounds_ne h]

end Workspace

def Frame.KeepsNames (columns : String → Prop) (f : Frame) : Prop :=
  ∀ column, ¬ columns column → f.renamed.lookup column = none

theorem Frame.KeepsNames.rename (h : f.KeepsNames columns)
    (hColumn : columns column) (name : String) : (f.rename column name).KeepsNames columns := by
  intro other hOther
  have hNe : other ≠ column := by
    rintro rfl
    exact hOther hColumn
  unfold Frame.rename
  rw [lookup_cons, beq_eq_false_iff_ne.2 hNe]
  exact h other hOther

theorem Frame.KeepsNames.nameOf (h : f.KeepsNames columns) (hColumn : ¬ columns column) :
    f.nameOf column = column := by
  unfold Frame.nameOf
  rw [h column hColumn]
  rfl

theorem Frame.KeepsNames.mono {more : String → Prop} (h : f.KeepsNames columns)
    (hMore : ∀ column, columns column → more column) : f.KeepsNames more :=
  fun column hColumn => h column fun h => hColumn (hMore column h)

/-- A frame with the same table, in which readers see other names only where they may. -/
def Frame.Resembles (columns : String → Prop) (f g : Frame) : Prop :=
  f.table = g.table ∧ (g.KeepsNames columns → f.KeepsNames columns)

/-- A new name for a column that may have one. -/
theorem Workspace.keepsNames_rename {other : Nat} (h : (w.frameAt other).KeepsNames columns)
    (id : Nat) (hColumn : columns column) (name : String) :
    ({ w with frames := w.frames.set! id ((w.frameAt id).rename column name) }.frameAt
      other).KeepsNames columns := by
  by_cases hId : id = other
  · subst hId
    by_cases hSize : id < w.frames.size
    · rw [frameAt_set_self hSize]
      exact h.rename hColumn name
    · have hNone : w.frames.set! id ((w.frameAt id).rename column name) = w.frames := by
        simpa using Array.setIfInBounds_eq_of_size_le (Nat.le_of_not_lt hSize)
      rw [hNone]
      exact h
  · rw [frameAt_set_ne hId]
    exact h

def Entry.asCached (e : Entry) : Entry := { e with cached := true }

@[simp] theorem Entry.id_asCached (e : Entry) : e.asCached.id = e.id := rfl

@[simp] theorem Entry.fetch_asCached (e : Entry) (drive : Drive) :
    e.asCached.fetch drive = e.fetch drive := rfl

namespace Cache

variable {α : Type} {key : Nat}

/-- A question leaves the kept answers as they are. -/
theorem lookup_asked {kept : List (Nat × α)} {a : α} (h : kept.lookup key = some a) (other : Nat) :
    ((key, a) :: kept.filter fun k => k.1 != key).lookup other = kept.lookup other := by
  by_cases hOther : other = key
  · subst hOther
    rw [lookup_cons_self, h]
  · rw [lookup_cons, beq_eq_false_iff_ne.2 hOther]
    dsimp only
    clear h
    induction kept with
    | nil => rfl
    | cons k rest ih =>
      rw [filter_cons, lookup_cons]
      by_cases hKey : k.1 = key
      · rw [if_neg (by simp [hKey]), ih, hKey, beq_eq_false_iff_ne.2 hOther]
      · rw [if_pos (by simp [hKey]), lookup_cons, ih]

/-- What is kept within a bound is kept without it. -/
theorem lookup_of_limit {bound : Option Nat} {kept : List (Nat × α)} {a : α}
    (h : (limit bound kept).lookup key = some a) : kept.lookup key = some a := by
  cases bound with
  | none => exact h
  | some n =>
    unfold limit at h
    rw [← take_append_drop n kept, lookup_append, h]
    rfl

end Cache

inductive Paired (P : Nat → Nat → Prop) : Relation → Relation → Prop where
  | absent : Paired P .absent .absent
  | value (v : Value) : Paired P (.value v) (.value v)
  | frame {i j : Nat} : P i j → Paired P (.frame i) (.frame j)

theorem Paired.mono {P P' : Nat → Nat → Prop} {r r' : Relation} (h : Paired P r r')
    (hP : ∀ i j, P i j → P' i j) : Paired P' r r' := by
  cases h with
  | absent => exact .absent
  | value v => exact .value v
  | frame h => exact .frame (hP _ _ h)

structure Pairing where
  /-- Tables of a query that is under way, or was. -/
  own : Nat → Nat → Prop
  /-- A table that was fetched and a shared one. -/
  lent : Nat → Nat → Prop
  /-- Tables of the first workspace whose columns a star may stand for. -/
  plain : Nat → Prop

namespace Pairing

variable {s s' : Pairing}

def Pairs (s : Pairing) (i j : Nat) : Prop := s.own i j ∨ s.lent i j

structure Later (s s' : Pairing) : Prop where
  own {i j : Nat} : s.own i j → s'.own i j
  lent {i j : Nat} : s.lent i j → s'.lent i j
  plain {i : Nat} : s.plain i → s'.plain i

theorem Later.refl (s : Pairing) : Later s s := ⟨id, id, id⟩

theorem Later.trans {s'' : Pairing} (h : Later s s') (h' : Later s' s'') : Later s s'' :=
  ⟨h'.own ∘ h.own, h'.lent ∘ h.lent, h'.plain ∘ h.plain⟩

theorem Later.pairs (h : Later s s') {i j : Nat} (hij : s.Pairs i j) : s'.Pairs i j :=
  hij.imp h.own h.lent

def addOwn (s : Pairing) (i j : Nat) (isPlain : Prop) : Pairing where
  own i' j' := s.own i' j' ∨ i' = i ∧ j' = j
  lent := s.lent
  plain i' := s.plain i' ∨ i' = i ∧ isPlain

def addLent (s : Pairing) (i j : Nat) : Pairing where
  own := s.own
  lent i' j' := s.lent i' j' ∨ i' = i ∧ j' = j
  plain i' := s.plain i' ∨ i' = i

theorem later_addOwn (s : Pairing) (i j : Nat) (isPlain : Prop) : Later s (s.addOwn i j isPlain) :=
  ⟨.inl, id, .inl⟩

theorem later_addLent (s : Pairing) (i j : Nat) : Later s (s.addLent i j) := ⟨id, .inl, .inl⟩

end Pairing

def Sql.Use.Qualifies (column : String) : Use → Prop
  | .reference parts => ∃ table, parts = [table, column]
  | .star fromTable => fromTable = false
  | .keyColumn name => ¬ IsRegular name ∧ ∃ table, splitName name = [table, column]
  | _ => False

def StarQualifies (columns : String → Prop) (name : String) : Prop :=
  ∀ column, (Use.keyColumn name).Qualifies column → columns column

theorem starQualifies_of_isRegular {name : String} (h : IsRegular name) :
    StarQualifies columns name :=
  fun _ hColumn => (hColumn.1 h).elim

/-- A shared table is the one of an entry, belongs to no query alone, and only some columns have
other names. -/
def Keeps (columns : String → Prop) (s : Pairing) (w : Workspace) (e : Entry) : Relation → Prop
  | .frame j =>
    j < w.frames.size ∧ (∀ i, ¬ s.own i j) ∧ e.fetch w.drive = .ok (some (w.tableAt j)) ∧
      (w.frameAt j).KeepsNames columns
  | .value u => u = .scalar .null ∧ e.fetch w.drive = .ok none
  | .absent => False

/-- The second of two workspaces has a cache for all tables, the first for none. -/
structure Shares (columns : String → Prop) (s : Pairing) (v w : Workspace) : Prop where
  drive : v.drive = w.drive
  entries : w.catalog.entries = v.catalog.entries.map fun e => (e.1, e.2.asCached)
  uncached : ∀ e ∈ v.catalog.entries, e.2.cached = false
  isScalar : ∀ e ∈ v.catalog.entries, e.2.name.isScalar = true
  distinct : (v.catalog.entries.map (·.2.id)).Nodup
  regular : v.FetchesOnly IsRegular
  extensions : v.catalog.extensions = w.catalog.extensions
  seesNoNames : Extension.NoneSeesNames v.catalog.extensions
  range : ∀ {i j}, s.Pairs i j → i < v.frames.size ∧ j < w.frames.size
  own : ∀ {i j}, s.own i j → v.frameAt i = w.frameAt j
  own_inj : ∀ {i j i' j'}, s.own i j → s.own i' j' → (i = i' ↔ j = j')
  apart : ∀ {i j i' j'}, s.own i j → s.lent i' j' → i ≠ i' ∧ j ≠ j'
  lent : ∀ {i j}, s.lent i j → v.tableAt i = w.tableAt j ∧ (v.frameAt i).KeepsNames columns ∧
    (w.frameAt j).KeepsNames columns
  scope : ∀ name, Rel (Paired s.Pairs) (v.catalog.scope.lookup name)
    (w.catalog.scope.lookup name)
  cache : ∃ bound kept hits misses, w.catalog.cache = .memory bound kept hits misses ∧
    ∀ e ∈ v.catalog.entries, ∀ r, kept.lookup e.2.id = some r → Keeps columns s w e.2 r
  plain : ∀ {i}, s.plain i → i < v.frames.size ∧ ∀ name ∈ (v.tableAt i).names,
    StarQualifies columns name

namespace Shares

variable {s : Pairing} {v : Workspace} (h : Shares columns s v w)
variable {kept : List (Nat × Relation)} {e : Document × Entry} {i j : Nat}
variable {s' : Pairing}
include h

theorem tableAt_eq (hij : s.Pairs i j) : v.tableAt i = w.tableAt j := by
  rcases hij with hij | hij
  · exact congrArg Frame.table (h.own hij)
  · exact (h.lent hij).1

/-- Another state of the cache, which keeps the tables of entries. -/
theorem recache
    (hKept : ∀ e ∈ v.catalog.entries, ∀ r, kept.lookup e.2.id = some r → Keeps columns s w e.2 r)
    (bound : Option Nat) (hits misses : Nat) :
    Shares columns s v (w.withCache (.memory bound kept hits misses)) where
  __ := h
  cache := by
    refine ⟨bound, kept, hits, misses, rfl, fun e he r hr => ?_⟩
    have hKeeps := hKept e he r hr
    cases r <;> exact hKeeps

/-- The cache keeps the same tables while they stay as they are. -/
theorem keeps {others : String → Prop} {w' : Workspace} (hDrive : w'.drive = w.drive)
    (hCache : w'.catalog.cache = w.catalog.cache)
    (hTables : ∀ j, j < w.frames.size → (∀ i, ¬ s.own i j) → (w.frameAt j).KeepsNames columns →
      j < w'.frames.size ∧ (∀ i, ¬ s'.own i j) ∧ w'.tableAt j = w.tableAt j ∧
      (w'.frameAt j).KeepsNames others) :
    ∃ bound kept hits misses, w'.catalog.cache = .memory bound kept hits misses ∧
      ∀ e ∈ v.catalog.entries, ∀ r, kept.lookup e.2.id = some r → Keeps others s' w' e.2 r := by
  obtain ⟨bound, kept, hits, misses, hMemory, hKept⟩ := h.cache
  refine ⟨bound, kept, hits, misses, hCache.trans hMemory, fun e he r hr => ?_⟩
  have hKeeps := hKept e he r hr
  cases r with
  | frame j =>
    obtain ⟨hSize, hOwn, hFetch, hNames⟩ := hKeeps
    obtain ⟨hSize', hOwn', hTable, hNames'⟩ := hTables j hSize hOwn hNames
    exact ⟨hSize', hOwn', by rw [hDrive, hTable, hFetch], hNames'⟩
  | value u => exact ⟨hKeeps.1, by rw [hDrive, hKeeps.2]⟩
  | absent => exact hKeeps

/-- The table of an entry is kept as well. -/
theorem keep
    (hKept : ∀ e ∈ v.catalog.entries, ∀ r, kept.lookup e.2.id = some r → Keeps columns s w e.2 r)
    (he : e ∈ v.catalog.entries) {r : Relation} (hr : Keeps columns s w e.2 r) (bound : Option Nat)
    (hits misses : Nat) :
    Shares columns s v
      (w.withCache (.memory bound (limit bound ((e.2.id, r) :: kept)) hits misses)) := by
  refine h.recache (fun e' he' r' hr' => ?_) bound hits misses
  have hLookup := lookup_of_limit hr'
  rw [lookup_cons] at hLookup
  by_cases hId : e'.2.id = e.2.id
  · cases inj_on_of_nodup_map h.distinct he' he hId
    rw [beq_self_eq_true] at hLookup
    cases hLookup
    exact hr
  · rw [beq_eq_false_iff_ne.2 hId] at hLookup
    exact hKept e' he' r' hLookup

/-- The tables of a query change alike in both workspaces, and the others only in the names that
readers see. -/
theorem reframe {fs gs : Array Frame} (hv : v.frames.size ≤ fs.size) (hw : w.frames.size ≤ gs.size)
    (hOwn : ∀ {i j}, s.own i j →
      { v with frames := fs }.frameAt i = { w with frames := gs }.frameAt j)
    (hLeft : ∀ i, i < v.frames.size → (∀ j, ¬ s.own i j) →
      ({ v with frames := fs }.frameAt i).Resembles columns (v.frameAt i))
    (hRight : ∀ j, j < w.frames.size → (∀ i, ¬ s.own i j) →
      ({ w with frames := gs }.frameAt j).Resembles columns (w.frameAt j))
    (hPlain : ∀ i, s.plain i →
      ∀ name ∈ ({ v with frames := fs }.tableAt i).names, StarQualifies columns name) :
    Shares columns s { v with frames := fs } { w with frames := gs } where
  __ := h
  range hij := ⟨(h.range hij).1.trans_le hv, (h.range hij).2.trans_le hw⟩
  own := hOwn
  lent hij := by
    obtain ⟨hi, hj⟩ := h.range (.inr hij)
    obtain ⟨hTable, hNames, hNames'⟩ := h.lent hij
    obtain ⟨hvTable, hvNames⟩ := hLeft _ hi fun j' hOwn => (h.apart hOwn hij).1 rfl
    obtain ⟨hwTable, hwNames⟩ := hRight _ hj fun i' hOwn => (h.apart hOwn hij).2 rfl
    exact ⟨hvTable.trans (hTable.trans hwTable.symm), hvNames hNames, hwNames hNames'⟩
  cache := h.keeps rfl rfl fun j hSize hOwn hNames =>
    ⟨hSize.trans_le hw, hOwn, (hRight j hSize hOwn).1, (hRight j hSize hOwn).2 hNames⟩
  plain hi := ⟨(h.plain hi).1.trans_le hv, hPlain _ hi⟩

/-- A table is handed out in the first workspace. -/
theorem pushLeft (f : Frame) : Shares columns s { v with frames := v.frames.push f } w := by
  refine h.reframe (by simp) le_rfl (fun hij => ?_) (fun i hi _ => ?_) (fun _ _ _ => ⟨rfl, id⟩)
    fun i hi => ?_
  · rw [frameAt_push_of_lt (h.range (.inl hij)).1]
    exact h.own hij
  · rw [frameAt_push_of_lt hi]
    exact ⟨rfl, id⟩
  · rw [tableAt_push_of_lt (h.plain hi).1]
    exact (h.plain hi).2

/-- A table is handed out in the second workspace. -/
theorem pushRight (f : Frame) : Shares columns s v { w with frames := w.frames.push f } := by
  refine h.reframe le_rfl (by simp) (fun hij => ?_) (fun _ _ _ => ⟨rfl, id⟩) (fun j hj _ => ?_)
    fun i hi => (h.plain hi).2
  · rw [frameAt_push_of_lt (h.range (.inl hij)).2]
    exact h.own hij
  · rw [frameAt_push_of_lt hj]
    exact ⟨rfl, id⟩

theorem scope_mono (hLater : s.Later s') (name : String) :
    Rel (Paired s'.Pairs) (v.catalog.scope.lookup name) (w.catalog.scope.lookup name) := by
  have hScope := h.scope name
  generalize v.catalog.scope.lookup name = r, w.catalog.scope.lookup name = r' at hScope ⊢
  cases hScope with
  | none => exact .none
  | some hr => exact .some (hr.mono fun _ _ => hLater.pairs)

/-- A table of a query is handed out in both workspaces. -/
theorem newOwn (t : Table) :
    Shares columns
      (s.addOwn v.frames.size w.frames.size (∀ name ∈ t.names, StarQualifies columns name))
      { v with frames := v.frames.push { table := t } }
      { w with frames := w.frames.push { table := t } } where
  __ := (h.pushLeft { table := t }).pushRight { table := t }
  range := by
    rintro i j ((hij | ⟨rfl, rfl⟩) | hij)
    · exact ((h.pushLeft { table := t }).pushRight { table := t }).range (.inl hij)
    · simp
    · exact ((h.pushLeft { table := t }).pushRight { table := t }).range (.inr hij)
  own := by
    rintro i j (hij | ⟨rfl, rfl⟩)
    · exact ((h.pushLeft { table := t }).pushRight { table := t }).own hij
    · rw [frameAt_push_size, frameAt_push_size]
  own_inj := by
    rintro i j i' j' (hij | ⟨rfl, rfl⟩) (hij' | ⟨rfl, rfl⟩)
    · exact h.own_inj hij hij'
    · have hRange := h.range (.inl hij)
      omega
    · have hRange := h.range (.inl hij')
      omega
    · exact iff_of_true rfl rfl
  apart := by
    rintro i j i' j' (hij | ⟨rfl, rfl⟩) hij'
    · exact h.apart hij hij'
    · have hRange := h.range (.inr hij')
      omega
  scope := h.scope_mono (s.later_addOwn _ _ _)
  cache := by
    refine h.keeps rfl rfl fun j hSize hOwn hNames => ?_
    rw [Array.size_push, tableAt_push_of_lt hSize, frameAt_push_of_lt hSize]
    refine ⟨lt_succ_of_lt hSize, ?_, rfl, hNames⟩
    rintro i (hij | ⟨rfl, rfl⟩)
    · exact hOwn i hij
    · exact lt_irrefl _ hSize
  plain := by
    rintro i (hi | ⟨rfl, hStarred⟩)
    · exact (h.pushLeft { table := t }).plain hi
    · rw [Array.size_push, tableAt_push_size]
      exact ⟨lt_succ_self _, hStarred⟩

/-- A table that was fetched in the first workspace is lent the one that is shared in the second. -/
theorem lend (hi : i < v.frames.size) (hj : j < w.frames.size)
    (hTable : v.tableAt i = w.tableAt j) (hLeft : (v.frameAt i).KeepsNames columns)
    (hRight : (w.frameAt j).KeepsNames columns) (hOwnLeft : ∀ j', ¬ s.own i j')
    (hOwnRight : ∀ i', ¬ s.own i' j) (hRegular : ∀ name ∈ (v.tableAt i).names, IsRegular name) :
    Shares columns (s.addLent i j) v w where
  __ := h
  range := by
    rintro i' j' (hij | hij | ⟨rfl, rfl⟩)
    · exact h.range (.inl hij)
    · exact h.range (.inr hij)
    · exact ⟨hi, hj⟩
  apart := by
    rintro i' j' i'' j'' hOwn (hij | ⟨rfl, rfl⟩)
    · exact h.apart hOwn hij
    · constructor
      · rintro rfl
        exact hOwnLeft j' hOwn
      · rintro rfl
        exact hOwnRight i' hOwn
  lent := by
    rintro i' j' (hij | ⟨rfl, rfl⟩)
    · exact h.lent hij
    · exact ⟨hTable, hLeft, hRight⟩
  scope := h.scope_mono (s.later_addLent i j)
  cache := h.keeps rfl rfl fun _ hSize hOwn hNames => ⟨hSize, hOwn, rfl, hNames⟩
  plain := by
    rintro i' (hi' | rfl)
    · exact h.plain hi'
    · exact ⟨hi, fun name hName => starQualifies_of_isRegular (hRegular name hName)⟩

/-- A table that is fetched in the first workspace is lent the one that is kept in the second. -/
theorem lendKept (he : e ∈ v.catalog.entries) (hKeeps : Keeps columns s w e.2 (.frame j)) :
    Shares columns (s.addLent v.frames.size j)
      { v with frames := v.frames.push { table := w.tableAt j } } w := by
  obtain ⟨hSize, hOwn, hFetch, hNames⟩ := hKeeps
  refine (h.pushLeft _).lend (by simp) hSize (tableAt_push_size v _) ?_ hNames ?_ hOwn ?_
  · rw [frameAt_push_size]
    exact fun _ _ => rfl
  · intro j' hij
    exact lt_irrefl _ (h.range (.inl hij)).1
  · rw [tableAt_push_size]
    rw [← h.drive] at hFetch
    exact h.regular e he _ hFetch

/-- A table is fetched in both workspaces and kept in the second. -/
theorem lendFetched {bound : Option Nat} {hits misses : Nat}
    (hCache : w.catalog.cache = .memory bound kept hits misses) (he : e ∈ v.catalog.entries)
    {t : Table} (hFetch : e.2.fetch w.drive = .ok (some t)) (misses' : Nat) :
    Shares columns (s.addLent v.frames.size w.frames.size)
      { v with frames := v.frames.push { table := t } }
      ({ w with frames := w.frames.push { table := t } }.withCache
        (.memory bound (limit bound ((e.2.id, .frame w.frames.size) :: kept)) hits misses')) := by
  have hTable := tableAt_push_size w t
  have hPushed := h.pushRight { table := t }
  have hKeeps : Keeps columns s { w with frames := w.frames.push { table := t } } e.2
      (.frame w.frames.size) := by
    refine ⟨by simp, fun i hij => lt_irrefl _ (h.range (.inl hij)).2, ?_, ?_⟩
    · rw [hTable, hFetch]
    · rw [frameAt_push_size]
      exact fun _ _ => rfl
  obtain ⟨_, _, _, _, hCache', hKept⟩ := hPushed.cache
  cases hCache.symm.trans hCache'
  have hState := (hPushed.keep hKept he hKeeps bound hits misses').lendKept he hKeeps
  rw [tableAt_withCache, hTable] at hState
  exact hState

/-- Two tables of a query change in the same way. -/
theorem setOwn (hij : s.own i j)
    (hPlain : s.plain i → ∀ name ∈ f.table.names, StarQualifies columns name) :
    Shares columns s { v with frames := v.frames.set! i f }
      { w with frames := w.frames.set! j f } := by
  refine h.reframe (by simp) (by simp) (fun {i' j'} hij' => ?_) (fun i' _ hOther => ?_)
    (fun j' _ hOther => ?_) fun i' hi' => ?_
  · by_cases hi : i = i'
    · cases hi
      cases (h.own_inj hij hij').1 rfl
      rw [frameAt_set_self (h.range (.inl hij)).1, frameAt_set_self (h.range (.inl hij)).2]
    · rw [frameAt_set_ne hi, frameAt_set_ne fun hj => hi ((h.own_inj hij hij').2 hj)]
      exact h.own hij'
  · have hi : i ≠ i' := by
      rintro rfl
      exact hOther j hij
    rw [frameAt_set_ne hi]
    exact ⟨rfl, id⟩
  · have hj : j ≠ j' := by
      rintro rfl
      exact hOther i hij
    rw [frameAt_set_ne hj]
    exact ⟨rfl, id⟩
  · obtain ⟨hSize, hNames⟩ := h.plain hi'
    rw [tableAt_eq_frameAt]
    by_cases hi : i = i'
    · cases hi
      rw [frameAt_set_self hSize]
      exact hPlain hi'
    · rw [frameAt_set_ne hi]
      exact hNames

/-- A column that may be qualified gets another name in two tables that belong together. -/
theorem rename (hij : s.Pairs i j) (hColumn : columns column) (name : String) :
    Shares columns s { v with frames := v.frames.set! i ((v.frameAt i).rename column name) }
      { w with frames := w.frames.set! j ((w.frameAt j).rename column name) } := by
  rcases hij with hOwn | hLent
  · rw [← h.own hOwn]
    exact h.setOwn hOwn fun hPlain => (h.plain hPlain).2
  · refine h.reframe (by simp) (by simp) (fun hOwn => ?_)
      (fun i' _ _ =>
        ⟨tableAt_rename v i column name i', fun hNames => keepsNames_rename hNames i hColumn name⟩)
      (fun j' _ _ =>
        ⟨tableAt_rename w j column name j', fun hNames => keepsNames_rename hNames j hColumn name⟩)
      fun i' hi' => ?_
    · obtain ⟨hi, hj⟩ := h.apart hOwn hLent
      rw [frameAt_set_ne hi.symm, frameAt_set_ne hj.symm]
      exact h.own hOwn
    · rw [frameAt, tableAt_rename v i column name i']
      exact (h.plain hi').2

/-- Rows that belong together are put in scope. -/
theorem addToScope {r r' : Relation} (hr : Paired s.Pairs r r')
    (name : String) :
    Shares columns s
      { v with catalog := { v.catalog with scope := setNamed v.catalog.scope name r } }
      { w with catalog := { w.catalog with scope := setNamed w.catalog.scope name r' } } where
  __ := h
  scope other := by
    simp only [lookup_setNamed]
    split
    · exact .some hr
    · exact h.scope other

theorem clearScope :
    Shares columns s { v with catalog := { v.catalog with scope := [] } }
      { w with catalog := { w.catalog with scope := [] } } where
  __ := h
  scope _ := .none

/-- More columns may be qualified. -/
theorem mono {more : String → Prop} (hMore : ∀ column, columns column → more column) :
    Shares more s v w where
  __ := h
  lent hij := by
    obtain ⟨hTable, hLeft, hRight⟩ := h.lent hij
    exact ⟨hTable, hLeft.mono hMore, hRight.mono hMore⟩
  cache := h.keeps rfl rfl fun _ hSize hOwn hNames => ⟨hSize, hOwn, rfl, hNames.mono hMore⟩
  plain hi := by
    obtain ⟨hSize, hNames⟩ := h.plain hi
    exact ⟨hSize, fun name hName column hColumn => hMore column (hNames name hName column hColumn)⟩

end Shares

/-- A use that neither changes a shared table nor sees the names of some of its columns. -/
def Sql.Use.Spares (columns : String → Prop) : Use → Prop
  | .operation op args => Node.isIdentity op = false ∨ args.any Node.isLiteral = true
  | .tableKey (.name [column] _) => ¬ columns column
  | .tableKey (.name [table, column] _) => ¬ columns (table ++ "." ++ column)
  | .tableKey key => key.isOperation = false
  | _ => True

namespace Correspondence

open Query

def sharing (columns : String → Prop) : Correspondence where
  Stage := Pairing
  Later := Pairing.Later
  State := Shares columns
  Source s := Paired s.Pairs
  Own s := Paired s.own
  Plain s := Paired fun i _ => s.plain i
  Alike v v' := v.nameless false = v'.nameless false
  Permits u := (∀ column, u.Qualifies column → columns column) ∧ u.Spares columns

section Sharing

variable {s : Pairing} {v : Workspace}
variable {r r' : Relation}
variable {name : String}

theorem sharing_ends {α β : Type} {P : Pairing → α → β → Prop} (h : Shares columns s v w)
    {x : Except Fault α} {y : Except Fault β} (hOutcome : SameOutcome (P s) x y) :
    (sharing columns).Ends s P (x, v) (y, w) :=
  ⟨s, .refl s, h, hOutcome⟩

def columnName? : Value → Option String
  | .column c _ => c.name
  | _ => none

/-- Columns of one table that readers see under one name. -/
theorem sharing_columnsNamed (h : Shares columns s v w) {i j : Nat} (hij : s.Pairs i j)
    (name : String) :
    (sharing columns).Ends s (fun _ u u' => (sharing columns).Alike u u' ∧
      ((v.frameAt i).nameOf name = (w.frameAt j).nameOf name → columnName? u = columnName? u'))
      (run (columnsNamed i name) v) (run (columnsNamed j name) w) := by
  have hTable := h.tableAt_eq hij
  unfold tableAt at hTable
  unfold columnsNamed frameAt
  rw [run_bind_ok (run_frame i v), run_bind_ok (run_frame j w), hTable]
  cases (w.frames[j]?.getD default).table.named name with
  | nil => exact sharing_ends h (.ok ⟨rfl, fun _ => rfl⟩)
  | cons d rest =>
    cases rest with
    | nil => exact sharing_ends h (.ok ⟨rfl, congrArg some⟩)
    | cons => exact sharing_ends h (.ok ⟨rfl, fun _ => rfl⟩)

theorem nameOf_rename (f : Frame) (column name : String) :
    (f.rename column name).nameOf column = name := by
  unfold Frame.rename Frame.nameOf
  rw [lookup_cons_self]
  rfl

/-- A column of a table in scope, which readers see under its full name. -/
theorem sharing_scopedColumn (h : Shares columns s v w) {table : String}
    (hColumn : columns column) :
    (sharing columns).Ends s
      (fun _ u u' => (sharing columns).Alike u u' ∧ columnName? u = columnName? u')
      (run (scopedColumn table column [table, column]) v)
      (run (scopedColumn table column [table, column]) w) := by
  have hScope := h.scope table
  rw [run_scopedColumn, run_scopedColumn]
  generalize v.catalog.scope.lookup table = r, w.catalog.scope.lookup table = r' at hScope
  cases hScope with
  | none => exact sharing_ends h (.error _)
  | some hr =>
    cases hr with
    | @frame i j hij =>
      dsimp only
      rw [h.tableAt_eq hij]
      split
      · obtain ⟨hi, hj⟩ := h.range hij
        obtain ⟨s', hLater, hState, hOutcome⟩ :=
          sharing_columnsNamed (h.rename hij hColumn (writeParts [table, column])) hij column
        refine ⟨s', hLater, hState, hOutcome.mono fun u u' hu => ⟨hu.1, hu.2 ?_⟩⟩
        rw [frameAt_set_self hi, frameAt_set_self hj, nameOf_rename, nameOf_rename]
      · exact sharing_ends h (.error _)
    | _ => exact sharing_ends h (.error _)

theorem readsAlike_sharing : (sharing columns).ReadsAlike where
  later_refl := .refl
  later_trans := .trans
  source_mono hLater h := h.mono fun _ _ => hLater.pairs
  source_cases := by
    intro s r r' h
    cases h with
    | absent => exact .inr (.inl ⟨rfl, rfl⟩)
    | value v => exact .inr (.inr ⟨v, rfl, rfl⟩)
    | @frame i j h => exact .inl ⟨i, j, rfl, rfl⟩
  tableAt_eq hState h := by
    cases h with
    | frame hij => exact Shares.tableAt_eq hState hij
  columnsNamed h name v w hState := by
    cases h with
    | frame hij =>
      obtain ⟨s', hLater, hState', hOutcome⟩ := sharing_columnsNamed hState hij name
      exact ⟨s', hLater, hState', hOutcome.mono fun _ _ => And.left⟩
  scopedColumn _ table column hPermits v w hState := by
    obtain ⟨s', hLater, hState', hOutcome⟩ :=
      sharing_scopedColumn hState (hPermits.1 column ⟨table, rfl⟩)
    exact ⟨s', hLater, hState', hOutcome.mono fun _ _ => And.left⟩

theorem sameOutcome_nameless {x y : Except Fault Value}
    (h : nameless false <$> x = nameless false <$> y) :
    SameOutcome (sharing columns).Alike x y := by
  cases x with
  | error e =>
    cases y with
    | error e' =>
      cases h
      exact .error e
    | ok u => cases h
  | ok u =>
    cases y with
    | error e' => cases h
    | ok u' => exact .ok (Except.ok.inj h)

theorem sharing_call (h : Shares columns s v w) {op : String} {args : List Node}
    (hPermits : Use.Spares columns (.operation op args)) {values values' : List Value}
    (hValues : Forall₂ (sharing columns).Alike values values')
    (hAnswer : (evalArgs r args).CanAnswer values)
    (hAnswer' : (evalArgs r' args).CanAnswer values') :
    (sharing columns).Ends s (fun _ => (sharing columns).Alike) (run (call op values) v)
      (run (call op values') w) := by
  have hSame : values.map (nameless false) = values'.map (nameless false) := by
    clear hAnswer hAnswer'
    induction hValues with
    | nil => rfl
    | cons hFirst _ ih => exact congrArg₂ cons hFirst ih
  have hOrigins {r : Relation} {values : List Value}
      (hAnswer : (evalArgs r args).CanAnswer values) :
      false = true ∨ Node.isIdentity op = false ∨ ∃ v ∈ values, v.origin? = none := by
    obtain ⟨w, w', hRun⟩ := hAnswer
    exact .inr (hPermits.imp_right fun hLiteral => exists_origin?_of_isLiteral hLiteral hRun)
  rw [run_call, run_call, ← h.extensions]
  refine sharing_ends h (sameOutcome_nameless ?_)
  rw [← callAmong_nameless h.seesNoNames (hOrigins hAnswer),
    ← callAmong_nameless h.seesNoNames (hOrigins hAnswer'), hSame]

theorem starrable_sharing : (sharing columns).Starrable name ↔ StarQualifies columns name := by
  constructor
  · rintro (hRegular | hReference)
    · exact starQualifies_of_isRegular hRegular
    · exact fun column hColumn => hReference.1 column hColumn.2
  · intro hStar
    refine or_iff_not_imp_left.2 fun hRegular => ⟨?_, trivial⟩
    exact fun column hColumn => hStar column ⟨hRegular, hColumn⟩

theorem sharing_newFrame (h : Shares columns s v w) (t : Table) : (sharing columns).Ends s
      (fun s i j => (sharing columns).Own s (.frame i) (.frame j) ∧
        ((sharing columns).AllStarrable t.names → (sharing columns).Plain s (.frame i) (.frame j)))
      (run (newFrame t) v) (run (newFrame t) w) := by
  refine ⟨_, s.later_addOwn _ _ _, h.newOwn t, .ok ⟨.frame (.inr ⟨rfl, rfl⟩), fun hStarrable => ?_⟩⟩
  have hStar : (sharing columns).Permits (.star true) := ⟨nofun, trivial⟩
  exact .frame (.inr ⟨rfl, fun name hName => starrable_sharing.1 (hStarrable hStar name hName)⟩)

theorem sharing_addToScope (h : Shares columns s v w) (hr : Paired s.Pairs r r') (name : String) :
    (sharing columns).Ends s (fun _ _ _ => True) (run (addToScope name r) v)
      (run (addToScope name r') w) :=
  ⟨s, .refl s, h.addToScope hr name, .ok trivial⟩

/-- The rows of a table: fetched in one workspace, asked for in the other. -/
theorem sharing_rowsOf (h : Shares columns s v w) {e : Document × Entry}
    (he : e ∈ v.catalog.entries) :
    (sharing columns).Ends s
      (fun s r r' => (sharing columns).Source s r r' ∧ (sharing columns).Plain s r r')
      (run (rowsOf e.2) v) (run (rowsOf e.2.asCached) w) := by
  obtain ⟨bound, kept, hits, misses, hCache, hKept⟩ := h.cache
  have hName : e.2.asCached.name.isScalar = true := h.isScalar e he
  rw [run_rowsOf_uncached (h.uncached e he), run_rowsOf_cached (e := e.2.asCached) rfl hCache,
    if_pos hName, h.drive]
  simp only [Entry.id_asCached, Entry.fetch_asCached]
  cases hLookup : kept.lookup e.2.id with
  | some r =>
    have hKeeps := hKept e he r hLookup
    have hAsked : ∀ e' ∈ v.catalog.entries, ∀ r',
        ((e.2.id, r) :: kept.filter fun k => k.1 != e.2.id).lookup e'.2.id = some r' →
          Keeps columns s w e'.2 r' :=
      fun e' he' r' hr' => hKept e' he' r' ((lookup_asked hLookup _).symm.trans hr')
    have hState := h.recache hAsked bound (hits + 1) misses
    cases r with
    | frame j =>
      rw [hKeeps.2.2.1]
      exact ⟨_, s.later_addLent _ j, hState.lendKept he hKeeps,
        .ok ⟨.frame (.inr (.inr ⟨rfl, rfl⟩)), .frame (.inr rfl)⟩⟩
    | value u =>
      obtain ⟨rfl, hFetch⟩ := hKeeps
      rw [hFetch]
      exact sharing_ends hState (.ok ⟨.value _, .value _⟩)
    | absent => exact hKeeps.elim
  | none =>
    cases hFetch : e.2.fetch w.drive with
    | error f => exact sharing_ends (h.recache hKept bound hits (misses + 1)) (.error f)
    | ok found =>
      cases found with
      | none =>
        have hKeeps : Keeps columns s w e.2 (.value (.scalar .null)) := ⟨rfl, hFetch⟩
        exact sharing_ends (h.keep hKept he hKeeps bound hits (misses + 1))
          (.ok ⟨.value _, .value _⟩)
      | some t =>
        exact ⟨_, s.later_addLent _ _, h.lendFetched hCache he hFetch (misses + 1),
          .ok ⟨.frame (.inr (.inr ⟨rfl, rfl⟩)), .frame (.inr rfl)⟩⟩

theorem sharing_tableOf (h : Shares columns s v w) (parts : List String) : (sharing columns).Ends s
      (fun s r r' => (sharing columns).Source s r r' ∧ (sharing columns).Plain s r r')
      (run (tableOf parts) v) (run (tableOf parts) w) := by
  have hEntries (key : Document) : entryAt? w.catalog.entries key =
      (entryAt? v.catalog.entries key).map Entry.asCached := by
    unfold entryAt?
    rw [h.entries, find?_map, Option.map_map, Option.map_map]
    rfl
  unfold tableOf
  rw [run_bind_ok (run_catalog v), run_bind_ok (run_catalog w), hEntries]
  cases hEntry : entryAt? v.catalog.entries (.text (writeParts parts)) with
  | none => exact sharing_ends h (.error _)
  | some e =>
    obtain ⟨key, he⟩ := mem_of_entryAt? hEntry
    refine readsAlike_sharing.ends_bind (sharing_rowsOf h he)
      fun s₁ r r' v₁ w₁ _ hState hRows _ _ => ?_
    refine readsAlike_sharing.ends_bind (sharing_addToScope hState hRows.1 _)
      fun s₂ _ _ v₂ w₂ hLater hState' _ _ _ => sharing_ends hState' (.ok ⟨?_, ?_⟩)
    · exact hRows.1.mono fun _ _ => hLater.pairs
    · exact hRows.2.mono fun _ _ => hLater.plain

/-- A key that is a column of a shared table is one that has its own name there. -/
theorem sharing_keyName {parts : List String} {tag : Tag}
    (hPermits : ∀ table column, parts = [table, column] → columns column)
    (hKeyable : (sharing columns).Keyable s r r' (.name parts tag)) :
    (sharing columns).Agree s (fun _ => Eq) (keyName parts r) (keyName parts r') := by
  have hSource : (sharing columns).Source s r r' :=
    hKeyable.elim (fun h => Paired.mono h fun _ _ => .inl) And.left
  have hNamed : ∀ {i j name}, r = .frame i → r' = .frame j →
      (parts = [name] ∨ ∃ table column, parts = [table, column] ∧ name = table ++ "." ++ column) →
      s.own i j ∨ s.lent i j ∧ ¬ columns name := by
    rintro i j name rfl rfl hName
    rcases hKeyable with hOwn | ⟨hPaired, _, hKey⟩
    · cases hOwn with
      | frame hij => exact .inl hij
    · cases hPaired with
      | frame hij =>
        refine hij.imp_right fun hLent => ⟨hLent, ?_⟩
        rcases hName with rfl | ⟨table, column, rfl, rfl⟩ <;> exact hKey.2
  refine readsAlike_sharing.agree_bind
    (P := fun _ u u' => (sharing columns).Alike u u' ∧ columnName? u = columnName? u')
    (readsAlike_sharing.agree_columnOf_of hSource ?_ ?_) ?_
  · intro s' i j name hLater hr hr' hName v w hState
    have hPair := hNamed hr hr' hName
    obtain ⟨s'', hLater', hState', hOutcome⟩ :=
      sharing_columnsNamed hState (hLater.pairs (hPair.imp_right And.left)) name
    refine ⟨s'', hLater', hState', hOutcome.mono fun u u' hu => ⟨hu.1, hu.2 ?_⟩⟩
    rcases hPair with hOwn | ⟨hLent, hColumn⟩
    · rw [Shares.own hState (hLater.own hOwn)]
    · obtain ⟨_, hLeft, hRight⟩ := Shares.lent hState (hLater.lent hLent)
      rw [hLeft.nameOf hColumn, hRight.nameOf hColumn]
  · rintro s' table column rfl v w hState
    exact sharing_scopedColumn hState (hPermits table column rfl)
  · rintro s' u u' _ ⟨hu, hName⟩
    rcases nameless_eq_cases hu with ⟨c, rfl, rfl⟩ | ⟨t, rfl, rfl⟩ |
      ⟨labels, name, name', data, origin, origin', rfl, rfl⟩
    · exact readsAlike_sharing.agree_throw s' _ _
    · exact readsAlike_sharing.agree_throw s' _ _
    · exact readsAlike_sharing.agree_pure (congrArg (getD · "") hName)

theorem sharing_addKey (h : Shares columns s v w) (hr : Paired s.own r r')
    (hName : StarQualifies columns name) {u u' : Value}
    (hu : u.nameless false = u'.nameless false) :
    (sharing columns).Ends s (fun _ _ _ => True) (run (addKey r name u) v)
      (run (addKey r' name u') w) := by
  cases hr with
  | @frame i j hij =>
    have hTable := h.tableAt_eq (.inl hij)
    have hFrame := h.own hij
    unfold frameAt at hFrame
    have hData : keyData (v.tableAt i) u = keyData (w.tableAt j) u' := by
      rw [hTable]
      rcases nameless_eq_cases hu with ⟨c, rfl, rfl⟩ | ⟨t, rfl, rfl⟩ |
        ⟨labels, name, name', data, origin, origin', rfl, rfl⟩ <;> rfl
    rw [run_addKey, run_addKey, hData, hFrame]
    cases keyData (w.tableAt j) u' with
    | error e => exact sharing_ends h (.error e)
    | ok d =>
      refine ⟨s, .refl s, h.setOwn hij fun hPlain => ?_, .ok trivial⟩
      have hNames := (h.plain hPlain).2
      rw [hTable] at hNames
      refine forall_mem_map.2
        (Table.names_setColumn (S := {c | StarQualifies columns c}) ?_ hName d)
      exact forall_mem_map.1 hNames
  | absent => exact sharing_ends h (.error _)
  | value x => exact sharing_ends h (.error _)

theorem lawful_sharing : (sharing columns).Lawful where
  toReadsAlike := readsAlike_sharing
  own_mono hLater h := h.mono fun _ _ => hLater.own
  plain_mono hLater h := h.mono fun _ _ => hLater.plain
  source_of_own h := h.mono fun _ _ => .inl
  own_absent _ := .absent
  own_value _ := .value
  plain_value _ := .value
  starrable hState h _ name hName := by
    cases h with
    | frame hi => exact starrable_sharing.2 ((Shares.plain hState hi).2 name hName)
  starrable_of_permits hPermits name := .inr ⟨fun column _ => hPermits.1 column rfl, trivial⟩
  steady := .inr columnsStay
  extensions_eq hState := Shares.extensions hState
  alike_self _ := rfl
  nameless_eq h := h
  cast := by
    intro u u' hu type
    refine sameOutcome_nameless ?_
    rw [← cast_nameless, ← cast_nameless]
    exact congrArg (cast type) hu
  call _ _ _ _ _ _ _ hPermits hValues hAnswer hAnswer' _ _ hState :=
    sharing_call hState hPermits.2 hValues hAnswer hAnswer'
  tableOf _ parts _ _ hState := sharing_tableOf hState parts
  newFrame _ t _ _ hState := sharing_newFrame hState t
  addToScope hr name _ _ hState := sharing_addToScope hState hr name
  clearScope s _ _ hState := ⟨s, .refl s, Shares.clearScope hState, .ok trivial⟩
  keyName hPermits := sharing_keyName fun table column hParts => hPermits.1 column ⟨table, hParts⟩
  addKey := by
    intro s r r' key u u' hPermits hOperation hKeyable hu v w hState
    rcases hKeyable with hOwn | ⟨_, _, hKey⟩
    · exact sharing_addKey hState hOwn hPermits.1 hu
    · cases key with
      | operation form op args tag => cases hKey.2
      | _ => cases hOperation

end Sharing

end Correspondence

end TableQuery
