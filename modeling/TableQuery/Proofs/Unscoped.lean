import TableQuery.Proofs.Sharing

/-! Conditions without qualified references. Workspaces that differ in their scope are the same to
them, subqueries included, and they leave the table that they are evaluated over. -/

namespace TableQuery

open List Work Array Workspace

open Sql

namespace Workspace

/-- The cache keeps tables only that were handed out. -/
def CacheHeld (w : Workspace) : Prop := ∀ i, w.Caches i → i < w.frames.size

end Workspace

/-- Queries put no table into the cache that was not handed out. -/
theorem outlastsQueries_cacheHeld : OutlastsQueries CacheHeld where
  newFrame t h i hi := by
    rw [size_push]
    exact Nat.lt_succ_of_lt (h i hi)
  rowsOf e w h := by
    rcases run_rowsOf_cases e w with ⟨x, cache, hRun, hCaches⟩ | ⟨t, cache, _, hRun, hCaches⟩
    · rw [hRun]
      exact fun i hi => h i (hCaches i (.inr hi))
    · rw [hRun]
      intro i hi
      change i < (w.frames.push _).size
      rw [size_push]
      rcases hCaches i hi with rfl | hOld
      · exact Nat.lt_succ_self _
      · exact Nat.lt_succ_of_lt (h i hOld)
  rename id column name h i hi := by
    rw [set!_eq_setIfInBounds, size_setIfInBounds]
    exact h i hi
  setColumn id name d h i hi := by
    rw [set!_eq_setIfInBounds, size_setIfInBounds]
    exact h i hi
  scope _ h := h

/-- Uses that ask nothing of the scope. Stars are over tables with regular names. -/
structure Unscoped (uses : List Use) (w : Workspace) : Prop where
  references (table column : String) : .reference [table, column] ∉ uses
  derived : .star false ∉ uses
  keys : .star true ∈ uses → ∀ column, .keyColumn column ∈ uses → Sql.IsRegular column
  fetched : .star true ∈ uses → w.FetchesOnly Sql.IsRegular
  cached : .star true ∈ uses → ∀ i, w.Caches i → ∀ column ∈ (w.tableAt i).names,
    Sql.IsRegular column

/-- What subqueries find: the table is not in the cache, and tables under a star have regular names.
-/
structure Workspace.Serves (stars : Prop) (id : Nat) (t : Table) (plain : Nat → Prop)
    (w : Workspace) : Prop where
  held : id < w.frames.size
  table : w.tableAt id = t
  apart : ∀ i, plain i → i ≠ id ∧ i < w.frames.size
  cached : ∀ i, w.Caches i → plain i
  named : stars → ∀ i, plain i → ∀ column ∈ (w.tableAt i).names, Sql.IsRegular column
  fetched : stars → w.FetchesOnly Sql.IsRegular

namespace Workspace.Serves

variable {stars : Prop} {id : Nat} {t : Table} {plain : Nat → Prop} {w : Workspace}
  (h : w.Serves stars id t plain)
include h

theorem withScope (scope : List (String × Relation)) :
    (w.withScope scope).Serves stars id t plain where
  __ := h

theorem withCache {cache : Cache Relation} (hCaches : ∀ i, (w.withCache cache).Caches i → plain i) :
    (w.withCache cache).Serves stars id t plain where
  __ := h
  cached := hCaches

theorem newFrame (u : Table) :
    { w with frames := w.frames.push { table := u } }.Serves stars id t fun i =>
      plain i ∨ i = w.frames.size ∧ (stars → ∀ column ∈ u.names, Sql.IsRegular column) where
  __ := h
  held := by
    rw [size_push]
    exact Nat.lt_succ_of_lt h.held
  table := (tableAt_push_of_lt h.held _).trans h.table
  apart i hi := by
    rw [size_push]
    rcases hi with hi | ⟨rfl, _⟩
    · exact ⟨(h.apart i hi).1, Nat.lt_succ_of_lt (h.apart i hi).2⟩
    · exact ⟨h.held.ne', Nat.lt_succ_self _⟩
  cached i hi := .inl (h.cached i hi)
  named hStars i hi := by
    rcases hi with hi | ⟨rfl, hNames⟩
    · rw [tableAt_push_of_lt (h.apart i hi).2]
      exact h.named hStars i hi
    · rw [tableAt_push_size]
      exact hNames hStars

/-- A column that is added to another table. -/
theorem setColumn {i : Nat} (hi : i ≠ id) {name : String} (hName : stars → Sql.IsRegular name)
    (d : Data) :
    { w with frames := w.frames.set! i ((w.frames[i]?.getD default).setColumn name d) }.Serves stars
      id t plain where
  __ := h
  held := by
    rw [set!_eq_setIfInBounds, size_setIfInBounds]
    exact h.held
  table := (congrArg Frame.table (frameAt_set_ne hi _)).trans h.table
  apart j hj := by
    rw [set!_eq_setIfInBounds, size_setIfInBounds]
    exact h.apart j hj
  named hStars j hj := by
    by_cases hSame : i = j
    · subst hSame
      rw [tableAt_eq_frameAt, frameAt_set_self (h.apart i hj).2]
      refine forall_mem_map.2
        (Table.names_setColumn (S := {c | Sql.IsRegular c}) ?_ (hName hStars) d)
      exact forall_mem_map.1 (h.named hStars i hj)
    · rw [tableAt_eq_frameAt, frameAt_set_ne hSame]
      exact h.named hStars j hj

/-- The rows of a table of the catalog are a table that a star may stand for. -/
theorem rowsOf {e : Entry} (he : ∃ key, (key, e) ∈ w.catalog.entries) :
    ∃ more : Nat → Prop, (∀ i, plain i → more i) ∧ (run (rowsOf e) w).2.Serves stars id t more ∧
      ∀ i, (run (rowsOf e) w).1 = .ok (.frame i) → more i := by
  obtain ⟨key, he⟩ := he
  rcases run_rowsOf_cases e w with ⟨x, cache, hRun, hCaches⟩ | ⟨u, cache, hFetch, hRun, hCaches⟩
  · rw [hRun]
    exact ⟨plain, fun _ hi => hi, h.withCache fun i hi => h.cached i (hCaches i (.inr hi)),
      fun i hi => h.cached i (hCaches i (.inl hi))⟩
  · rw [hRun]
    have hNames : stars → ∀ column ∈ u.names, Sql.IsRegular column :=
      fun hStars => h.fetched hStars (key, e) he u hFetch
    refine ⟨_, fun _ => .inl, (h.newFrame u).withCache fun i hi => ?_, fun i hi => ?_⟩
    · exact (hCaches i hi).elim (fun hSize => .inr ⟨hSize, hNames⟩)
        fun hOld => .inl (h.cached i hOld)
    · cases hi
      exact .inr ⟨rfl, hNames⟩

end Workspace.Serves

namespace Work

variable {α β : Type}

def IgnoresScope (x : Work α) : Prop :=
  ∀ scope w, run x (w.withScope scope) = ((run x w).1, (run x w).2.withScope scope)

/-- What the cache has in store is not in the scope. -/
theorem ignoresScope_rowsOf (e : Entry) : (rowsOf e).IgnoresScope := by
  intro scope w
  have hDrive : (w.withScope scope).drive = w.drive := rfl
  cases he : e.cached with
  | false =>
    rw [run_rowsOf_uncached he, run_rowsOf_uncached he, hDrive]
    rcases e.fetch w.drive with f | _ | t <;> rfl
  | true =>
    cases hCache : w.catalog.cache with
    | nothing =>
      rw [run_rowsOf_nothing he hCache, run_rowsOf_nothing (w := w.withScope scope) he hCache]
    | memory bound kept hits misses =>
      rw [run_rowsOf_cached he hCache, run_rowsOf_cached (w := w.withScope scope) he hCache, hDrive]
      cases e.name.isScalar with
      | false => rfl
      | true =>
        cases kept.lookup e.id with
        | some r => rfl
        | none => rcases e.fetch w.drive with f | _ | t <;> rfl

end Work

namespace Query

theorem ignoresScope_columnsNamed (id : Nat) (name : String) :
    (columnsNamed id name).IgnoresScope := by
  intro scope w
  unfold columnsNamed
  rw [run_bind_ok (run_frame id _), run_bind_ok (run_frame id w)]
  generalize hNamed : (w.frames[id]?.getD default).table.named name = found
  have hSame : ((w.withScope scope).frames[id]?.getD default).table.named name = found := hNamed
  rw [hSame]
  cases found with
  | nil => rfl
  | cons d rest => cases rest <;> rfl

theorem ignoresScope_addKey (source : Relation) (name : String) (v : Value) :
    (addKey source name v).IgnoresScope := by
  intro scope w
  cases source with
  | frame id =>
    have hTable : (w.withScope scope).tableAt id = w.tableAt id := rfl
    rw [run_addKey, run_addKey, hTable]
    cases keyData (w.tableAt id) v <;> rfl
  | _ => rfl

theorem ignoresScope_call (op : String) (args : List Value) : (call op args).IgnoresScope := by
  intro scope w
  rw [run_call, run_call]
  rfl

end Query

namespace Correspondence

open Query

/-- A workspace with other tables in scope beside itself, while a condition is evaluated. -/
def rescope (uses : List Use) (id : Nat) (t : Table) : Correspondence where
  Stage := Nat → Prop
  Later plain more := ∀ i, plain i → more i
  State plain v w := (∃ scope, v = w.withScope scope) ∧ w.Serves (.star true ∈ uses) id t plain
  Source _ := Eq
  Own _ r r' := r = r' ∧ r ≠ .frame id
  Plain plain r r' := r = r' ∧ ∀ i, r = .frame i → plain i
  Alike := Eq
  Permits := (· ∈ uses)

section Rescope

variable {uses : List Use} {id : Nat} {t : Table} {plain : Nat → Prop} {v w w₀ : Workspace}
  {α : Type}

/-- The ends of a step that has nothing to do with the scope. -/
theorem rescope_ends {x : Work α} (hx : x.IgnoresScope) {P : (Nat → Prop) → α → α → Prop}
    (hState : (rescope uses id t).State plain v w) {more : Nat → Prop}
    (hMore : ∀ i, plain i → more i) (hServes : (run x w).2.Serves (.star true ∈ uses) id t more)
    (hP : ∀ a, (run x w).1 = .ok a → P more a a) :
    (rescope uses id t).Ends plain P (run x v) (run x w) := by
  obtain ⟨⟨scope, rfl⟩, _⟩ := hState
  rw [hx]
  exact ⟨more, hMore, ⟨⟨scope, rfl⟩, hServes⟩, .of_eq hP⟩

/-- The ends of a step that changes nothing. -/
theorem rescope_ends_still {x : Work α} (hx : x.IgnoresScope) {P : (Nat → Prop) → α → α → Prop}
    (hState : (rescope uses id t).State plain v w) (hStill : (run x w).2 = w)
    (hP : ∀ a, P plain a a) : (rescope uses id t).Ends plain P (run x v) (run x w) :=
  rescope_ends hx hState (fun _ hi => hi) (hStill.symm ▸ hState.2) fun a _ => hP a

theorem readsAlike_rescope (hUses : Unscoped uses w₀) : (rescope uses id t).ReadsAlike where
  later_refl _ _ h := h
  later_trans h h' i hi := h' i (h i hi)
  source_mono _ h := h
  source_cases := by
    rintro _ r _ rfl
    cases r with
    | frame i => exact .inl ⟨i, i, rfl, rfl⟩
    | absent => exact .inr (.inl ⟨rfl, rfl⟩)
    | value v => exact .inr (.inr ⟨v, rfl, rfl⟩)
  tableAt_eq := by
    rintro _ _ w i _ ⟨⟨scope, rfl⟩, _⟩ h
    cases h
    rfl
  columnsNamed := by
    intro _ i _ h name v w hState
    cases h
    exact rescope_ends_still (ignoresScope_columnsNamed i name) hState
      (maintains_columnsNamed (I := (· = w)) i name w rfl) fun _ => rfl
  scopedColumn _ table column hPermits := absurd hPermits (hUses.references table column)

theorem rescope_addToScope (hState : (rescope uses id t).State plain v w) (name : String)
    (r : Relation) :
    (rescope uses id t).Ends plain (fun _ _ _ => True) (run (addToScope name r) v)
      (run (addToScope name r) w) := by
  obtain ⟨⟨scope, rfl⟩, hServes⟩ := hState
  exact ⟨plain, fun _ hi => hi, ⟨⟨_, rfl⟩, hServes.withScope _⟩, .ok trivial⟩

theorem rescope_tableOf (hUses : Unscoped uses w₀) (hState : (rescope uses id t).State plain v w)
    (parts : List String) : (rescope uses id t).Ends plain
      (fun s r r' => (rescope uses id t).Source s r r' ∧ (rescope uses id t).Plain s r r')
      (run (tableOf parts) v) (run (tableOf parts) w) := by
  have hEntries : v.catalog.entries = w.catalog.entries := by
    obtain ⟨⟨scope, rfl⟩, _⟩ := hState
    rfl
  unfold tableOf
  rw [run_bind_ok (run_catalog v), run_bind_ok (run_catalog w), hEntries]
  cases hEntry : entryAt? w.catalog.entries (.text (writeParts parts)) with
  | none => exact (readsAlike_rescope hUses).agree_throw plain _ _ _ _ hState
  | some e =>
    obtain ⟨more, hMore, hServes, hRows⟩ := hState.2.rowsOf (mem_of_entryAt? hEntry)
    have hEnds := rescope_ends (P := (rescope uses id t).Plain) (ignoresScope_rowsOf e) hState hMore
      hServes fun r hr => ⟨rfl, fun i hi => hRows i (hi ▸ hr)⟩
    refine (readsAlike_rescope hUses).ends_bind hEnds fun s r r' v' w' _ hState' hr _ _ => ?_
    obtain ⟨rfl, hPlain⟩ := hr
    refine (readsAlike_rescope hUses).ends_bind (rescope_addToScope hState' _ r)
      fun s' _ _ v'' w'' hLater hState'' _ _ _ => ?_
    exact ⟨s', fun _ hi => hi, hState'', .ok ⟨rfl, rfl, fun i hi => hLater i (hPlain i hi)⟩⟩

theorem rescope_newFrame (hUses : Unscoped uses w₀) (hState : (rescope uses id t).State plain v w)
    (u : Table) :
    (rescope uses id t).Ends plain
      (fun s i j => (rescope uses id t).Own s (.frame i) (.frame j) ∧
        ((rescope uses id t).AllStarrable u.names →
          (rescope uses id t).Plain s (.frame i) (.frame j))) (run (newFrame u) v)
      (run (newFrame u) w) := by
  refine rescope_ends (x := newFrame u) (fun _ _ => rfl) hState (fun _ => .inl)
    (hState.2.newFrame u) fun i hi => ?_
  cases hi
  refine ⟨⟨rfl, fun hSame => hState.2.held.ne' (Relation.frame.inj hSame)⟩,
    fun hStarred => ⟨rfl, ?_⟩⟩
  rintro _ ⟨⟩
  refine .inr ⟨rfl, fun hStars column hColumn => ?_⟩
  rcases hStarred hStars column hColumn with hRegular | hUse
  · exact hRegular
  · -- a name that is split in two is referred to nowhere
    intro table name hSplit
    rw [hSplit] at hUse
    exact absurd hUse (hUses.references table name)

theorem rescope_addKey (hUses : Unscoped uses w₀) (hState : (rescope uses id t).State plain v w)
    {r : Relation} (hr : r ≠ .frame id) {name : String} (hName : .keyColumn name ∈ uses)
    (u : Value) :
    (rescope uses id t).Ends plain (fun _ _ _ => True) (run (addKey r name u) v)
      (run (addKey r name u) w) := by
  refine rescope_ends (ignoresScope_addKey r name u) hState (fun _ hi => hi) ?_ fun _ _ => trivial
  cases r with
  | frame i =>
    rw [run_addKey]
    cases keyData (w.tableAt i) u with
    | error f => exact hState.2
    | ok d =>
      have hi : i ≠ id := fun hSame => hr (congrArg Relation.frame hSame)
      exact hState.2.setColumn hi (fun hStars => hUses.keys hStars name hName) d
  | absent => exact hState.2
  | value x => exact hState.2

/-- Nothing but qualified references and irregular names depends on the scope. -/
theorem lawful_rescope (hUses : Unscoped uses w₀) : (rescope uses id t).Lawful where
  toReadsAlike := readsAlike_rescope hUses
  own_mono _ h := h
  plain_mono hLater h := ⟨h.1, fun i hi => hLater i (h.2 i hi)⟩
  source_of_own h := h.1
  own_absent _ := ⟨rfl, nofun⟩
  own_value _ _ := ⟨rfl, nofun⟩
  plain_value _ _ := ⟨rfl, nofun⟩
  starrable := by
    rintro plain _ w i j ⟨⟨scope, rfl⟩, hServes⟩ h hStars column hColumn
    exact .inl (hServes.named hStars i (h.2 i rfl) column hColumn)
  starrable_of_permits hStar := absurd hStar hUses.derived
  steady := .inr columnsStay
  extensions_eq := by
    rintro _ _ w ⟨⟨scope, rfl⟩, _⟩
    rfl
  alike_self _ := rfl
  nameless_eq h := congrArg (Value.nameless false) h
  cast := by
    rintro v _ rfl type
    exact .of_eq fun _ _ => rfl
  call := by
    intro _ op args r r' values values' _ hValues _ _ v w hState
    have hSame : values = values' := forall₂_eq_eq_eq (α := Value) ▸ hValues
    subst hSame
    exact rescope_ends_still (ignoresScope_call op values) hState (by rw [run_call]) fun _ => rfl
  tableOf _ parts _ _ hState := rescope_tableOf hUses hState parts
  newFrame _ u _ _ hState := rescope_newFrame hUses hState u
  addToScope := by
    rintro _ r _ rfl name v w hState
    exact rescope_addToScope hState name r
  clearScope plain := by
    rintro _ w ⟨⟨scope, rfl⟩, hServes⟩
    exact ⟨plain, fun _ hi => hi, ⟨⟨[], rfl⟩, hServes.withScope []⟩, .ok trivial⟩
  keyName := by
    intro plain r r' parts tag hPermits hKeyable
    have hC : (rescope uses id t).ReadsAlike := readsAlike_rescope hUses
    have hSource : r = r' := hKeyable.elim And.left And.left
    refine hC.agree_bind (hC.agree_columnOf (s := plain) hSource hPermits) fun s' u u' _ hu => ?_
    subst hu
    cases u with
    | column c origin => exact hC.agree_pure rfl
    | _ => exact hC.agree_throw s' _ _
  addKey := by
    rintro plain r r' key u _ hPermits _ hKeyable rfl v w hState
    have hOther : r = r' ∧ r ≠ .frame id := by
      rcases hKeyable with hOwn | ⟨hSame, hPlain, _⟩
      · exact hOwn
      · exact ⟨hSame, fun hi => (hState.2.apart id (hPlain.2 id hi)).1 rfl⟩
    obtain ⟨rfl, hr⟩ := hOther
    exact rescope_addKey hUses hState hr hPermits u

end Rescope

end Correspondence

namespace Query

/-- The value of a condition over a table that was just handed out does not depend on the scope. -/
theorem run_evalCondition_withScope {p : Node} {w : Workspace} (hUses : Unscoped p.uses w)
    (hHeld : w.CacheHeld) (t : Table) (scope : List (String × Relation)) {x : Except Fault Value}
    {w' : Workspace}
    (hRun : run (evalCondition (.frame w.frames.size) p)
      { w with frames := w.frames.push { table := t } } = (x, w')) :
    w'.tableAt w.frames.size = t ∧
    ∃ scope',
      run (evalCondition (.frame w.frames.size) p)
        ({ w with frames := w.frames.push { table := t } }.withScope scope) =
        (x, w'.withScope scope') := by
  have hServes : { w with frames := w.frames.push { table := t } }.Serves (Use.star true ∈ p.uses)
      w.frames.size t w.Caches := by
    refine ⟨by simp, tableAt_push_size w t, fun i hi => ?_, fun _ hi => hi, fun hStars i hi => ?_,
      hUses.fetched⟩
    · have hSize := hHeld i hi
      rw [size_push]
      omega
    · rw [tableAt_push_of_lt (hHeld i hi)]
      exact hUses.cached hStars i hi
  have hC : (Correspondence.rescope p.uses w.frames.size t).Lawful :=
    Correspondence.lawful_rescope hUses
  obtain ⟨_, _, ⟨⟨scope', hState⟩, hLater⟩, hOutcome⟩ := hC.agree_evalCondition
    (Correspondence.agree_evalExpr hC rfl fun _ hu => hu) _ _ ⟨⟨scope, rfl⟩, hServes⟩
  rw [hRun] at hState hLater hOutcome
  exact ⟨hLater.table, scope', Prod.ext hOutcome.eq hState⟩

end Query

end TableQuery
