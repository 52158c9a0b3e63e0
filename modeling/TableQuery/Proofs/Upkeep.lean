import Mathlib.Data.List.Basic
import TableQuery.Proofs.Work
import TableQuery.Query.Eval

/-! Properties of the workspace that steps of work keep. A query hands tables out, asks the cache,
renames and adds columns and sets the scope. It changes nothing else, so it keeps every property of
the drive and of the entries. -/
namespace TableQuery

open Work Workspace Sql

variable {I : Workspace → Prop}

namespace Work

variable {α β : Type}

def Maintains (I : Workspace → Prop) (x : Work α) : Prop := ∀ w, I w → I (Work.run x w).2

theorem maintains_pure (a : α) : Maintains I (pure a) := fun _ h => h

theorem maintains_throw (f : Fault) : Maintains I (throw f : Work α) := fun _ h => h

theorem maintains_lift (e : Except Fault α) : Maintains I (lift e) := by
  intro w h
  rw [run_lift]
  exact h

theorem maintains_catalog : Maintains I catalog := fun _ h => h

theorem maintains_drive : Maintains I drive := fun _ h => h

theorem maintains_frame (id : Nat) : Maintains I (frame id) := fun _ h => h

/-- A sequence keeps what its parts keep. Where the first part fails the rest is not run. -/
theorem Maintains.bind {x : Work α} {f : α → Work β} (hx : Maintains I x)
    (hf : ∀ a, Maintains I (f a)) : Maintains I (x >>= f) := by
  intro w hw
  have hFirst := hx w hw
  rw [run_bind]
  rcases hRun : run x w with ⟨_ | a, w'⟩
  · rw [hRun] at hFirst
    exact hFirst
  · rw [hRun] at hFirst
    exact hf a w' hFirst

end Work

def Cache.answers {α : Type} : Cache α → List α
  | .memory _ kept _ _ => kept.map (·.2)
  | .nothing => []

theorem Cache.limit_subset {α : Type} (bound : Option Nat) (kept : List (Nat × α)) :
    limit bound kept ⊆ kept := by
  cases bound with
  | none => exact List.Subset.refl kept
  | some n => exact List.take_subset n kept

namespace Workspace

def withCache (w : Workspace) (cache : Cache Relation) : Workspace :=
  { w with catalog := { w.catalog with cache } }

/-- The rows that are made of what was fetched, and the workspace in which they are handed out. -/
def handed (w : Workspace) : Option Table → Relation × Workspace
  | none => (.value (.scalar .null), w)
  | some t => (.frame w.frames.size, { w with frames := w.frames.push { table := t } })

def Caches (w : Workspace) (i : Nat) : Prop := .frame i ∈ w.catalog.cache.answers

structure OutlastsFetches (I : Workspace → Prop) : Prop where
  newFrame {w : Workspace} (t : Table) : I w → I { w with frames := w.frames.push { table := t } }
  cache {w : Workspace} (cache : Cache Relation) :
    I w → I { w with catalog := { w.catalog with cache } }

end Workspace

namespace Work

variable {e : Entry} {w : Workspace}

/-- The rows of a table that is not cached are read from the drive. -/
theorem run_rowsOf_uncached (he : e.cached = false) (w : Workspace) : run (rowsOf e) w =
      match e.fetch w.drive with
      | .error f => (.error f, w)
      | .ok found => (.ok (w.handed found).1, (w.handed found).2) := by
  unfold rowsOf
  rw [if_pos (by rw [he]; rfl), run_bind_ok (run_drive w), run_bind]
  rcases e.fetch w.drive with f | _ | t <;> rfl

/-- A table that is not cached is handed out anew. -/
theorem run_rowsOf_fetched (he : e.cached = false) {t : Table}
    (h : e.fetch w.drive = .ok (some t)) :
    run (rowsOf e) w =
      (.ok (.frame w.frames.size), { w with frames := w.frames.push { table := t } }) := by
  rw [run_rowsOf_uncached he, h]
  rfl

section Cached

variable (he : e.cached = true)
include he

theorem run_rowsOf_nothing (hCache : w.catalog.cache = .nothing) :
    run (rowsOf e) w = (.ok (.value (.scalar .null)), w) := by
  unfold rowsOf
  rw [if_neg (by rw [he]; decide), run_bind_ok (run_catalog w), hCache]
  rfl

/-- The rows of a cached table are those that are kept, or else they are fetched and kept. -/
theorem run_rowsOf_cached {bound : Option Nat} {kept : List (Nat × Relation)} {hits misses : Nat}
    (hCache : w.catalog.cache = .memory bound kept hits misses) : run (rowsOf e) w =
      if e.name.isScalar then
        match kept.lookup e.id, e.fetch w.drive with
        | some r, _ =>
          (.ok r, w.withCache (.memory bound ((e.id, r) :: kept.filter fun k => k.1 != e.id)
            (hits + 1) misses))
        | none, .error f => (.error f, w.withCache (.memory bound kept hits (misses + 1)))
        | none, .ok found =>
          (.ok (w.handed found).1, (w.handed found).2.withCache
            (.memory bound (Cache.limit bound ((e.id, (w.handed found).1) :: kept)) hits
              (misses + 1)))
      else (.error .wrongType, w) := by
  unfold rowsOf
  rw [if_neg (by rw [he]; decide), run_bind_ok (run_catalog w), hCache]
  unfold Cache.ask
  dsimp only
  cases e.name.isScalar with
  | false => rfl
  | true =>
    cases kept.lookup e.id with
    | some r => rfl
    | none =>
      rw [if_neg (by decide), run_bind_ok (run_setCatalog _ w)]
      rw [run_bind_ok (run_drive _), run_bind]
      rcases e.fetch w.drive with f | _ | t <;> rfl

end Cached

/-- The rows of an entry are cached or no table, or a table that is handed out, the only new one in
the cache. -/
theorem run_rowsOf_cases (e : Entry) (w : Workspace) :
    (∃ x cache, run (rowsOf e) w = (x, w.withCache cache) ∧
      ∀ i, x = .ok (.frame i) ∨ (w.withCache cache).Caches i → w.Caches i) ∨
    ∃ t cache, e.fetch w.drive = .ok (some t) ∧
      run (rowsOf e) w =
        (.ok (.frame w.frames.size),
          { w with frames := w.frames.push { table := t } }.withCache cache) ∧
      ∀ i, (w.withCache cache).Caches i → i = w.frames.size ∨ w.Caches i := by
  cases hCached : e.cached with
  | false =>
    rw [run_rowsOf_uncached hCached]
    rcases e.fetch w.drive with f | _ | t
    · exact .inl ⟨_, w.catalog.cache, rfl, fun i hi => hi.resolve_left nofun⟩
    · exact .inl ⟨_, w.catalog.cache, rfl, fun i hi => hi.resolve_left nofun⟩
    · exact .inr ⟨t, w.catalog.cache, rfl, rfl, fun i hi => .inr hi⟩
  | true =>
    cases hCache : w.catalog.cache with
    | nothing =>
      rw [run_rowsOf_nothing hCached hCache]
      exact .inl ⟨_, w.catalog.cache, rfl, fun i hi => hi.resolve_left nofun⟩
    | memory bound kept hits misses =>
      have hKept {i : Nat} : w.Caches i ↔ .frame i ∈ kept.map (·.2) := by
        rw [Caches, hCache]
        rfl
      rw [run_rowsOf_cached hCached hCache]
      split
      · cases hLookup : kept.lookup e.id with
        | some r =>
          have hr : r ∈ kept.map (·.2) := by
            obtain ⟨before, after, rfl, _⟩ := List.lookup_eq_some_iff.1 hLookup
            simp
          refine .inl ⟨_, _, rfl, fun i hi => hKept.2 ?_⟩
          rcases hi with hi | hi
          · cases hi
            exact hr
          · rcases List.mem_cons.1 hi with hi | hi
            · exact hi ▸ hr
            · exact List.map_subset _ (List.filter_subset_self kept) hi
        | none =>
          have hMem {i : Nat} {r : Relation}
              (hi : .frame i ∈ (Cache.limit bound ((e.id, r) :: kept)).map (·.2)) :
              .frame i = r ∨ w.Caches i := by
            rw [hKept]
            exact List.mem_cons.1 (List.map_subset _ (Cache.limit_subset _ _) hi)
          rcases e.fetch w.drive with f | _ | t
          · exact .inl ⟨_, _, rfl, fun i hi => hKept.2 (hi.resolve_left nofun)⟩
          · refine .inl ⟨_, _, rfl, fun i hi => ?_⟩
            exact (hMem (hi.resolve_left nofun)).resolve_left nofun
          · refine .inr ⟨t, _, rfl, rfl, fun i hi => (hMem hi).imp_left fun h => ?_⟩
            exact Relation.frame.inj h
      · exact .inl ⟨_, w.catalog.cache, rfl, fun i hi => hi.resolve_left nofun⟩

theorem maintains_rowsOf (hI : OutlastsFetches I) (e : Entry) : Maintains I (rowsOf e) := by
  intro w hw
  rcases run_rowsOf_cases e w with ⟨x, cache, hRun, -⟩ | ⟨t, cache, -, hRun, -⟩ <;> rw [hRun]
  · exact hI.cache cache hw
  · exact hI.cache cache (hI.newFrame t hw)

end Work

/-- A property that lasts while queries read tables, hand out their own, rename, add columns and set
the scope. -/
structure Workspace.OutlastsQueries (I : Workspace → Prop) : Prop where
  newFrame {w : Workspace} (t : Table) : I w → I { w with frames := w.frames.push { table := t } }
  rowsOf (e : Entry) : Work.Maintains I (Work.rowsOf e)
  rename {w : Workspace} (id : Nat) (column name : String) :
    I w → I { w with frames := w.frames.set! id ((w.frames[id]?.getD default).rename column name) }
  setColumn {w : Workspace} (id : Nat) (name : String) (d : Data) :
    I w → I { w with frames := w.frames.set! id ((w.frames[id]?.getD default).setColumn name d) }
  scope {w : Workspace} (scope : List (String × Relation)) :
    I w → I { w with catalog := { w.catalog with scope } }

/-- A property that does not depend on the tables that were handed out, on the cache and on the
scope. -/
structure Workspace.IgnoresQueries (I : Workspace → Prop) : Prop where
  frames {w : Workspace} (frames : Array Frame) : I w → I { w with frames }
  cache {w : Workspace} (cache : Cache Relation) :
    I w → I { w with catalog := { w.catalog with cache } }
  scope {w : Workspace} (scope : List (String × Relation)) :
    I w → I { w with catalog := { w.catalog with scope } }

theorem Workspace.IgnoresQueries.outlasts (hI : IgnoresQueries I) :
    OutlastsQueries I where
  newFrame _ h := hI.frames _ h
  rowsOf := maintains_rowsOf ⟨fun _ h => hI.frames _ h, hI.cache⟩
  rename _ _ _ h := hI.frames _ h
  setColumn _ _ _ h := hI.frames _ h
  scope := hI.scope

theorem maintains_setScope (hI : OutlastsQueries I) (f : Catalog → List (String × Relation)) :
    Maintains I (setCatalog fun c => { c with scope := f c }) := fun _ h => hI.scope _ h

namespace Query

open Work

theorem maintains_columns (r : Relation) : Maintains I r.columns := by
  cases r with
  | frame id => exact (maintains_frame id).bind fun _ => maintains_pure _
  | absent => exact maintains_throw _
  | value v => exact maintains_throw _

theorem maintains_columnsNamed (id : Nat) (name : String) : Maintains I (columnsNamed id name) := by
  refine (maintains_frame id).bind fun f => ?_
  split <;> exact maintains_pure _

theorem maintains_hasColumn (source : Relation) (name : String) :
    Maintains I (hasColumn source name) := by
  unfold hasColumn
  split
  · exact (maintains_frame _).bind fun _ => maintains_pure _
  · exact maintains_pure _
  · exact maintains_pure _
  · exact maintains_pure _
  · split
    · exact maintains_throw _
    · exact maintains_pure _
  · exact maintains_throw _

theorem maintains_call (op : String) (args : List Value) : Maintains I (call op args) := by
  refine maintains_catalog.bind fun c => ?_
  split
  · exact maintains_lift _
  · exact (maintains_lift _).bind fun _ => maintains_lift _

theorem maintains_leafValue (n : Node) : Maintains I (leafValue n) := by
  unfold leafValue
  split
  · exact maintains_pure _
  · exact maintains_pure _
  · exact maintains_throw _

variable (hI : Workspace.OutlastsQueries I)

include hI

theorem maintains_scopedColumn (table column : String) (parts : List String) :
    Maintains I (scopedColumn table column parts) := by
  refine maintains_catalog.bind fun c => ?_
  dsimp only
  split
  · split <;> exact maintains_throw _
  · rename_i id _
    intro w hw
    rw [run_bind_ok (run_frame id w)]
    split
    · rw [run_bind_ok (run_setFrame _ _ w)]
      exact maintains_columnsNamed id column _ (hI.rename id column _ hw)
    · exact hw
  · exact maintains_throw _

theorem maintains_addToScope (name : String) (r : Relation) : Maintains I (addToScope name r) :=
  maintains_setScope hI _

theorem maintains_tableOf (parts : List String) : Maintains I (tableOf parts) := by
  refine maintains_catalog.bind fun c => ?_
  split
  · exact maintains_throw _
  · exact (hI.rowsOf _).bind fun r =>
      (maintains_addToScope hI _ r).bind fun _ => maintains_pure r

theorem maintains_addKey (source : Relation) (name : String) (v : Value) :
    Maintains I (addKey source name v) := by
  cases source with
  | frame id =>
    intro w hw
    unfold addKey
    rw [run_bind_ok (run_frame id w), run_bind, run_lift]
    split
    · rename_i d w' hData
      cases congrArg Prod.snd hData
      exact hI.setColumn id name d hw
    · rename_i e w' hData
      cases congrArg Prod.snd hData
      exact hw
  | absent => exact maintains_throw _
  | value v => exact maintains_throw _

end Query

end TableQuery
