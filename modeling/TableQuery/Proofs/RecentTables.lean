import TableQuery.Proofs.CachedTables

/-! What a cache with a bound keeps. It serves the tables that were requested last with success, as
many different ones as the bound allows, and each with the rows of its own last fetch. Tables are
told apart by their numbers, so tables of one name do not get in each other's way. -/
namespace TableQuery

open List Work Workspace Cache

/-- A table that uses the cache. It has to have a name that can be looked up. -/
structure CachedTable where
  entry : Entry
  cached : entry.cached = true
  named : entry.name.isScalar = true

/-- A call of the cache, or a change of the files between two calls. -/
inductive CacheCall where
  | get (t : CachedTable)
  | clear
  | files (d : Drive)

/-- A request for a table: whether it was fetched, and what came back. -/
structure Request where
  id : Nat
  fetched : Bool
  answer : Except Fault Relation

namespace CacheCall

/-- A call in a workspace, where `log` has the requests since the cache was cleared, the latest
first. -/
def next (now : Workspace × List Request) : CacheCall → Workspace × List Request
  | .get t =>
    let done := run (rowsOf t.entry) now.1
    (done.2, ⟨t.entry.id, (now.1.catalog.cache.ask t.entry.id).1.isNone, done.1⟩ :: now.2)
  | .clear => ((run clearCache now.1).2, [])
  | .files d => ({ now.1 with drive := d }, now.2)

/-- The calls one after the other, from an empty cache on. -/
def runAll (bound : Option Nat) (w : Workspace) (calls : List CacheCall) :
    Workspace × List Request :=
  calls.foldl next (w.withCache (fresh bound), [])

end CacheCall

namespace Request

/-- Each number once, at its first place. -/
def distinct : List Nat → List Nat
  | [] => []
  | id :: rest => id :: (distinct rest).filter (· != id)

def within (bound : Option Nat) (ids : List Nat) : List Nat := bound.elim ids ids.take

/-- The tables that were requested last with success, as many as the bound allows. -/
def recent (bound : Option Nat) (log : List Request) : List Nat :=
  within bound (distinct ((log.filter (·.answer.isOk)).map (·.id)))

def lastFetch? (log : List Request) (id : Nat) : Option (Except Fault Relation) :=
  (log.find? fun q => q.id == id && q.fetched).map (·.answer)

variable {ids : List Nat} {id : Nat} {bound : Option Nat}

theorem nodup_distinct (ids : List Nat) : (distinct ids).Nodup := by
  induction ids with
  | nil => exact nodup_nil
  | cons id rest ih => exact nodup_cons.2 ⟨by simp, ih.filter _⟩

theorem take_filter_ne (h : ids.Nodup) (id n : Nat) :
    ((ids.take (n + 1)).filter (· != id)).take n = (ids.filter (· != id)).take n := by
  induction ids generalizing n with
  | nil => rfl
  | cons x rest ih =>
    obtain ⟨hx, hRest⟩ := nodup_cons.1 h
    rw [take_succ_cons, filter_cons, filter_cons]
    split
    · cases n with
      | zero => rfl
      | succ n => rw [take_succ_cons, take_succ_cons, ih hRest]
    · rename_i hSame
      obtain rfl : x = id := by simpa using hSame
      have hAll : rest.filter (· != x) = rest := filter_eq_self.2 fun y hy => by
        simpa using ne_of_mem_of_not_mem hy hx
      rw [hAll, filter_eq_self.2 fun y hy => filter_eq_self.1 hAll y (mem_of_mem_take hy),
        take_take, min_self]

/-- To know the latest numbers after one more, it is enough to know the latest ones before. -/
theorem within_cons (h : ids.Nodup) (bound : Option Nat) (id : Nat) :
    within bound (id :: (within bound ids).filter (· != id)) =
      within bound (id :: ids.filter (· != id)) := by
  cases bound with
  | none => rfl
  | some n =>
    cases n with
    | zero => rfl
    | succ n => exact congrArg (cons id) (take_filter_ne h id n)

theorem length_within_le (ids : List Nat) : ∀ n ∈ bound, (within bound ids).length ≤ n := by
  rintro n rfl
  exact length_take_le n ids

/-- A number that is among the latest ones comes to the front, and the others stay. -/
theorem within_of_mem (h : ids.Nodup) (hMem : id ∈ within bound ids) :
    within bound (id :: ids.filter (· != id)) = id :: (within bound ids).filter (· != id) := by
  rw [← within_cons h]
  cases bound with
  | none => rfl
  | some n =>
    have hLess := length_filter_lt_length_iff_exists (p := (· != id)).2 ⟨id, hMem, by simp⟩
    exact take_of_length_le (hLess.trans_le (length_take_le n ids))

theorem map_limit {α : Type} (bound : Option Nat) (kept : List (Nat × α)) :
    (limit bound kept).map (·.1) = within bound (kept.map (·.1)) := by
  cases bound with
  | none => rfl
  | some n => exact map_take

theorem lookup_eq_none_iff_notMem {α : Type} {kept : List (Nat × α)} :
    kept.lookup id = none ↔ id ∉ kept.map (·.1) := by
  rw [lookup_eq_none_iff, mem_map]
  constructor
  · rintro h ⟨p, hp, rfl⟩
    simpa using h p hp
  · exact fun h p hp => by simpa using fun hp' => h ⟨p, hp, hp'.symm⟩

/-- What the cache holds after some requests. -/
structure Accounts (bound : Option Nat) (log : List Request) (kept : List (Nat × Relation))
    (hits misses : Nat) : Prop where
  keys : kept.map (·.1) = recent bound log
  rows : ∀ id r, kept.lookup id = some r → lastFetch? log id = some (.ok r)
  count : hits + misses = log.length

namespace Accounts

variable {log : List Request} {kept : List (Nat × Relation)} {hits misses : Nat} {r : Relation}

theorem lookup_eq_none_iff (h : Accounts bound log kept hits misses) :
    kept.lookup id = none ↔ id ∉ recent bound log := by
  rw [lookup_eq_none_iff_notMem, h.keys]

theorem hit (h : Accounts bound log kept hits misses) (hKept : kept.lookup id = some r) :
    Accounts bound (⟨id, false, .ok r⟩ :: log) ((id, r) :: kept.filter fun k => k.1 != id)
      (hits + 1) misses where
  keys := by
    have hMem : id ∈ recent bound log := by
      by_contra hNot
      rw [h.lookup_eq_none_iff.2 hNot] at hKept
      cases hKept
    have hKeys : (kept.filter fun k => k.1 != id).map (·.1) =
        (recent bound log).filter (· != id) := by
      rw [← h.keys, filter_map]
      rfl
    rw [map_cons, hKeys]
    exact (within_of_mem (nodup_distinct _) hMem).symm
  rows other a ha := by
    rw [lookup_asked hKept] at ha
    rw [lastFetch?, find?_cons_of_neg (by simp)]
    exact h.rows other a ha
  count := by
    rw [length_cons, ← h.count]
    omega

section Miss

variable (h : Accounts bound log kept hits misses) (hKept : kept.lookup id = none)
include h hKept

/-- A fetch that fails leaves what is kept as it is. -/
theorem failed (f : Fault) :
    Accounts bound (⟨id, true, .error f⟩ :: log) kept hits (misses + 1) where
  keys := h.keys
  rows other a ha := by
    have hNe : id ≠ other := by
      rintro rfl
      rw [hKept] at ha
      cases ha
    rw [lastFetch?, find?_cons_of_neg (by simp [hNe])]
    exact h.rows other a ha
  count := congrArg (· + 1) h.count

theorem fetched (r : Relation) :
    Accounts bound (⟨id, true, .ok r⟩ :: log) (limit bound ((id, r) :: kept)) hits
      (misses + 1) where
  keys := by
    have hAll : (recent bound log).filter (· != id) = recent bound log :=
      filter_eq_self.2 fun x hx =>
        by simpa using ne_of_mem_of_not_mem hx (h.lookup_eq_none_iff.1 hKept)
    rw [map_limit, map_cons, h.keys, ← hAll]
    exact within_cons (nodup_distinct _) bound id
  rows other a ha := by
    have ha := lookup_of_limit ha
    rw [lookup_cons] at ha
    by_cases hOther : other = id
    · rw [hOther, beq_self_eq_true] at ha
      cases ha
      rw [lastFetch?, hOther, find?_cons_of_pos (by simp)]
      rfl
    · rw [beq_eq_false_iff_ne.2 hOther] at ha
      rw [lastFetch?, find?_cons_of_neg (by simp [Ne.symm hOther])]
      exact h.rows other a ha
  count := congrArg (· + 1) h.count

end Miss

end Accounts

/-- The cache of a workspace accounts for the requests. -/
def Accounted (bound : Option Nat) (now : Workspace × List Request) : Prop :=
  ∃ kept hits misses, now.1.catalog.cache = .memory bound kept hits misses ∧
    Accounts bound now.2 kept hits misses

theorem accounted_fresh (bound : Option Nat) (w : Workspace) :
    Accounted bound (w.withCache (fresh bound), []) :=
  ⟨[], 0, 0, rfl, by cases bound <;> simp [recent, within, distinct], fun _ _ => nofun, rfl⟩

theorem Accounted.next {now : Workspace × List Request} (h : Accounted bound now)
    (call : CacheCall) : Accounted bound (call.next now) := by
  obtain ⟨kept, hits, misses, hCache, h⟩ := h
  cases call with
  | files d => exact ⟨kept, hits, misses, hCache, h⟩
  | clear =>
    obtain ⟨_, _, _, hFresh, hEmpty⟩ := accounted_fresh bound now.1
    exact ⟨_, _, _, (congrArg Cache.clear hCache).trans hFresh, hEmpty⟩
  | get t =>
    have hRun := run_rowsOf_cached t.cached hCache
    rw [if_pos t.named] at hRun
    simp only [CacheCall.next, Cache.ask, hRun, hCache]
    cases hKept : kept.lookup t.entry.id with
    | some r => exact ⟨_, _, _, rfl, h.hit hKept⟩
    | none =>
      cases t.entry.fetch now.1.drive with
      | error f => exact ⟨_, _, _, rfl, h.failed hKept f⟩
      | ok found => exact ⟨_, _, _, rfl, h.fetched hKept _⟩

theorem accounted_runAll (bound : Option Nat) (w : Workspace) (calls : List CacheCall) :
    Accounted bound (CacheCall.runAll bound w calls) :=
  foldlRecOn calls _ (accounted_fresh bound w) fun _ h call _ => h.next call

/-- A table that is not among the latest ones is fetched, and a fetch that fails changes no more
than the count. Any other table has the rows of its own last fetch. There are never more tables than
the bound allows, and every request counts. -/
theorem cache_serves_latest_tables (bound : Option Nat) (start : Workspace) (calls : List CacheCall)
    (t : CachedTable) :
    ∃ w log kept hits misses, CacheCall.runAll bound start calls = (w, log) ∧
      w.catalog.cache = .memory bound kept hits misses ∧ (∀ n ∈ bound, kept.length ≤ n) ∧
      hits + misses = log.length ∧
      (t.entry.id ∈ recent bound log →
        ∃ r cache, lastFetch? log t.entry.id = some (.ok r) ∧
          run (rowsOf t.entry) w = (.ok r, w.withCache cache)) ∧
      (t.entry.id ∉ recent bound log →
        (∀ found, t.entry.fetch w.drive = .ok found →
          ∃ cache,
            run (rowsOf t.entry) w = (.ok (w.handed found).1, (w.handed found).2.withCache cache)) ∧
        ∀ f, t.entry.fetch w.drive = .error f →
          run (rowsOf t.entry) w =
            (.error f, w.withCache (.memory bound kept hits (misses + 1)))) := by
  have hAll := accounted_runAll bound start calls
  generalize CacheCall.runAll bound start calls = now at hAll ⊢
  obtain ⟨kept, hits, misses, hCache, h⟩ := hAll
  have hRun := run_rowsOf_cached t.cached hCache
  rw [if_pos t.named] at hRun
  refine ⟨now.1, now.2, kept, hits, misses, rfl, hCache, ?_, h.count, fun hMem => ?_,
    fun hNot => ?_⟩
  · rw [← length_map (·.1), h.keys]
    exact length_within_le _
  · cases hKept : kept.lookup t.entry.id with
    | none => exact absurd hMem (h.lookup_eq_none_iff.1 hKept)
    | some r =>
      rw [hKept] at hRun
      exact ⟨r, _, h.rows _ r hKept, hRun⟩
  · rw [h.lookup_eq_none_iff.2 hNot] at hRun
    constructor <;> intro _ hFetch <;> rw [hFetch] at hRun
    · exact ⟨_, hRun⟩
    · exact hRun

/-- Tables of one name, told apart by their numbers. -/
def twin (id : Nat) : CachedTable where
  entry := { id, name := .text "t", file? := some (.text "t.csv"), cached := true }
  cached := rfl
  named := rfl

/-- Where there is room for one of two tables of one name, the second is served and the first is
fetched again. -/
theorem cache_serves_latest_tables_twin :
    ∃ w log, CacheCall.runAll (some 1) twoFiles [.get (twin 0), .get (twin 1)] = (w, log) ∧
      recent (some 1) log = [1] ∧
      (∃ cache, run (rowsOf (twin 1).entry) w = (.ok (.frame 1), w.withCache cache)) ∧
      ∃ cache, run (rowsOf (twin 0).entry) w =
          (.ok (.frame 2),
            (w.handed (some ⟨[.int 0], [("v", .ints .int64 [1])]⟩)).2.withCache cache) := by
  let calls : List CacheCall := [.get (twin 0), .get (twin 1)]
  have hRecent : recent (some 1) (CacheCall.runAll (some 1) twoFiles calls).2 = [1] := rfl
  obtain ⟨w, log, _, _, _, hRun, -, -, -, hServed, -⟩ :=
    cache_serves_latest_tables (some 1) twoFiles calls (twin 1)
  obtain ⟨_, _, _, _, _, hRun', -, -, -, -, hFetched⟩ :=
    cache_serves_latest_tables (some 1) twoFiles calls (twin 0)
  cases hRun.symm.trans hRun'
  rw [hRun] at hRecent
  obtain ⟨r, cache, hLast, hAnswer⟩ := hServed (by rw [hRecent]; exact mem_singleton_self 1)
  have hFetch : (twin 0).entry.fetch w.drive =
      .ok (some ⟨[.int 0], [("v", .ints .int64 [1])]⟩) := by
    cases hRun
    rfl
  obtain ⟨cache', hAgain⟩ := (hFetched (by rw [hRecent]; decide)).1 _ hFetch
  refine ⟨w, log, hRun, hRecent, ⟨cache, ?_⟩, cache', ?_⟩
  · cases hRun
    cases hLast
    exact hAnswer
  · cases hRun
    exact hAgain

end Request

end TableQuery
