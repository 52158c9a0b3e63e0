import TableQuery.Proofs.Sharing
import TableQuery.Proofs.TableKeys

/-! Which tables use the cache of their catalog. Only putting a cache in place links it to the
tables that are there: a table that is added later reads its file each time. -/
namespace TableQuery

open List Work

def Cache.Hit {α : Type} (before after : Cache α) : Prop :=
  ∃ bound kept kept' hits misses,
    before = .memory bound kept hits misses ∧ after = .memory bound kept' (hits + 1) misses

theorem Cache.not_hit_self {α : Type} (c : Cache α) : ¬c.Hit c := by
  rintro ⟨_, _, _, hits, _, rfl, hSame⟩
  have hHits := (Cache.memory.inj hSame).2.2.1
  omega

def Cache.IsUnbounded {α : Type} (c : Cache α) : Prop :=
  ∃ kept hits misses, c = .memory none kept hits misses

def Workspace.Remembers (id : Nat) (r : Relation) (w : Workspace) : Prop :=
  ∃ kept hits misses, w.catalog.cache = .memory none kept hits misses ∧ kept.lookup id = some r

namespace Work

open Workspace

variable {w : Workspace} {known : List (Document × Entry)} {r : Relation} {e : Entry}
variable {steps : List Step} {id : Nat}

/-! ### Links -/

def LinkedOnly (P : Document × Entry → Prop) (w : Workspace) : Prop :=
  ∀ e ∈ w.catalog.entries, e.2.cached = true → P e

section Links

variable {P : Document × Entry → Prop}

theorem linkedOnly_saveMetadata (hw : LinkedOnly P w) :
    LinkedOnly P (run (saveMetadata true) w).2 := by
  unfold LinkedOnly
  rw [catalog_saveMetadata]
  exact hw

/-- A table that is added keeps its own link, if it has one. -/
theorem linkedOnly_addEntry (he : e.cached = true → ∀ id, P (e.name, { e with id })) :
    Maintains (LinkedOnly P) (addEntry e) := by
  refine maintains_addEntry_of fun w hw _ => linkedOnly_saveMetadata fun x hx hLinked => ?_
  rcases mem_append.1 hx with hOld | hNew
  · exact hw x hOld hLinked
  · rw [mem_singleton.1 hNew] at hLinked ⊢
    exact he hLinked _

/-- The table of a file has no link when it is added. -/
theorem linkedOnly_addFile (path : String) (clean : Bool) :
    Maintains (LinkedOnly P) (addFile path clean) :=
  maintains_addFile_of fun e _ hCached => linkedOnly_addEntry fun hLinked => by
    rw [hCached] at hLinked
    cases hLinked

end Links

/-- The tables that were there when the cache was put in place last. Before the step they were those
that are given. -/
def Step.linked (known : List (Document × Entry)) (w : Workspace) : Step → List (Document × Entry)
  | .setCache cache => (Work.run (Work.setCache cache) w).2.catalog.entries
  | _ => known

def linkedAfter (known : List (Document × Entry)) (w : Workspace) :
    List Step → List (Document × Entry)
  | [] => known
  | step :: rest => linkedAfter (step.linked known w) (step.after w) rest

def Opening.linked (w : Workspace) : Opening → List (Document × Entry)
  | .onDirectory dir given cache extensions =>
    (Work.run (openCatalog dir given cache extensions) w).2.catalog.entries
  | .anew dir given => (Work.run (createCatalog dir given) w).2.catalog.entries
  | .withFiles dir _ => (Work.run (openCatalog dir [] (Cache.fresh none) []) w).2.catalog.entries

/-- One of the steps added the table, and it was linked to the cache already. -/
def BroughtLinked (steps : List Step) (e : Document × Entry) : Prop :=
  ∃ t, .addTable t ∈ steps ∧ t.cached = true ∧ e = (t.name, { t with id := e.2.id })

theorem cached_of_linkedAfter (hKnown : ∀ e ∈ known, e.2.cached = true)
    (w : Workspace) (steps : List Step) : ∀ e ∈ linkedAfter known w steps, e.2.cached = true := by
  induction steps generalizing known w with
  | nil => exact hKnown
  | cons step rest ih =>
    refine ih ?_ (step.after w)
    cases step with
    | setCache cache =>
      intro e he
      obtain ⟨old, _, rfl⟩ := mem_map.1 he
      rfl
    | _ => exact hKnown

/-- What a step leaves with a link was linked when the cache was put in place last, or brought its
link along. -/
theorem Step.linkedOnly_after {step : Step}
    (hStep : step ∈ steps) (hw : LinkedOnly (fun e => e ∈ known ∨ BroughtLinked steps e) w) :
    LinkedOnly (fun e => e ∈ step.linked known w ∨ BroughtLinked steps e) (step.after w) := by
  by_cases hCache : ∃ cache, step = .setCache cache
  · obtain ⟨cache, rfl⟩ := hCache
    exact fun e he _ => .inl he
  · have hLinked : step.linked known w = known := by
      cases step with
      | setCache cache => exact absurd ⟨cache, rfl⟩ hCache
      | _ => rfl
    rw [hLinked]
    refine Step.after_of linkedOnly_addFile (fun _ => maintains_dropEntry_of fun _ hw =>
        linkedOnly_saveMetadata fun x hx => hw x (mem_of_mem_filter hx))
      (IgnoresQueries.outlasts ⟨fun _ h => h, fun _ h => h, fun _ h => h⟩) (fun _ _ h => h)
      (fun t ht => ?_) (fun cache hEq => absurd ⟨cache, hEq⟩ hCache) hw
    exact linkedOnly_addEntry fun hBrings id => .inr ⟨t, ht ▸ hStep, hBrings, rfl⟩

theorem Step.linkedOnly_afterAll {all : List Step} (hSteps : steps ⊆ all)
    (hw : LinkedOnly (fun e => e ∈ known ∨ BroughtLinked all e) w) :
    LinkedOnly (fun e => e ∈ linkedAfter known w steps ∨ BroughtLinked all e)
      (afterAll w steps) := by
  induction steps generalizing known w with
  | nil => exact hw
  | cons step rest ih =>
    exact ih (subset_of_cons_subset hSteps) (step.linkedOnly_after (hSteps mem_cons_self) hw)

theorem cached_of_openCatalog {dir : String} {given : List Entry} {cache : Cache Relation}
    {extensions : List (String × Extension)} {w' : Workspace}
    (h : run (openCatalog dir given cache extensions) w = (.ok (), w')) :
    ∀ e ∈ w'.catalog.entries, e.2.cached = true := by
  obtain ⟨_, _, _, -, -, rfl⟩ := openCatalog_eq_ok h
  intro e he
  obtain ⟨old, _, rfl⟩ := mem_map.1 he
  rfl

/-- After an opening the tables with a link are those that were there when it put the cache in
place. -/
theorem Opening.linkedOnly {o : Opening} {w' : Workspace} (h : run o.work w = (.ok (), w')) :
    (∀ e ∈ o.linked w, e.2.cached = true) ∧ LinkedOnly (· ∈ o.linked w) w' := by
  cases o with
  | onDirectory dir given cache extensions =>
    change run (openCatalog dir given cache extensions) w = _ at h
    rw [linked, h]
    exact ⟨cached_of_openCatalog h, fun _ he _ => he⟩
  | anew dir given =>
    change run (createCatalog dir given) w = _ at h
    rw [linked, h]
    obtain ⟨_, w₁, _, hOpen⟩ := run_bind_eq_ok h
    exact ⟨cached_of_openCatalog hOpen, fun _ he _ => he⟩
  | withFiles dir filesDir =>
    obtain ⟨hFailed, -⟩ | ⟨names, w₁, s, -, hOpen, hAdded⟩ := openFiles_cases h
    · exact absurd rfl hFailed
    rw [linked, hOpen]
    refine ⟨cached_of_openCatalog hOpen, ?_⟩
    have hFinal := maintains_addFiles_of linkedOnly_addFile filesDir names w₁
      (fun e he _ => he : LinkedOnly (· ∈ w₁.catalog.entries) w₁)
    rwa [hAdded] at hFinal

/-! ### Reads -/

/-- Reading any table leaves what a cache without a bound keeps. -/
theorem remembers_rowsOf (id : Nat) (r : Relation) (e : Entry) :
    Maintains (Remembers id r) (rowsOf e) := by
  rintro w ⟨kept, hits, misses, hCache, hKept⟩
  cases he : e.cached with
  | false =>
    rw [run_rowsOf_uncached he]
    rcases e.fetch w.drive with f | _ | t
    all_goals exact ⟨kept, hits, misses, hCache, hKept⟩
  | true =>
    rw [run_rowsOf_cached he hCache]
    cases e.name.isScalar with
    | false => exact ⟨kept, hits, misses, hCache, hKept⟩
    | true =>
      cases hAsked : kept.lookup e.id with
      | some answer => exact ⟨_, _, _, rfl, (Cache.lookup_asked hAsked id).trans hKept⟩
      | none =>
        have hOther : (id == e.id) = false := by
          rw [beq_eq_false_iff_ne]
          rintro rfl
          rw [hAsked] at hKept
          cases hKept
        rcases e.fetch w.drive with f | _ | t
        · exact ⟨_, _, _, rfl, hKept⟩
        all_goals
          refine ⟨_, _, _, rfl, ?_⟩
          rw [Cache.limit, lookup_cons, hOther]
          exact hKept

theorem outlastsQueries_remembers (id : Nat) (r : Relation) : OutlastsQueries (Remembers id r) where
  newFrame _ h := h
  rowsOf := remembers_rowsOf id r
  rename _ _ _ h := h
  setColumn _ _ _ h := h
  scope _ h := h

theorem remembers_saveMetadata (hw : Remembers id r w) :
    Remembers id r (run (saveMetadata true) w).2 := by
  unfold Remembers
  rw [catalog_saveMetadata]
  exact hw

theorem remembers_addEntry (id : Nat) (r : Relation) (e : Entry) :
    Maintains (Remembers id r) (addEntry e) :=
  maintains_addEntry_of fun _ hw _ => remembers_saveMetadata hw

/-- What a cache without a bound keeps is kept until another cache is put in place. -/
theorem Step.remembers_afterAll (hw : Remembers id r w)
    (hSteps : ∀ cache, .setCache cache ∉ steps) : Remembers id r (afterAll w steps) := by
  induction steps generalizing w with
  | nil => exact hw
  | cons step rest ih =>
    refine ih ?_ fun cache hCache => hSteps cache (mem_cons_of_mem _ hCache)
    have hAdd (path : String) (clean : Bool) :
        Maintains (Remembers id r) (Work.addFile path clean) :=
      maintains_drive.bind fun _ => (maintains_lift _).bind fun e => remembers_addEntry id r e
    exact Step.after_of hAdd (fun _ => maintains_dropEntry_of fun _ hw => remembers_saveMetadata hw)
      (outlastsQueries_remembers id r) (fun _ _ h => h) (fun e _ => remembers_addEntry id r e)
      (fun cache hCache => absurd (hCache ▸ mem_cons_self) (hSteps cache)) hw

/-- A table with a link that was read is kept by a cache without a bound. -/
theorem remembers_of_rowsOf (he : e.cached = true) {w' : Workspace}
    (hCache : w.catalog.cache.IsUnbounded) (h : run (rowsOf e) w = (.ok r, w')) :
    e.name.isScalar = true ∧ Remembers e.id r w' := by
  obtain ⟨kept, hits, misses, hCache⟩ := hCache
  rw [run_rowsOf_cached he hCache] at h
  cases hName : e.name.isScalar with
  | false =>
    rw [hName] at h
    cases h
  | true =>
    refine ⟨rfl, ?_⟩
    rw [if_pos hName] at h
    cases hAsked : kept.lookup e.id with
    | some answer =>
      rw [hAsked] at h
      cases h
      exact ⟨_, _, _, rfl, lookup_cons_self⟩
    | none =>
      rw [hAsked] at h
      rcases hFetch : e.fetch w.drive with f | _ | t
      all_goals
        rw [hFetch] at h
        cases h
      all_goals exact ⟨_, _, _, rfl, lookup_cons_self⟩

/-- A read that the cache answers. -/
theorem hit_of_remembers (he : e.cached = true) (hName : e.name.isScalar = true)
    (hw : Remembers e.id r w) :
    ∃ w', run (rowsOf e) w = (.ok r, w') ∧ w.catalog.cache.Hit w'.catalog.cache := by
  obtain ⟨kept, hits, misses, hCache, hKept⟩ := hw
  rw [run_rowsOf_cached he hCache, if_pos hName, hKept]
  exact ⟨_, rfl, none, kept, _, hits, misses, hCache, rfl⟩

/-- A read without a link leaves the cache alone. -/
theorem cache_of_rowsOf (he : e.cached = false) (w : Workspace) :
    (run (rowsOf e) w).2.catalog = w.catalog := by
  rw [run_rowsOf_uncached he]
  rcases e.fetch w.drive with f | _ | t <;> rfl

/-- A table uses the cache exactly if it was there when the cache was put in place last, or was
linked to it when it was added. With a cache without a bound, exactly then the second of two reads
is a hit. -/
theorem cached_iff_linked {o : Opening} {w₀ w₁ : Workspace}
    (hOpen : Work.run o.work w₀ = (.ok (), w₁)) (steps : List Step) {e : Document × Entry}
    (he : e ∈ (Step.afterAll w₁ steps).catalog.entries) :
    (e.2.cached = true ↔ e ∈ linkedAfter (o.linked w₀) w₁ steps ∨ BroughtLinked steps e) ∧
    ∀ r w later, (Step.afterAll w₁ steps).catalog.cache.IsUnbounded →
      Work.run (rowsOf e.2) (Step.afterAll w₁ steps) = (.ok r, w) →
      (∀ cache, .setCache cache ∉ later) →
      (e.2.cached = true ↔
        ∃ w', Work.run (rowsOf e.2) (Step.afterAll w later) = (.ok r, w') ∧
          (Step.afterAll w later).catalog.cache.Hit w'.catalog.cache) := by
  obtain ⟨hLinked, hOnly⟩ := Opening.linkedOnly hOpen
  constructor
  · constructor
    · exact Step.linkedOnly_afterAll (List.Subset.refl steps)
        (fun e he hCached => .inl (hOnly e he hCached)) e he
    · rintro (hBefore | ⟨t, _, hBrought, hEntry⟩)
      · exact cached_of_linkedAfter hLinked w₁ steps e hBefore
      · rw [hEntry]
        exact hBrought
  · intro r w later hUnbounded hRead hLater
    constructor
    · intro hCached
      obtain ⟨hName, hRemembers⟩ := remembers_of_rowsOf hCached hUnbounded hRead
      exact hit_of_remembers hCached hName (Step.remembers_afterAll hRemembers hLater)
    · rintro ⟨w', hAgain, hHit⟩
      by_contra hCached
      have hSame := cache_of_rowsOf (Bool.eq_false_iff.2 hCached) (Step.afterAll w later)
      rw [hAgain] at hSame
      rw [hSame] at hHit
      exact Cache.not_hit_self _ hHit

def twoFiles : Workspace where
  drive := { files := [(["t.csv"], "v\n1\n"), (["u.csv"], "v\n2\n")] }
  catalog := { dir := "" }

def oneGiven : Opening :=
  .onDirectory "m" [{ id := 0, name := .text "t", file? := some (.text "t.csv") }]
    (Cache.fresh none) []

def oneAdded : Workspace :=
  Step.afterAll (Work.run oneGiven.work twoFiles).2 [.addFile "u.csv" true]

/-- The table that was given, read again after the other one was dropped. -/
theorem cached_iff_linked_given :
    ∃ e ∈ oneAdded.catalog.entries, e.1 = .text "t" ∧ e.2.cached = true ∧
      ∃ r w w', Work.run (rowsOf e.2) oneAdded = (.ok r, w) ∧
        Work.run (rowsOf e.2) (Step.afterAll w [.dropTable (.text "u")]) = (.ok r, w') ∧
        (Step.afterAll w [.dropTable (.text "u")]).catalog.cache.Hit w'.catalog.cache := by
  have hOpen : run oneGiven.work twoFiles = (.ok (), (run oneGiven.work twoFiles).2) :=
    rfl
  have he : (.text "t",
      { id := 0, name := .text "t", file? := some (.text "t.csv"), cached := true }) ∈
      oneAdded.catalog.entries := mem_cons_self
  have hRead : run
      (rowsOf { id := 0, name := .text "t", file? := some (.text "t.csv"), cached := true })
      oneAdded = (.ok (.frame 0), _) := rfl
  have hIff := (cached_iff_linked hOpen [.addFile "u.csv" true] he).2 _ _ [.dropTable (.text "u")]
    ⟨[], 0, 0, rfl⟩ hRead (by simp)
  obtain ⟨w', hAgain, hHit⟩ := hIff.1 rfl
  exact ⟨_, he, rfl, rfl, _, _, w', hRead, hAgain, hHit⟩

/-- The table that was added is read twice, and the cache is not asked. -/
theorem added_table_not_cached :
    ∃ e ∈ oneAdded.catalog.entries, e.1 = .text "u" ∧ e.2.cached = false ∧
      ∃ r r' w w', Work.run (rowsOf e.2) oneAdded = (.ok r, w) ∧
        Work.run (rowsOf e.2) w = (.ok r', w') ∧ oneAdded.catalog.cache = Cache.fresh none ∧
        w'.catalog.cache = Cache.fresh none := by
  have he : oneAdded.catalog.entries[1]? = some (.text "u", _) := rfl
  exact ⟨_, mem_of_getElem? he, rfl, rfl, .frame 0, .frame 1, _, _, rfl, rfl, rfl, rfl⟩

end Work

end TableQuery
