import TableQuery.Proofs.History
import TableQuery.Proofs.Sharing

/-! Queries with and without a cache. With a cache later queries see the columns that a grouping by
an expression adds to a table, and the full names of columns that were qualified. Where neither
happens a cache changes no answer. -/
namespace TableQuery

open List Work Correspondence False

open Sql

def Workspace.cachedWith (bound : Option Nat) (w : Workspace) : Workspace :=
  (Work.run (Work.setCache (Cache.fresh bound)) w).2

namespace Query

variable {w v : Workspace} {done : List Select} {s : Pairing}

def answers (reduce : Bool) : List Select → Workspace → List (Except Fault Value)
  | [], _ => []
  | q :: rest, w => answerOf reduce q w :: answers reduce rest (Work.run (evalSelect q) w).2

def QualifiedIn (qs : List Select) (column : String) : Prop :=
  ∃ q ∈ qs, ∃ u ∈ q.uses, u.Qualifies column

/-- The selects leave shared tables as they are, and none groups a whole table by a column that is
qualified. -/
def SparesTables (qs : List Select) : Prop :=
  ∀ before q after, qs = before ++ q :: after → ∀ u ∈ q.uses, u.Spares (QualifiedIn (before ++ [q]))

/-- Nothing was asked of the cache yet. -/
theorem shares_cachedWith (hUncached : ∀ e ∈ w.catalog.entries, e.2.cached = false)
    (hScalar : ∀ e ∈ w.catalog.entries, e.2.name.isScalar = true)
    (hDistinct : (w.catalog.entries.map (·.2.id)).Nodup) (hRegular : w.FetchesOnly IsRegular)
    (hScope : w.catalog.scope = []) (hExtensions : Extension.NoneSeesNames w.catalog.extensions)
    (bound : Option Nat) (columns : String → Prop) :
    Shares columns ⟨fun _ _ => False, fun _ _ => False, fun _ => False⟩ w (w.cachedWith bound) where
  drive := rfl
  entries := rfl
  uncached := hUncached
  isScalar := hScalar
  distinct := hDistinct
  regular := hRegular
  extensions := rfl
  seesNoNames := hExtensions
  range h := h.elim elim elim
  own := elim
  own_inj := elim
  apart := elim
  lent := elim
  scope name := by
    have hCached : (w.cachedWith bound).catalog.scope = w.catalog.scope := rfl
    rw [hCached, hScope]
    exact .none
  cache := ⟨bound, [], 0, 0, rfl, nofun⟩
  plain := elim

/-- One select after some others. -/
theorem shares_step {q : Select} (h : Shares (QualifiedIn done) s v w)
    (hSpares : ∀ u ∈ q.uses, u.Spares (QualifiedIn (done ++ [q]))) (reduce : Bool) :
    answerOf reduce q w = answerOf reduce q v ∧
    ∃ s',
      Shares (QualifiedIn (done ++ [q])) s' (run (evalSelect q) v).2 (run (evalSelect q) w).2 := by
  have hMore : ∀ column, QualifiedIn done column → QualifiedIn (done ++ [q]) column := by
    rintro column ⟨p, hp, hQualifies⟩
    exact ⟨p, mem_append_left _ hp, hQualifies⟩
  have hUses : (sharing (QualifiedIn (done ++ [q]))).Allows q.uses :=
    fun u hu => ⟨fun column hColumn => ⟨q, by simp, u, hu, hColumn⟩, hSpares u hu⟩
  obtain ⟨s', _, hState, hOutcome⟩ :=
    agree_evalSelect lawful_sharing s hUses v w (h.mono hMore)
  refine ⟨?_, s', hState⟩
  rw [answerOf_eq, answerOf_eq, hOutcome.eq]

theorem answers_eq_of_shares {rest : List Select} (h : Shares (QualifiedIn done) s v w)
    (hSpares : ∀ before q after, rest = before ++ q :: after →
      ∀ u ∈ q.uses, u.Spares (QualifiedIn (done ++ before ++ [q]))) (reduce : Bool) :
    answers reduce rest w = answers reduce rest v := by
  induction rest generalizing done s v w with
  | nil => rfl
  | cons q rest ih =>
    obtain ⟨hAnswer, s', hState⟩ := shares_step h (by simpa using hSpares [] q rest rfl) reduce
    unfold answers
    rw [hAnswer, ih hState fun before p after hRest => ?_]
    have hLater := hSpares (q :: before) p after (by rw [hRest]; rfl)
    simpa using hLater

/-- A cache of any size changes no answer of a sequence of selects that spare the tables. -/
theorem answers_cachedWith {w : Workspace} (hUncached : ∀ e ∈ w.catalog.entries, e.2.cached = false)
    (hScalar : ∀ e ∈ w.catalog.entries, e.2.name.isScalar = true)
    (hDistinct : (w.catalog.entries.map (·.2.id)).Nodup) (hRegular : w.FetchesOnly IsRegular)
    (hScope : w.catalog.scope = []) (hExtensions : Extension.NoneSeesNames w.catalog.extensions)
    {qs : List Select} (hSpares : SparesTables qs) (bound : Option Nat) (reduce : Bool) :
    answers reduce qs (w.cachedWith bound) = answers reduce qs w :=
  answers_eq_of_shares
    (shares_cachedWith hUncached hScalar hDistinct hRegular hScope hExtensions bound
      (QualifiedIn []))
    hSpares reduce

def keyedFile : Workspace := .ofFiles [("t", "k,v\n1,10\n1,20\n2,30\n")]

/-- `SELECT t.v FROM t`. -/
def qualifiedSelect : Select :=
  { targets := [.name ["t", "v"] {}], source := some (.name ["t"] {}) }

/-- `SELECT column, count(k) FROM t GROUP BY column`. -/
def countBy (column : String) : Select :=
  { targets := [.name [column] {}, .operation (.call false) "count" [.name ["k"] {}] {}]
    source := some (.name ["t"] {})
    groupBy := some [.name [column] {}] }

def keyedTable : Table :=
  ⟨Column.freshLabels 3, [("k", .ints .int64 [1, 1, 2]), ("v", .ints .int64 [10, 20, 30])]⟩

set_option maxRecDepth 4000 in
theorem fetch_keyedFile (cached : Bool) :
    Entry.fetch { id := 0, name := .text "t", file? := some (.text "t.csv"), cached }
      keyedFile.drive = .ok (some keyedTable) := rfl

theorem sparesTables_keyed : SparesTables [qualifiedSelect, countBy "k"] := by
  intro before q after hSplit u hu
  rcases before with _ | ⟨first, _ | ⟨second, before⟩⟩
  · cases hSplit
    cases mem_singleton.1 hu
    trivial
  · cases hSplit
    rcases mem_pair.1 hu with rfl | rfl
    · trivial
    · rintro ⟨q, hq, u, hu, hQualifies⟩
      rcases mem_pair.1 hq with rfl | rfl
      · cases mem_singleton.1 hu
        obtain ⟨table, hParts⟩ := hQualifies
        simp at hParts
      · rcases mem_pair.1 hu with rfl | rfl
        · obtain ⟨table, hParts⟩ := hQualifies
          cases hParts
        · exact hQualifies
  · simp at hSplit

/-- The theorem at a grouping by one column after another was qualified. -/
theorem answers_cachedWith_keyed :
    (∀ e ∈ keyedFile.catalog.entries, e.2.cached = false) ∧
    (∀ e ∈ keyedFile.catalog.entries, e.2.name.isScalar = true) ∧
    (keyedFile.catalog.entries.map (·.2.id)).Nodup ∧ keyedFile.FetchesOnly IsRegular ∧
    keyedFile.catalog.scope = [] ∧ Extension.NoneSeesNames keyedFile.catalog.extensions ∧
    SparesTables [qualifiedSelect, countBy "k"] ∧
    ∀ bound reduce, answers reduce [qualifiedSelect, countBy "k"] (keyedFile.cachedWith bound) =
        answers reduce [qualifiedSelect, countBy "k"] keyedFile := by
  have hUncached : ∀ e ∈ keyedFile.catalog.entries, e.2.cached = false := by decide
  have hScalar : ∀ e ∈ keyedFile.catalog.entries, e.2.name.isScalar = true := by decide
  have hDistinct : (keyedFile.catalog.entries.map (·.2.id)).Nodup := by decide
  have hRegular : keyedFile.FetchesOnly IsRegular := by
    intro e he t ht column hColumn table other hSplit
    cases List.mem_singleton.1 he
    cases (fetch_keyedFile false).symm.trans ht
    rcases List.mem_pair.1 hColumn with rfl | rfl <;> cases hSplit
  have hExtensions : Extension.NoneSeesNames keyedFile.catalog.extensions := nofun
  exact ⟨hUncached, hScalar, hDistinct, hRegular, rfl, hExtensions, sparesTables_keyed,
    answers_cachedWith hUncached hScalar hDistinct hRegular rfl hExtensions sparesTables_keyed⟩

def keyedLater : Workspace :=
  { keyedFile with frames := #[{ table := keyedTable, renamed := [("v", "t.v")] }] }

def keyedLaterCached : Workspace :=
  { keyedLater.cachedWith none with
    catalog := { (keyedLater.cachedWith none).catalog with
      cache := .memory none [(0, .frame 0)] 0 1 } }

theorem run_qualifiedSelect : run (evalSelect qualifiedSelect) keyedFile =
    (.ok ⟨Column.freshLabels 3, [("t.v", .ints .int64 [10, 20, 30])]⟩, keyedLater) := by
  rw [run_evalSelect_of_rowsOf rfl (run_rowsOf_fetched rfl (fetch_keyedFile false)) rfl]
  rfl

theorem run_qualifiedSelect_cached : run (evalSelect qualifiedSelect) (keyedFile.cachedWith none) =
    (.ok ⟨Column.freshLabels 3, [("t.v", .ints .int64 [10, 20, 30])]⟩, keyedLaterCached) := by
  have hFetch : (keyedFile.cachedWith none).drive = keyedFile.drive := rfl
  have hRows := run_rowsOf_cached (w := keyedFile.cachedWith none)
    (e := { id := 0, name := .text "t", file? := some (.text "t.csv"), cached := true }) rfl rfl
  rw [hFetch, fetch_keyedFile true] at hRows
  rw [run_evalSelect_of_rowsOf rfl hRows rfl]
  rfl

/-- After a column was qualified a cached table cannot be grouped by it. -/
theorem qualified_column_not_grouped :
    (∃ t, answers false [qualifiedSelect, countBy "v"] keyedFile =
        [.ok (.table ⟨Column.freshLabels 3, [("t.v", .ints .int64 [10, 20, 30])]⟩),
          .ok (.table t)]) ∧
    answers false [qualifiedSelect, countBy "v"] (keyedFile.cachedWith none) =
      [.ok (.table ⟨Column.freshLabels 3, [("t.v", .ints .int64 [10, 20, 30])]⟩),
        .error .missingKey] := by
  have hGrouped : ∃ t, (run (evalSelect (countBy "v")) keyedLater).1 = .ok t := by
    have hRows := run_rowsOf_fetched (w := keyedLater) rfl (fetch_keyedFile false)
    rw [run_evalSelect_of_rowsOf rfl hRows rfl]
    exact ⟨_, rfl⟩
  have hLost : (run (evalSelect (countBy "v")) keyedLaterCached).1 = .error .missingKey := rfl
  obtain ⟨t, hGrouped⟩ := hGrouped
  simp only [answers, answerOf_eq, run_qualifiedSelect, run_qualifiedSelect_cached, hGrouped, hLost]
  exact ⟨⟨t, rfl⟩, rfl⟩

end Query

end TableQuery
