import Mathlib.Data.List.Nodup
import TableQuery.Proofs.Joins
import TableQuery.Proofs.OutputNames

/-! The columns of a joined table. A shared column should be called by its table, and every other
one by its own name. This comes out exactly if the endings of a join occur in no name, with one
exception. -/
namespace TableQuery

open List

open Table

def calledNames (leftName rightName leftOn rightOn : String) (ls rs : List String) : List String :=
  ls.map (calledName leftName leftOn rs) ++ (keptNames leftOn rightOn rs).map
    (calledName rightName rightOn ls)

/-- No name contains the left ending, and only a compared column on the right may contain the right
one. -/
def EndingsTell (leftOn rightOn : String) (ls rs : List String) : Prop :=
  ∀ c, c ∈ ls ∨ c ∈ rs → ¬HasMark 'x' c ∧ (HasMark 'y' c → c = rightOn ∧ leftOn ≠ rightOn ∧ c ∈ ls)

/-- A column is in one table only, or it is compared. -/
def KeepsName (leftOn rightOn : String) (ls rs : List String) (m : String) : Prop :=
  m ∈ ls ∧ (m ∉ rs ∨ m = leftOn) ∨ m ∈ rs ∧ (m ∉ ls ∨ m = rightOn)

structure QualifiedFree (leftName rightName leftOn rightOn : String) (ls rs : List String) :
    Prop where
  left : ∀ c ∈ ls, c ∈ rs → c ≠ leftOn → ¬KeepsName leftOn rightOn ls rs (leftName ++ "." ++ c)
  right : ∀ c ∈ rs, c ∈ ls → c ≠ rightOn → ¬KeepsName leftOn rightOn ls rs (rightName ++ "." ++ c)
  apart : ∀ c ∈ ls, c ∈ rs → c ≠ leftOn → ∀ d ∈ rs, d ∈ ls → d ≠ rightOn →
    leftName ++ "." ++ c ≠ rightName ++ "." ++ d

section Names

variable {leftOn rightOn : String} {ls rs : List String}
variable {key c : String} {others : List String}

/-- The endings tell the columns apart exactly if each name comes out as it should. -/
theorem endingsTell_iff (hLeftOn : leftOn ∈ ls) (hRightOn : rightOn ∈ rs) :
    EndingsTell leftOn rightOn ls rs ↔
      (∀ c ∈ ls, c ∈ keptNames leftOn rightOn rs ∧ c = leftOn ∨
        ¬HasMark 'x' c ∧ (c ∉ keptNames leftOn rightOn rs → ¬HasMark 'y' c)) ∧
      ∀ c ∈ keptNames leftOn rightOn rs, c ∈ ls ∧ c = rightOn ∨
        ¬HasMark 'x' c ∧ ¬HasMark 'y' c := by
  constructor
  · intro h
    refine ⟨fun c hc => .inr ⟨(h c (.inl hc)).1, fun hLost hMark => ?_⟩, fun c hc => ?_⟩
    · obtain ⟨rfl, hOn, -⟩ := (h c (.inl hc)).2 hMark
      exact hLost (mem_keptNames_iff.2 ⟨hRightOn, fun hKey => hOn hKey.1⟩)
    · have hTells := h c (.inr (mem_keptNames_iff.1 hc).1)
      by_cases hMark : HasMark 'y' c
      · exact .inl ⟨(hTells.2 hMark).2.2, (hTells.2 hMark).1⟩
      · exact .inr ⟨hTells.1, hMark⟩
  · rintro ⟨hLeft, hRight⟩
    have hOfLeft (c : String) (hc : c ∈ ls) :
        ¬HasMark 'x' c ∧ (HasMark 'y' c → c = rightOn ∧ leftOn ≠ rightOn ∧ c ∈ ls) := by
      rcases hLeft c hc with ⟨hKept, rfl⟩ | ⟨hx, hy⟩
      · -- the right table has a column of the same name, which is not the compared one
        rcases hRight c hKept with ⟨-, rfl⟩ | ⟨hx, hy⟩
        · exact absurd ⟨rfl, rfl⟩ (mem_keptNames_iff.1 hKept).2
        · exact ⟨hx, fun hMark => absurd hMark hy⟩
      · refine ⟨hx, fun hMark => ?_⟩
        have hKept : c ∈ keptNames leftOn rightOn rs := by
          by_contra hLost
          exact hy hLost hMark
        rcases hRight c hKept with ⟨-, rfl⟩ | ⟨-, hy⟩
        · exact ⟨rfl, fun hOn => (mem_keptNames_iff.1 hKept).2 ⟨hOn, rfl⟩, hc⟩
        · exact absurd hMark hy
    rintro c (hc | hc)
    · exact hOfLeft c hc
    · by_cases hKept : c ∈ keptNames leftOn rightOn rs
      · rcases hRight c hKept with ⟨hc, -⟩ | ⟨hx, hy⟩
        · exact hOfLeft c hc
        · exact ⟨hx, fun hMark => absurd hMark hy⟩
      · have hKey : leftOn = rightOn ∧ c = rightOn := by
          by_contra hKey
          exact hKept (mem_keptNames_iff.2 ⟨hc, hKey⟩)
        exact hOfLeft c (hKey.2 ▸ hKey.1 ▸ hLeftOn)

theorem not_shared_iff : ¬(c ∈ others ∧ c ≠ key) ↔ c ∉ others ∨ c = key := by
  rw [not_and_or, not_not]

/-- The names of a side differ exactly if its qualified names differ from the names that it keeps.
-/
theorem nodup_map_calledName_iff {table : String} {names : List String} (hNames : names.Nodup) :
    (names.map (calledName table key others)).Nodup ↔
      ∀ c ∈ names, c ∈ others → c ≠ key →
        ∀ m ∈ names, m ∉ others ∨ m = key → table ++ "." ++ c ≠ m := by
  rw [nodup_map_iff_inj_on hNames]
  constructor
  · intro h c hc hOther hKey m hm hOwn hSame
    have hCalled : calledName table key others c = calledName table key others m := by
      rw [calledName_of_shared ⟨hOther, hKey⟩, calledName_of_own (not_shared_iff.2 hOwn), hSame]
    obtain rfl := h c hc m hm hCalled
    exact not_shared_iff.2 hOwn ⟨hOther, hKey⟩
  · intro h c hc m hm hCalled
    by_cases hShared : c ∈ others ∧ c ≠ key <;> by_cases hShared' : m ∈ others ∧ m ≠ key
    · rw [calledName_of_shared hShared, calledName_of_shared hShared'] at hCalled
      simpa using hCalled
    · rw [calledName_of_shared hShared, calledName_of_own hShared'] at hCalled
      exact absurd hCalled (h c hc hShared.1 hShared.2 m hm (not_shared_iff.1 hShared'))
    · rw [calledName_of_own hShared, calledName_of_shared hShared'] at hCalled
      exact absurd hCalled.symm (h m hm hShared'.1 hShared'.2 c hc (not_shared_iff.1 hShared))
    · rwa [calledName_of_own hShared, calledName_of_own hShared'] at hCalled

/-- A key that both tables have keeps its name as a column of the left one. -/
theorem keepsName_iff (hLeftOn : leftOn ∈ ls) {m : String} :
    KeepsName leftOn rightOn ls rs m ↔
      m ∈ ls ∧ (m ∉ rs ∨ m = leftOn) ∨
      m ∈ keptNames leftOn rightOn rs ∧ (m ∉ ls ∨ m = rightOn) := by
  constructor
  · rintro (hLeft | ⟨hm, hOwn⟩)
    · exact .inl hLeft
    · by_cases hKey : leftOn = rightOn ∧ m = rightOn
      · obtain ⟨rfl, rfl⟩ := hKey
        exact .inl ⟨hLeftOn, .inr rfl⟩
      · exact .inr ⟨mem_keptNames_iff.2 ⟨hm, hKey⟩, hOwn⟩
  · rintro (hLeft | ⟨hm, hOwn⟩)
    · exact .inl hLeft
    · exact .inr ⟨(mem_keptNames_iff.1 hm).1, hOwn⟩

theorem mem_keptNames_of_ne (hc : c ∈ rs) (hKey : c ≠ rightOn) : c ∈ keptNames leftOn rightOn rs :=
  mem_keptNames_iff.2 ⟨hc, fun h => hKey h.2⟩

theorem nodup_keptNames (hrs : rs.Nodup) : (keptNames leftOn rightOn rs).Nodup := by
  unfold keptNames
  split
  · exact hrs.filter _
  · exact hrs

/-- All names of a join differ exactly if its qualified names are new. -/
theorem nodup_calledNames_iff (leftName rightName rightOn : String) (hls : ls.Nodup)
    (hrs : rs.Nodup) (hLeftOn : leftOn ∈ ls) :
    (calledNames leftName rightName leftOn rightOn ls rs).Nodup ↔
      QualifiedFree leftName rightName leftOn rightOn ls rs := by
  rw [calledNames, nodup_append, nodup_map_calledName_iff hls,
    nodup_map_calledName_iff (nodup_keptNames hrs)]
  constructor
  · rintro ⟨hLeft, hRight, hApart⟩
    have hNe {c d : String} (hc : c ∈ ls) (hd : d ∈ keptNames leftOn rightOn rs) :
        calledName leftName leftOn rs c ≠ calledName rightName rightOn ls d :=
      hApart _ (mem_map_of_mem hc) _ (mem_map_of_mem hd)
    refine ⟨fun c hc hOther hKey hKeeps => ?_, fun c hc hOther hKey hKeeps => ?_,
      fun c hc hOther hKey d hd hOther' hKey' => ?_⟩
    · rcases (keepsName_iff hLeftOn).1 hKeeps with ⟨hm, hOwn⟩ | ⟨hm, hOwn⟩
      · exact hLeft c hc hOther hKey _ hm hOwn rfl
      · have hCross := hNe hc hm
        rw [calledName_of_shared ⟨hOther, hKey⟩,
          calledName_of_own (not_shared_iff.2 hOwn)] at hCross
        exact hCross rfl
    · have hKept : c ∈ keptNames leftOn rightOn rs := mem_keptNames_of_ne hc hKey
      rcases (keepsName_iff hLeftOn).1 hKeeps with ⟨hm, hOwn⟩ | ⟨hm, hOwn⟩
      · have hCross := hNe hm hKept
        rw [calledName_of_shared ⟨hOther, hKey⟩,
          calledName_of_own (not_shared_iff.2 hOwn)] at hCross
        exact hCross rfl
      · exact hRight c hKept hOther hKey _ hm hOwn rfl
    · have hCross := hNe hc (mem_keptNames_of_ne hd hKey')
      rwa [calledName_of_shared ⟨hOther, hKey⟩, calledName_of_shared ⟨hOther', hKey'⟩] at hCross
  · intro h
    refine ⟨fun c hc hOther hKey m hm hOwn hSame => ?_, fun c hc hOther hKey m hm hOwn hSame => ?_,
      ?_⟩
    · exact h.left c hc hOther hKey (.inl (hSame ▸ ⟨hm, hOwn⟩))
    · exact h.right c (mem_keptNames_iff.1 hc).1 hOther hKey
        (hSame ▸ (keepsName_iff hLeftOn).2 (.inr ⟨hm, hOwn⟩))
    · intro x hx y hy hSame
      obtain ⟨c, hc, rfl⟩ := mem_map.1 hx
      obtain ⟨d, hd, rfl⟩ := mem_map.1 hy
      by_cases hShared : c ∈ rs ∧ c ≠ leftOn <;> by_cases hShared' : d ∈ ls ∧ d ≠ rightOn
      · rw [calledName_of_shared hShared, calledName_of_shared hShared'] at hSame
        exact h.apart c hc hShared.1 hShared.2 d (mem_keptNames_iff.1 hd).1 hShared'.1 hShared'.2
          hSame
      · rw [calledName_of_shared hShared, calledName_of_own hShared'] at hSame
        exact h.left c hc hShared.1 hShared.2
          (hSame ▸ (keepsName_iff hLeftOn).2 (.inr ⟨hd, not_shared_iff.1 hShared'⟩))
      · rw [calledName_of_own hShared, calledName_of_shared hShared'] at hSame
        exact h.right d (mem_keptNames_iff.1 hd).1 hShared'.1 hShared'.2
          (.inl (hSame ▸ ⟨hc, not_shared_iff.1 hShared⟩))
      · -- a name that both sides keep is that of a shared key, of which the right one is left out
        rw [calledName_of_own hShared, calledName_of_own hShared'] at hSame
        obtain rfl := hSame
        obtain ⟨hd, hKey⟩ := mem_keptNames_iff.1 hd
        have hLeftKey := (not_shared_iff.1 hShared).resolve_left (not_not.2 hd)
        have hRightKey := (not_shared_iff.1 hShared').resolve_left (not_not.2 hc)
        exact hKey ⟨hLeftKey.symm.trans hRightKey, hRightKey⟩

end Names

/-- Each column has the name that it should have, no two have the same, and under it stand its own
entries. -/
structure ToldApart (kind : JoinKind) (leftName rightName leftOn rightOn : String)
    (l r joined : Table) : Prop where
  names_eq : joined.names = calledNames leftName rightName leftOn rightOn l.names r.names
  nodup : joined.names.Nodup
  values : ∀ (side : JoinSide) (c : String) (d : Data), (c, d) ∈ (side.of l r).columns →
    c ≠ side.of leftOn rightOn →
    joined.named (calledName (side.of leftName rightName) (side.of leftOn rightOn)
      (side.of r l).names c) =
      [d.reindex ((joinRows kind leftOn rightOn l r).map side.position)]

section JoinTables

variable {kind : JoinKind} {leftName rightName leftOn rightOn : String} {l r joined : Table}
  (hJoin : joinTables kind leftName rightName leftOn rightOn l r = .ok joined)

include hJoin

/-- Each name comes out as it should exactly if the endings tell the columns apart. -/
theorem names_eq_calledNames_iff :
    joined.names = calledNames leftName rightName leftOn rightOn l.names r.names ↔
      EndingsTell leftOn rightOn l.names r.names := by
  obtain ⟨hLeftOn, hRightOn⟩ := mem_names_of_joinTables hJoin
  have hParts {xs ys : List String} {f f' g g' : String → String} :
      xs.map f ++ ys.map g = xs.map f' ++ ys.map g' ↔
        (∀ c ∈ xs, f c = f' c) ∧ ∀ c ∈ ys, g c = g' c := by
    rw [← map_inj_left, ← map_inj_left]
    exact ⟨fun h => append_inj h (by simp), fun h => by rw [h.1, h.2]⟩
  rw [names_of_joinTables hJoin, calledNames, hParts, endingsTell_iff hLeftOn hRightOn]
  simp only [← calledName_keptNames leftName leftOn rightOn r.names, joinedName_ended_left_iff,
    joinedName_ended_right_iff]

/-- Columns with different names that come out as they should have the entries of their tables. -/
theorem values_of_names_eq
    (hNames : joined.names = calledNames leftName rightName leftOn rightOn l.names r.names)
    (hNodup : joined.names.Nodup) (side : JoinSide) {c : String} {d : Data}
    (hMem : (c, d) ∈ (side.of l r).columns) (hKey : c ≠ side.of leftOn rightOn) :
    joined.named
      (calledName (side.of leftName rightName) (side.of leftOn rightOn) (side.of r l).names c) =
      [d.reindex ((joinRows kind leftOn rightOn l r).map side.position)] := by
  obtain ⟨hLeftOn, hRightOn⟩ := mem_names_of_joinTables hJoin
  obtain ⟨hLeft, hRight⟩ :=
    (endingsTell_iff hLeftOn hRightOn).1 ((names_eq_calledNames_iff hJoin).1 hNames)
  have hName : c ∈ (side.of l r).names := mem_map_of_mem hMem
  cases side with
  | left =>
    have hCalled :=
      (joinedName_ended_left_iff leftName rightName leftOn rightOn _).2 (hLeft c hName)
    rw [calledName_keptNames] at hCalled
    have hJoined := mem_joinTables_left hJoin hKey hMem
    rw [hCalled] at hJoined
    exact named_of_nodup hNodup hJoined
  | right =>
    have hKept : c ∈ keptNames leftOn rightOn r.names := mem_keptNames_of_ne hName hKey
    have hCalled :=
      (joinedName_ended_right_iff leftName rightName leftOn rightOn _).2 (hRight c hKept)
    have hJoined := mem_joinTables_right hJoin hKey hMem
    rw [hCalled] at hJoined
    exact named_of_nodup hNodup hJoined

end JoinTables

namespace Query

/-- The columns of a join are told apart by the names of their tables exactly if the endings do not
occur in their names, with one exception, and no qualified name is that of another column. -/
theorem join_columns_told_apart_iff {w : Workspace} {words : String} {left right : Sql.Node}
    {condition : Option Sql.Node} {kind : JoinKind} {l r : Table} {leftOn rightOn : String}
    {joined : Table} (hJoins : Joins w words left right condition kind l r leftOn rightOn joined)
    (hl : l.names.Nodup) (hr : r.names.Nodup) (implicit : Bool) (tag : Sql.Tag) :
    Yields w (.join words left right condition implicit tag) joined ∧
    (ToldApart kind (sideName left) (sideName right) leftOn rightOn l r joined ↔
      EndingsTell leftOn rightOn l.names r.names ∧
      QualifiedFree (sideName left) (sideName right) leftOn rightOn l.names r.names) := by
  have hJoin := hJoins.joined_eq
  have hNames := names_eq_calledNames_iff hJoin
  have hFree := nodup_calledNames_iff (sideName left) (sideName right) rightOn hl hr
    (mem_names_of_joinTables hJoin).1
  refine ⟨hJoins.yields implicit tag, fun h => ⟨hNames.1 h.names_eq, ?_⟩,
    fun ⟨hTell, hQualified⟩ => ?_⟩
  · exact hFree.1 (h.names_eq ▸ h.nodup)
  · have hEq := hNames.2 hTell
    have hNodup : joined.names.Nodup := hEq ▸ hFree.2 hQualified
    exact ⟨hEq, hNodup,
      fun side c d hMem hKey => values_of_names_eq hJoin hEq hNodup side hMem hKey⟩

/-- Two tables where the right key `d_y` contains the right ending. -/
def endedKey : Workspace :=
  .ofTables [("l", ⟨Column.freshLabels 2, [("k", .ints .int64 [1, 2]),
    ("d_y", .ints .int64 [5, 6])]⟩),
    ("r", ⟨Column.freshLabels 2, [("d_y", .ints .int64 [2, 1]), ("w", .ints .int64 [10, 20])]⟩)]

/-- `FROM l INNER JOIN r ON l.k = r.d_y`: under `l.d_y` stands the column of `l`, under `d_y` the
compared one. -/
theorem join_columns_told_apart_endedKey :
    ∃ l r joined,
      Joins endedKey "INNER JOIN" (.name ["l"] {}) (.name ["r"] {})
        (some (.operation .binary "=" [.name ["l", "k"] {}, .name ["r", "d_y"] {}] {})) .inner l r
        "k" "d_y" joined ∧
      l.names.Nodup ∧ r.names.Nodup ∧ joined.names = ["k", "l.d_y", "d_y", "w"] ∧
      ToldApart .inner "l" "r" "k" "d_y" l r joined := by
  have hJoins : Joins endedKey "INNER JOIN" (.name ["l"] {}) (.name ["r"] {})
      (some (.operation .binary "=" [.name ["l", "k"] {}, .name ["r", "d_y"] {}] {})) .inner
      ⟨Column.freshLabels 2, [("k", .ints .int64 [1, 2]), ("d_y", .ints .int64 [5, 6])]⟩
      ⟨Column.freshLabels 2, [("d_y", .ints .int64 [2, 1]), ("w", .ints .int64 [10, 20])]⟩ "k" "d_y"
      ⟨Column.freshLabels 2,
        [("k", .ints .int64 [1, 2]), ("l.d_y", .ints .int64 [5, 6]), ("d_y", .ints .int64 [1, 2]),
          ("w", .ints .int64 [20, 10])]⟩ :=
    ⟨rfl, ⟨.frame 0, .frame 1, _, _, rfl, rfl, rfl, rfl⟩, rfl, rfl⟩
  have hTell : EndingsTell "k" "d_y" ["k", "d_y"] ["d_y", "w"] := by
    intro c hc
    obtain rfl | rfl | rfl : c = "k" ∨ c = "d_y" ∨ c = "w" := by
      simpa [or_assoc, or_comm, or_left_comm] using hc
    · exact ⟨mt occursIn_x_iff.2 (ne_true_of_eq_false rfl),
        fun h => absurd (occursIn_y_iff.2 h) (ne_true_of_eq_false rfl)⟩
    · exact ⟨mt occursIn_x_iff.2 (ne_true_of_eq_false rfl), fun _ => ⟨rfl, by simp, by simp⟩⟩
    · exact ⟨mt occursIn_x_iff.2 (ne_true_of_eq_false rfl),
        fun h => absurd (occursIn_y_iff.2 h) (ne_true_of_eq_false rfl)⟩
  have hFree : QualifiedFree "l" "r" "k" "d_y" ["k", "d_y"] ["d_y", "w"] :=
    ⟨by simp [KeepsName], by simp, by simp⟩
  have hLeft : ["k", "d_y"].Nodup := by simp
  have hRight : ["d_y", "w"].Nodup := by simp
  obtain ⟨-, hTold⟩ := join_columns_told_apart_iff hJoins hLeft hRight false {}
  exact ⟨_, _, _, hJoins, hLeft, hRight, rfl, hTold.2 ⟨hTell, hFree⟩⟩

/-- `FROM l INNER JOIN r ON l.k = r.k`, where only `l` has `tax_x`: the column is called `l.tax`. -/
theorem own_column_loses_ending :
    Yields (.ofTables [("l",
        ⟨Column.freshLabels 2, [("k", .ints .int64 [1, 2]), ("tax_x", .ints .int64 [10, 20])]⟩),
      ("r", ⟨Column.freshLabels 2, [("k", .ints .int64 [1, 2]), ("w", .ints .int64 [10, 20])]⟩)])
      (.join "INNER JOIN" (.name ["l"] {}) (.name ["r"] {})
        (some (.operation .binary "=" [.name ["l", "k"] {}, .name ["r", "k"] {}] {})) false {})
      ⟨Column.freshLabels 2,
        [("k", .ints .int64 [1, 2]), ("l.tax", .ints .int64 [10, 20]),
          ("w", .ints .int64 [10, 20])]⟩ :=
  ⟨2, _, rfl, rfl⟩

end Query

end TableQuery
