import TableQuery.Proofs.GroupedColumns

/-! Targets of a grouped select under their names. A grouped table has its columns by the texts of
the targets, so two aggregates of one text are rejected, and a key that is asked for twice is
answered once. -/
namespace TableQuery

open Sql

namespace Query

/-- Each target of a grouped select is answered under its own name exactly if no two have the same
text and the groups have what they mean under the texts. Two aggregates of one text are rejected; a
key that is asked for twice is answered once. -/
theorem grouped_targets_named_iff {q : Select} {key : Node} {rest : List Node}
    (hKeys : q.groupBy = some (key :: rest)) {w v v' : Workspace} {rows : Relation}
    (hRows : Work.run (do evalWhere (← evalFrom q.source) q.condition) w = (.ok rows, v))
    {g : Grouping}
    (hGroups : Work.run (evalGroups rows q.groupBy) v = (.ok (some (.grouping g)), v'))
    {items : List TargetData} (hTargets : q.targets = items.map (·.1)) {texts : List String}
    (hKeyTexts : keyTexts (key :: rest) = .ok texts)
    (hNames : (items.map (·.1.outputName)).Nodup)
    (hMeans : ∀ a ∈ items, a.Means v'.catalog.extensions g texts) :
    let made := (Work.run (evalGroupRows q) w).1
    let once := ((otherTargets texts q.targets).map Node.bareText).Nodup
    (Work.run (evalSelect q.core) w).1 = Table.bareNames <$> made ∧
    ((∃ u, made = .ok u ∧ ∀ a ∈ items, a.byName ∈ u.columns) ↔
      (items.map (·.1.bareText)).Nodup ∧ Found v'.catalog.extensions texts g items) ∧
    (¬once → ∃ text, (Work.run (evalSelect q) w).1 = .error (.query (.duplicateColumn text))) ∧
    (Found v'.catalog.extensions texts g items → once → ∃ u, made = .ok u ∧
      ∀ a ∈ items, ∃ b ∈ items, b.1.bareText = a.1.bareText ∧ (b.1.outputName, a.2) ∈ u.columns) ∧
    (texts = g.keys.map (·.1) → texts.Nodup → (∃ a ∈ items, a.1.bareText ∉ texts) →
      (∀ a ∈ items, a.1.bareText ∉ texts → ∃ column, a.1.CallsPlain column) →
      Found v'.catalog.extensions texts g items) ∧
    ∀ u, q.having = none → (Work.run (evalSelect q) w).1 = .ok u →
      ∃ all, (Work.run (evalSelect q.core) w).1 = .ok all ∧ all.PickedFrom u := by
  intro made once
  have hSource : (GroupSource.grouping g).grouped = .ok g := rfl
  have hRun := run_evalGroupRows hKeys hRows hGroups
  have hMade : made =
      groupTargets v'.catalog.extensions (items.map (·.1)) (.grouping g) (key :: rest) := by
    rw [← hTargets]
    exact congrArg Prod.fst hRun
  refine ⟨?_, ?_, fun hTwice => ?_, ?_,
    fun hCalled hOnce hSome => found_of_means hMeans hSome hCalled hOnce,
    fun _ => pickedFrom_core hKeys hRows hGroups⟩
  · rw [hMade, ← hTargets]
    exact run_evalSelect_core_groups hKeys hRows hGroups
  · rw [hMade]
    exact groupTargets_names_iff hNames hKeyTexts hSource
  · have hAsks : ∀ target ∈ otherTargets texts q.targets, ∃ a,
          Asks v'.catalog.extensions target a := by
      rw [hTargets, otherTargets_map]
      rintro _ hTarget
      obtain ⟨a, ha, rfl⟩ := List.mem_map.1 hTarget
      exact (hMeans a (mem_otherItems.1 ha).1).asks (mem_otherItems.1 ha).2
    obtain ⟨text, hText⟩ := groupTargets_of_repeated hKeyTexts hAsks hTwice
    rw [hText] at hRun
    rw [evalSelect_grouped hKeys, Work.run_bind_error hRun]
    exact ⟨text, rfl⟩
  · rw [hMade]
    intro h hOnce
    exact h.answered hNames hKeyTexts hSource (hTargets ▸ hOnce)

def renamedPair : List TargetData :=
  [(Node.aliased (.name ["k"] {}) { parts := ["key"] }, .ints .int64 [1, 2]),
    ((countOf "v").aliased { parts := ["n"] }, .ints .int64 [1, 2])]

/-- `SELECT k AS key, count(v) AS n` has both names, and with a second `count(v) AS m` it is
rejected. -/
theorem grouped_targets_named_pairs :
    (∀ a ∈ renamedPair, a.Means [] pairGrouping ["k"]) ∧
    (∃ u,
      (Work.run (evalGroupRows (byPairs (renamedPair.map (·.1)))) (.ofTables [("t", pairRows)])).1 =
        .ok u ∧
      ("key", .ints .int64 [1, 2]) ∈ u.columns ∧ ("n", .ints .int64 [1, 2]) ∈ u.columns) ∧
    ∃ text,
      (Work.run
        (evalSelect (byPairs ((countOf "v").aliased { parts := ["m"] } :: renamedPair.map (·.1))))
        (.ofTables [("t", pairRows)])).1 = .error (.query (.duplicateColumn text)) := by
  have hMeans : ∀ a ∈ renamedPair, a.Means [] pairGrouping ["k"] := fun a ha => (means_pairs a ha).1
  have hTargets (items : List TargetData) : (byPairs (items.map (·.1))).targets = items.map (·.1) :=
    rfl
  obtain ⟨-, hNamed, -, -, hFound, -⟩ := grouped_targets_named_iff rfl (run_pairRows _)
    (run_evalGroups_pairs _) (hTargets renamedPair) rfl (by decide) hMeans
  obtain ⟨-, -, hTwice, -⟩ := grouped_targets_named_iff rfl (run_pairRows _)
    (run_evalGroups_pairs _)
    (hTargets (((countOf "v").aliased { parts := ["m"] }, .ints .int64 [1, 2]) :: renamedPair)) rfl
    (by decide) (List.forall_mem_cons.2 ⟨.aggregate {} _ (by decide) rfl rfl rfl, hMeans⟩)
  refine ⟨hMeans, ?_, hTwice (by decide)⟩
  obtain ⟨u, hu, hColumns⟩ := hNamed.2
    ⟨by decide, hFound rfl (List.nodup_singleton _)
      ⟨_, List.mem_cons_of_mem _ (List.mem_singleton_self _), by decide⟩
      fun a ha => (means_pairs a ha).2⟩
  exact ⟨u, hu, hColumns _ List.mem_cons_self,
    hColumns _ (List.mem_cons_of_mem _ (List.mem_singleton_self _))⟩

/-- `SELECT count(v) AS a, count(v) AS b` is rejected, and `SELECT k AS a, k AS b, count(v)` is
answered without `a`. -/
theorem second_name_of_a_text :
    (Work.run (evalSelect (byPairs
      [(countOf "v").aliased { parts := ["a"] }, (countOf "v").aliased { parts := ["b"] }]))
      (.ofTables [("t", pairRows)])).1 = .error (.query (.duplicateColumn "count(v)")) ∧
    (Work.run (evalSelect (byPairs
      [Node.aliased (.name ["k"] {}) { parts := ["a"] },
        Node.aliased (.name ["k"] {}) { parts := ["b"] }, countOf "v"]))
      (.ofTables [("t", pairRows)])).1 =
      .ok ⟨Column.freshLabels 2,
        [("b", .ints .int64 [1, 2]), ("count(v)", .ints .int64 [1, 2])]⟩ := by
  have hAnswer (targets : List Node) :=
    run_evalSelect_core_groups (q := byPairs targets) rfl (run_pairRows _) (run_evalGroups_pairs _)
  exact ⟨(hAnswer _).trans rfl, (hAnswer _).trans rfl⟩

end Query

end TableQuery
