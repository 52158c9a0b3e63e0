import TableQuery.Proofs.Partition

/-! Aggregates group by group. What an aggregate holds for a group is the aggregate of the entries
at the rows of the group and of nothing else. The counts of groups add up to the rows of all of
them. -/
namespace TableQuery

open List

namespace Data

def overall (f : Aggregate) (d : Data) : Except Fault Data := d.aggregate f [List.range d.length]

section OneGroup

variable {α β : Type} (xs : List α) (rows : List Nat)

theorem split_filterMap :
    split (rows.filterMap (xs[·]?)) [range (rows.filterMap (xs[·]?)).length] = split xs [rows] := by
  simp only [split, map_cons, map_nil, filterMap_getElem?_range]

theorem split_map_filterMap (f : α → β) :
    split ((rows.filterMap (xs[·]?)).map f) [range (rows.filterMap (xs[·]?)).length] =
      split (xs.map f) [rows] := by
  simp only [split, map_cons, map_nil, ← filterMap_getElem?_map, filterMap_getElem?_range]

theorem zip_filterMap {xs : List α} {ys : List β} (h : xs.length = ys.length) (rows : List Nat) :
    (rows.filterMap (xs[·]?)).zip (rows.filterMap (ys[·]?)) = rows.filterMap ((xs.zip ys)[·]?) := by
  have hFirst : xs = (xs.zip ys).map Prod.fst := (map_fst_zip h.le).symm
  have hSecond : ys = (xs.zip ys).map Prod.snd := (map_snd_zip h.ge).symm
  calc (rows.filterMap (xs[·]?)).zip (rows.filterMap (ys[·]?))
      = ((rows.filterMap ((xs.zip ys)[·]?)).map Prod.fst).zip
        ((rows.filterMap ((xs.zip ys)[·]?)).map Prod.snd) := by
        rw [filterMap_getElem?_map, filterMap_getElem?_map, ← hFirst, ← hSecond]
    _ = rows.filterMap ((xs.zip ys)[·]?) := (zip_of_prod rfl rfl).symm

end OneGroup

/-- The aggregate of one group is that of its entries. -/
theorem overall_pick (f : Aggregate) (d : Data) (rows : List Nat) :
    (d.pick rows).overall f = d.aggregate f [rows] := by
  have hLength : (d.pick rows).length = (rows.filterMap (d.missing[·]?)).length := by
    rw [← length_missing, missing_pick]
  unfold overall aggregate
  cases f with
  | sum =>
    cases d <;> simp only [pick, arrange, length, sums, splitPresent, splitNumbers, split_filterMap]
  | mean =>
    cases d <;>
      simp only [pick, arrange, length, means, splitPresent, splitNumbers, split_filterMap,
        split_map_filterMap]
  | count =>
    have hNumbers : split (d.pick rows).missing [range (d.pick rows).length] =
        split d.missing [rows] := by
      rw [hLength, missing_pick, split_filterMap]
    cases d <;> simp only [counts, hNumbers] <;> simp only [pick, arrange]
  | countDistinct =>
    have hEntries : (d.pick rows).cells.zip (d.pick rows).missing =
        rows.filterMap ((d.cells.zip d.missing)[·]?) := by
      rw [cells_pick, missing_pick, zip_filterMap (by simp)]
    have hEach : (d.pick rows).length = (rows.filterMap ((d.cells.zip d.missing)[·]?)).length := by
      rw [← hEntries]
      simp
    simp only [distinctCounts]
    rw [hEntries, hEach, split_filterMap]
  | max =>
    cases d <;> simp only [pick, arrange, length, extremes, splitPresent, splitNumbers,
      split_filterMap]
  | min =>
    cases d <;> simp only [pick, arrange, length, extremes, splitPresent, splitNumbers,
      split_filterMap]

section Groupwise

variable {d e : Data} {groups : List (List Nat)} {k : Nat} {rows : List Nat}
  (hk : groups[k]? = some rows)
include hk

/-- The objects of one group are those of all groups at its place. -/
theorem objects_groupwise {g : List Cell → Except Fault Cell} {p : List Cell → List Cell}
    {xs : List Cell} (h : (do return .objects (← ((split xs groups).map p).mapM g)) = Except.ok e) :
    (do return .objects (← ((split xs [rows]).map p).mapM g)) = Except.ok (e.pick [k]) := by
  obtain ⟨cells, hCells, h⟩ := bind_eq_ok h
  cases h
  have hGroup : [k].filterMap (((split xs groups).map p)[·]?) = (split xs [rows]).map p := by
    simp [split, hk]
  have hPicked := forall₂_picked (mapM_eq_ok_iff.1 hCells) [k]
  rw [hGroup] at hPicked
  rw [mapM_eq_ok_iff.2 hPicked]
  rfl

theorem sums_groupwise (h : d.sums groups = .ok e) : d.sums [rows] = .ok (e.pick [k]) := by
  cases d with
  | objects xs => exact objects_groupwise hk h
  | _ =>
    cases h
    simp [sums, pick, arrange, splitPresent, splitNumbers, split, hk]

theorem means_groupwise (h : d.means groups = .ok e) : d.means [rows] = .ok (e.pick [k]) := by
  cases d with
  | objects xs => exact objects_groupwise hk h
  | texts xs => cases h
  | _ =>
    cases h
    simp [means, pick, arrange, splitPresent, splitNumbers, split, hk]

theorem extremes_groupwise {greatest : Bool} (h : extremes greatest d groups = .ok e) :
    extremes greatest d [rows] = .ok (e.pick [k]) := by
  cases d with
  | objects xs =>
    have hMapped : (do
        return .objects (← ((split xs groups).map id).mapM (Aggregate.extremeObjects greatest))) =
          Except.ok e := by
      rw [map_id]
      exact h
    have hGroups := objects_groupwise hk hMapped
    exact hGroups
  | _ =>
    cases h
    simp [extremes, pick, arrange, splitPresent, splitNumbers, split, hk]

/-- An aggregate holds for each group the aggregate of the entries at its rows. -/
theorem aggregate_groupwise {f : Aggregate} (h : d.aggregate f groups = .ok e) :
    (d.pick rows).overall f = .ok (e.pick [k]) := by
  rw [overall_pick]
  cases f with
  | sum => exact sums_groupwise hk h
  | mean => exact means_groupwise hk h
  | count =>
    cases h
    cases d <;> simp [aggregate, counts, pick, arrange, split, hk]
  | countDistinct =>
    cases h
    simp [aggregate, distinctCounts, pick, arrange, split, hk]
  | max => exact extremes_groupwise hk h
  | min => exact extremes_groupwise hk h

end Groupwise

/-- The counts of entries none of which is missing are the numbers of rows of the groups. -/
theorem freeCells_counts {d : Data} (hPresent : d.missing.any id = false) {groups : List (List Nat)}
    (hRows : ∀ g ∈ groups, ∀ i ∈ g, i < d.length) :
    (d.counts groups).freeCells = groups.map fun g => .int (g.length : Nat) := by
  have hNumbers : (split d.missing groups).map (fun g => ((g.filter fun m => !m).length : Int)) =
      groups.map fun g => ((g.length : Nat) : Int) := by
    rw [split, map_map]
    refine map_congr_left fun g hg => ?_
    have hAll : (g.filterMap (d.missing[·]?)).filter (fun m => !m) =
        g.filterMap (d.missing[·]?) := by
      rw [filter_eq_self]
      intro m hm
      obtain ⟨i, -, hi⟩ := mem_filterMap.1 hm
      simpa using any_eq_false.1 hPresent m (mem_of_getElem? hi)
    rw [Function.comp_apply, hAll, length_filterMap_getElem? (by simpa using hRows g hg)]
  cases d <;> simp only [counts, hNumbers, freeCells, cells, map_map] <;> rfl

end Data

/-- The rows of the groups are those that miss no key. -/
theorem Grouping.Partitions.sum_length {height : Nat} {keys : List Data} {groups : List (List Nat)}
    (h : Partitions height keys groups) :
    (groups.map length).sum = ((range height).filter (hasKeys keys)).length := by
  rw [← length_flatten, h.perm.length_eq]

end TableQuery
