import TableQuery.Proofs.GroupKeys

/-! The columns of a grouped answer. They come in the order of the grouped table, keys first and the
aggregates behind them, and not in the order of the targets. -/
namespace TableQuery

open List Work TargetData Table

open Sql

variable {extensions : List (String × Extension)} {items : List TargetData} {u : Table}

namespace TargetData

variable (extensions : List (String × Extension)) (g : Grouping)

def Computed (a : TargetData) : Prop :=
  ∃ name f, a.1.AsksFor extensions name f ∧ g.aggregateColumn name f = .ok a.2

/-- The entries are what the target means: a key, by its text, or an aggregate of the column that is
named. -/
inductive Means (texts : List String) : TargetData → Prop where
  | key {target : Node} {j : Nat} {name : String} {d : Data} :
      texts[j]? = some target.bareText → g.keys[j]? = some (name, d) → Means texts (target, d)
  | aggregate {distinct : Bool} {op column : String} {parts : List String} {f : Aggregator}
      {d : Data}
      (argTag tag : Tag) :
      (Node.operation (.call distinct) op [.name parts argTag] tag).bareText ∉ texts →
        aggregatorOf extensions op distinct = .ok f → parts.getLast? = some column →
          g.aggregateColumn column f = .ok d →
            Means texts (.operation (.call distinct) op [.name parts argTag] tag, d)

end TargetData

inductive Sql.Node.CallsPlain : Node → String → Prop where
  | call {distinct : Bool} {op column : String} (argTag tag : Tag) :
      writePart column = column →
        CallsPlain (.operation (.call distinct) op [.name [column] argTag] tag) column

namespace TargetData.Means

variable {texts : List String} {g : Grouping} {a : TargetData}
  (h : a.Means extensions g texts)
include h

/-- A target that is written like a key means the key. -/
theorem mem_keys (hKeys : texts = g.keys.map (·.1)) (hText : a.1.bareText ∈ texts) :
    a.byText ∈ g.keys := by
  cases h with
  | @key target j name d hj hKey =>
    rw [hKeys, getElem?_map, hKey] at hj
    obtain rfl : name = target.bareText := by simpa using hj
    exact mem_of_getElem? hKey
  | aggregate argTag tag hOther _ _ _ => exact absurd hText hOther

/-- The aggregate of a column whose name is written as it is gets computed, by every grouping that
has the same one. -/
theorem computed (hText : a.1.bareText ∉ texts) {column : String} (hPlain : a.1.CallsPlain column)
    {g' : Grouping} (hSame : ∀ f, g'.aggregateColumn column f = g.aggregateColumn column f) :
    a.Computed extensions g' := by
  cases h with
  | key hj _ => exact absurd (mem_of_getElem? hj) hText
  | aggregate argTag tag _ hf hLast hData =>
    cases hPlain with
    | call _ _ hWritten =>
      cases hLast
      refine ⟨_, _, .call argTag tag hf, ?_⟩
      rwa [writeParts_singleton, hWritten, hSame]

/-- A target that is no key asks for an aggregate. -/
theorem asks (hText : a.1.bareText ∉ texts) : ∃ asked, Asks extensions a.1 asked := by
  cases h with
  | key hj _ => exact absurd (mem_of_getElem? hj) hText
  | aggregate argTag tag _ hf _ _ => exact ⟨(_, _, _), rfl, .call argTag tag hf⟩

end TargetData.Means

theorem exists_asked_of_computed {g : Grouping} (h : ∀ a ∈ items, a.Computed extensions g) :
    ∃ asked, Forall₂ (Asks extensions) (items.map (·.1)) asked ∧
      Forall₂ g.Computes asked (items.map byText) := by
  induction items with
  | nil => exact ⟨[], .nil, .nil⟩
  | cons a rest ih =>
    obtain ⟨hFirst, hRest⟩ := forall_mem_cons.1 h
    obtain ⟨name, f, hAsks, hData⟩ := hFirst
    obtain ⟨asked, hAsked, hComputes⟩ := ih hRest
    exact ⟨(a.1.bareText, name, f) :: asked, .cons ⟨rfl, hAsks⟩ hAsked,
      .cons ⟨rfl, hData⟩ hComputes⟩

structure Found (extensions : List (String × Extension)) (texts : List String) (g : Grouping)
    (items : List TargetData) : Prop where
  keys : ∀ a ∈ items, a.1.bareText ∈ texts → a.byText ∈ g.keys
  others : ∀ a ∈ items, a.1.bareText ∉ texts → a.1.bareText ∉ g.keys.map (·.1) ∧
    a.Computed extensions g
  nonempty : ∃ a ∈ items, a.1.bareText ∉ texts
  keysOnce : (g.keys.map (·.1)).Nodup

section Found

variable {texts : List String} {g : Grouping}
variable {a : TargetData}

/-- Where keys and columns are written as they are called, the targets are found. -/
theorem found_of_means (hMeans : ∀ a ∈ items, a.Means extensions g texts)
    (hSome : ∃ a ∈ items, a.1.bareText ∉ texts) (hKeys : texts = g.keys.map (·.1))
    (hOnce : texts.Nodup)
    (hPlain : ∀ a ∈ items, a.1.bareText ∉ texts → ∃ column, a.1.CallsPlain column) :
    Found extensions texts g items := by
  refine ⟨fun a ha => (hMeans a ha).mem_keys hKeys, fun a ha hText => ⟨hKeys ▸ hText, ?_⟩, hSome,
    hKeys ▸ hOnce⟩
  obtain ⟨column, hColumn⟩ := hPlain a ha hText
  exact (hMeans a ha).computed hText hColumn fun _ => rfl

def otherItems (texts : List String) (items : List TargetData) : List TargetData :=
  items.filter fun a => !texts.contains a.1.bareText

theorem mem_otherItems : a ∈ otherItems texts items ↔ a ∈ items ∧ a.1.bareText ∉ texts := by
  simp [otherItems]

theorem otherTargets_map :
    otherTargets texts (items.map (·.1)) = (otherItems texts items).map (·.1) :=
  filter_map

theorem nodup_otherTexts (h : (items.map (·.1.bareText)).Nodup) :
    ((otherTargets texts (items.map (·.1))).map Node.bareText).Nodup := by
  rw [otherTargets_map, map_map]
  exact h.sublist (filter_sublist.map _)

theorem Found.exists_asked (h : Found extensions texts g items)
    (hOnce : ((otherTargets texts (items.map (·.1))).map Node.bareText).Nodup) :
    ∃ asked, GroupResults extensions (items.map (·.1)) texts g asked
        ((otherItems texts items).map byText) := by
  have hOthers (a : TargetData) (ha : a ∈ otherItems texts items) :=
    h.others a (mem_otherItems.1 ha).1 (mem_otherItems.1 ha).2
  obtain ⟨asked, hAsks, hComputes⟩ := exists_asked_of_computed fun a ha => (hOthers a ha).2
  rw [← otherTargets_map] at hAsks
  refine ⟨asked, hAsks, hOnce, ?_, hComputes, h.keysOnce, fun r hr => ?_⟩
  · rintro rfl
    obtain ⟨a, ha⟩ := h.nonempty
    rw [forall₂_nil_right_iff, otherTargets_map, map_eq_nil_iff] at hAsks
    exact not_mem_nil (hAsks ▸ mem_otherItems.2 ha)
  · obtain ⟨a, ha, rfl⟩ := mem_map.1 hr
    exact (hOthers a ha).1

/-- The result of a target is an aggregate that it asks for. -/
theorem GroupResults.computed (hTexts : (items.map (·.1.bareText)).Nodup) {asked : Asked}
    {results : List (String × Data)}
    (h : GroupResults extensions (items.map (·.1)) texts g asked results) (ha : a ∈ items)
    (hResult : a.byText ∈ results) : a.1.bareText ∉ texts ∧ a.Computed extensions g := by
  obtain ⟨target, hTarget, hText, name, f, hAsks, hData⟩ := h.exists_target hResult
  obtain ⟨hMem, hOther⟩ := mem_filter.1 hTarget
  obtain ⟨a', ha', rfl⟩ := mem_map.1 hMem
  obtain rfl : a' = a := inj_on_of_nodup_map hTexts ha' ha hText
  exact ⟨by simpa using hOther, name, f, hAsks, hData⟩

variable (hNames : (items.map (·.1.outputName)).Nodup) {source : GroupSource} {keys : List Node}
  (hKeys : keyTexts keys = .ok texts) (hSource : source.grouped = .ok g)
include hNames hKeys hSource

/-- Targets that are found are answered, each under the name of a target of its text. -/
theorem Found.answered (h : Found extensions texts g items)
    (hOnce : ((otherTargets texts (items.map (·.1))).map Node.bareText).Nodup) :
    ∃ u, groupTargets extensions (items.map (·.1)) source keys = .ok u ∧
      ∀ a ∈ items, ∃ b ∈ items, b.1.bareText = a.1.bareText ∧
          (b.1.outputName, a.2) ∈ u.columns := by
  obtain ⟨asked, hResults⟩ := h.exists_asked hOnce
  refine ⟨_, groupTargets_of_groupResults hKeys hSource hResults, fun a ha => ?_⟩
  have hColumn : a.byText ∈ g.keys ++ (otherItems texts items).map byText := by
    by_cases hText : a.1.bareText ∈ texts
    · exact mem_append_left _ (h.keys a ha hText)
    · exact mem_append_right _ (mem_map_of_mem (mem_otherItems.2 ⟨ha, hText⟩))
  cases hName : answerName? (items.map (·.1)) a.1.bareText with
  | none => exact absurd rfl (bareText_ne_of_answerName? hName a.1 (mem_map_of_mem ha))
  | some shown =>
    obtain ⟨_, hTarget, hText, rfl⟩ := exists_of_answerName? hName
    obtain ⟨b, hb, rfl⟩ := mem_map.1 hTarget
    refine ⟨b, hb, hText, ?_⟩
    rw [groupAnswer, answerColumns_eq_filterMap (by rwa [map_map]) hResults.nodup]
    exact mem_filterMap.2 ⟨_, hColumn, by rw [answerColumn?, byText, hName]; rfl⟩

/-- Every target is answered under its name exactly if the targets are found and no two have the
same text. -/
theorem groupTargets_names_iff :
    (∃ u, groupTargets extensions (items.map (·.1)) source keys = .ok u ∧
      ∀ a ∈ items, a.byName ∈ u.columns) ↔
      (items.map (·.1.bareText)).Nodup ∧ Found extensions texts g items := by
  constructor
  · rintro ⟨u, hu, hColumns⟩
    obtain ⟨_, _, asked, results, hKeys', hSource', h, rfl⟩ := groupResults_of_groupTargets hu
    cases hKeys.symm.trans hKeys'
    cases hSource.symm.trans hSource'
    -- A name tells the target, so the column under it is the one of the target's text.
    have hShown (a : TargetData) (ha : a ∈ items) : a.byText ∈ g.keys ++ results ∧
        answerName? (items.map (·.1)) a.1.bareText = some a.1.outputName := by
      obtain ⟨column, hColumn, hName, hData⟩ := exists_column_of_mem _ (hColumns a ha)
      obtain ⟨_, hTarget, hText, hSame⟩ := exists_of_answerName? hName
      obtain ⟨b, hb, rfl⟩ := mem_map.1 hTarget
      obtain rfl : b = a := inj_on_of_nodup_map hNames hb ha hSame
      rw [hText]
      exact ⟨(Prod.ext hText hData : b.byText = column) ▸ hColumn, hName⟩
    have hTexts : (items.map (·.1.bareText)).Nodup := by
      refine Nodup.of_map (answerName? (items.map (·.1))) ?_
      have hSame : (items.map (·.1.bareText)).map (answerName? (items.map (·.1))) =
          (items.map (·.1.outputName)).map some := by
        rw [map_map, map_map]
        exact map_congr_left fun a ha => (hShown a ha).2
      exact hSame ▸ hNames.map (Option.some_injective _)
    have hResult (a : TargetData) (ha : a ∈ items) (hText : a.1.bareText ∉ texts) :
        a.1.bareText ∉ g.keys.map (·.1) := by
      have hTarget : a.1.bareText ∈ results.map (·.1) := by
        rw [h.names_eq, otherTargets_map, map_map]
        exact mem_map_of_mem (mem_otherItems.2 ⟨ha, hText⟩)
      obtain ⟨r, hr, hName⟩ := mem_map.1 hTarget
      exact hName ▸ h.others r hr
    refine ⟨hTexts, fun a ha hText => ?_, fun a ha hText => ⟨hResult a ha hText, ?_⟩, ?_,
      h.keysOnce⟩
    · exact (mem_append.1 (hShown a ha).1).resolve_right fun hr => (h.computed hTexts ha hr).1 hText
    · have hr := (mem_append.1 (hShown a ha).1).resolve_left fun hKey =>
        hResult a ha hText (mem_map_of_mem hKey)
      exact (h.computed hTexts ha hr).2
    · obtain ⟨_, hAsked⟩ := exists_mem_of_ne_nil _ h.nonempty
      obtain ⟨_, hTarget, -⟩ := exists_mem_left h.asks hAsked
      rw [otherTargets_map] at hTarget
      obtain ⟨a, ha, -⟩ := mem_map.1 hTarget
      exact ⟨a, mem_otherItems.1 ha⟩
  · rintro ⟨hTexts, h⟩
    obtain ⟨u, hu, hColumns⟩ := h.answered hNames hKeys hSource (nodup_otherTexts hTexts)
    refine ⟨u, hu, fun a ha => ?_⟩
    obtain ⟨b, hb, hText, hColumn⟩ := hColumns a ha
    obtain rfl : b = a := inj_on_of_nodup_map hTexts hb ha hText
    exact hColumn

end Found

/-- Targets with their entries: keys in the order of the grouping, and behind them aggregates. -/
structure Placed (extensions : List (String × Extension)) (texts : List String) (g : Grouping)
    (front back : List TargetData) : Prop where
  keys : (front.map TargetData.byText).Sublist g.keys
  named : ∀ a ∈ front, a.1.bareText ∈ texts
  nonempty : back ≠ []
  others : ∀ a ∈ back, a.1.bareText ∉ texts ∧ a.1.bareText ∉ g.keys.map (·.1)
  computed : ∀ a ∈ back, a.Computed extensions g
  keysOnce : (g.keys.map (·.1)).Nodup

section Placed

variable {texts : List String} {g : Grouping}
variable {front back : List TargetData}

theorem Placed.found (h : Placed extensions texts g front back) :
    Found extensions texts g (front ++ back) := by
  refine ⟨fun a ha hText => ?_, fun a ha hText => ?_, ?_, h.keysOnce⟩
  · have hFront := (mem_append.1 ha).resolve_right fun hBack => (h.others a hBack).1 hText
    exact h.keys.subset (mem_map_of_mem hFront)
  · have hBack := (mem_append.1 ha).resolve_left fun hFront => hText (h.named a hFront)
    exact ⟨(h.others a hBack).2, h.computed a hBack⟩
  · obtain ⟨a, ha⟩ := exists_mem_of_ne_nil _ h.nonempty
    exact ⟨a, mem_append_right _ ha, (h.others a ha).1⟩

/-- Targets that are found are in place where the keys come first, in the order of the grouping. -/
theorem Found.placed (h : Found extensions texts g (front ++ back))
    (hKeys : (front.map byText).Sublist g.keys) (hBack : ∀ a ∈ back, a.1.bareText ∉ texts) :
    Placed extensions texts g front back := by
  have hNamed (a : TargetData) (ha : a ∈ front) : a.1.bareText ∈ texts := by
    by_contra hText
    exact (h.others a (mem_append_left _ ha) hText).1
      (mem_map_of_mem (hKeys.subset (mem_map_of_mem ha)))
  have hOthers (a : TargetData) (ha : a ∈ back) := h.others a (mem_append_right _ ha) (hBack a ha)
  refine ⟨hKeys, hNamed, ?_, fun a ha => ⟨hBack a ha, (hOthers a ha).1⟩,
    fun a ha => (hOthers a ha).2, h.keysOnce⟩
  rintro rfl
  obtain ⟨a, ha, hText⟩ := h.nonempty
  rw [append_nil] at ha
  exact hText (hNamed a ha)

theorem Placed.otherItems_eq (h : Placed extensions texts g front back) :
    otherItems texts (front ++ back) = back := by
  rw [otherItems, filter_append, filter_eq_nil_iff.2, filter_eq_self.2, nil_append]
  · intro a ha
    simpa using (h.others a ha).1
  · intro a ha
    simpa using h.named a ha

/-- Where all is written as it is called, targets are in place exactly if the keys come first, in
their order. -/
theorem exists_placed_iff (hMeans : ∀ a ∈ items, a.Means extensions g texts)
    (hSome : ∃ a ∈ items, a.1.bareText ∉ texts) (hKeys : texts = g.keys.map (·.1))
    (hOnce : texts.Nodup)
    (hPlain : ∀ a ∈ items, a.1.bareText ∉ texts → ∃ column, a.1.CallsPlain column) :
    (∃ front back, items = front ++ back ∧ Placed extensions texts g front back) ↔
      ∃ front back, items = front ++ back ∧ (front.map (·.1.bareText)).Sublist texts ∧
        ∀ a ∈ back, a.1.bareText ∉ texts := by
  constructor
  · rintro ⟨front, back, hItems, h⟩
    refine ⟨front, back, hItems, ?_, fun a ha => (h.others a ha).1⟩
    have hSub := h.keys.map (·.1)
    rwa [map_map, ← hKeys] at hSub
  · rintro ⟨front, back, rfl, hFront, hBack⟩
    have hFound := found_of_means hMeans hSome hKeys hOnce hPlain
    have hMem (a : TargetData) (ha : a ∈ front) : a.byText ∈ g.keys :=
      hFound.keys a (mem_append_left back ha) (hFront.subset (mem_map_of_mem ha))
    refine ⟨front, back, rfl, hFound.placed ?_ hBack⟩
    rw [hKeys] at hFront
    obtain ⟨keys, hTaken, hTexts⟩ := sublist_map_iff.1 hFront
    have hAll : keys.filterMap (fun k => some k.1) = front.map (·.1.bareText) := by
      rw [hTexts, filterMap_eq_map']
    refine (sublist_of_filterMap_eq hAll fun k hk a ha hText => ?_).trans hTaken
    exact inj_on_of_nodup_map hFound.keysOnce (hTaken.subset hk) (hMem a ha) (Option.some.inj hText)

/-- The columns are those of the targets in order exactly if these are keys in order and then
aggregates. -/
theorem groupTargets_columns_iff (hTexts : (items.map (·.1.bareText)).Nodup)
    (hNames : (items.map (·.1.outputName)).Nodup) {source : GroupSource} {keys : List Node}
    (hKeys : keyTexts keys = .ok texts) (hSource : source.grouped = .ok g) :
    (∃ u, groupTargets extensions (items.map (·.1)) source keys = .ok u ∧
      u.columns = items.map byName) ↔
      ∃ front back, items = front ++ back ∧ Placed extensions texts g front back := by
  constructor
  · rintro ⟨u, hu, hColumns⟩
    have hFound := ((groupTargets_names_iff hNames hKeys hSource).1
      ⟨u, hu, fun a ha => hColumns ▸ mem_map_of_mem ha⟩).2
    obtain ⟨_, _, asked, results, hKeys', hSource', h, rfl⟩ := groupResults_of_groupTargets hu
    cases hKeys.symm.trans hKeys'
    cases hSource.symm.trans hSource'
    have hSub := (answerColumns_eq_map_iff hTexts hNames h.nodup).1 hColumns
    obtain ⟨_, _, hSplit, hFront, hBack⟩ := sublist_append_iff.1 hSub
    obtain ⟨front, back, rfl, rfl, rfl⟩ := map_eq_append_iff.1 hSplit
    exact ⟨front, back, rfl, hFound.placed hFront fun a ha =>
      (h.computed hTexts (mem_append_right front ha) (hBack.subset (mem_map_of_mem ha))).1⟩
  · rintro ⟨front, back, rfl, h⟩
    obtain ⟨asked, hResults⟩ := h.found.exists_asked (nodup_otherTexts hTexts)
    rw [h.otherItems_eq] at hResults
    refine ⟨_, groupTargets_of_groupResults hKeys hSource hResults, ?_⟩
    refine (answerColumns_eq_map_iff hTexts hNames hResults.nodup).2 ?_
    rw [map_append]
    exact h.keys.append_right _

end Placed

theorem found_of_groupTargets {targets keys : List Node}
    {source : GroupSource} (h : groupTargets extensions targets source keys = .ok u) :
    ∀ c ∈ u.columns, ∃ target ∈ targets, target.outputName = c.1 := by
  obtain ⟨_, _, _, _, _, _, _, rfl⟩ := groupResults_of_groupTargets h
  exact exists_outputName

/-- Names without their quotes stand for the names of the targets, if they are different. -/
theorem columns_bareNames_iff (hNames : (items.map (bareName ·.1.outputName)).Nodup)
    (hFound : ∀ c ∈ u.columns, ∃ target ∈ items.map (·.1), target.outputName = c.1) :
    u.bareNames.columns = items.map (fun a => (bareName a.1.outputName, a.2)) ↔
      u.columns = items.map byName := by
  constructor
  · intro h
    have hAll : u.columns.filterMap (fun c => some (bareName c.1, c.2)) =
        items.map fun a => (bareName a.1.outputName, a.2) := by
      rw [← h, filterMap_eq_map']
      rfl
    have hSub : (items.map byName).Sublist u.columns := by
      refine sublist_of_filterMap_eq hAll fun c hc a ha hSame => ?_
      obtain ⟨hName, hData⟩ := Prod.mk.inj (Option.some.inj hSame)
      obtain ⟨_, hTarget, hOutput⟩ := hFound c hc
      obtain ⟨b, hb, rfl⟩ := mem_map.1 hTarget
      obtain rfl : b = a := inj_on_of_nodup_map hNames hb ha (by rw [hOutput, hName])
      exact Prod.ext hOutput.symm hData
    have hLength := congrArg length h
    exact (hSub.eq_of_length (by simpa [bareNames] using hLength.symm)).symm
  · intro h
    rw [bareNames, h, map_map]
    rfl

namespace Table

variable {t : Table}

def PickedFrom (t u : Table) : Prop := ∃ ps, (∀ p ∈ ps, p < t.height) ∧ u = t.pickRows ps

theorem Rectangular.pickedFrom_self (ht : t.Rectangular) : t.PickedFrom t :=
  ⟨range t.height, fun _ hp => mem_range.1 hp, ht.pickRows_range.symm⟩

theorem PickedFrom.trans {s : Table} (hs : s.Rectangular) (h : s.PickedFrom t)
    (h' : t.PickedFrom u) : s.PickedFrom u := by
  obtain ⟨ps, hRange, rfl⟩ := h
  obtain ⟨qs, -, rfl⟩ := h'
  refine ⟨qs.filterMap (ps[·]?), fun p hp => ?_, hs.pickRows_pickRows hRange qs⟩
  obtain ⟨i, -, hi⟩ := mem_filterMap.1 hp
  exact hRange p (mem_of_getElem? hi)

theorem Rectangular.of_pickedFrom (ht : t.Rectangular) (h : t.PickedFrom u) : u.Rectangular := by
  obtain ⟨ps, -, rfl⟩ := h
  exact ht.pickRows ps

namespace Rectangular

variable (ht : t.Rectangular)
include ht

theorem pickedFrom_distinct (h : t.distinct = .ok u) : t.PickedFrom u := by
  unfold Table.distinct at h
  split at h
  · cases h
    exact ht.pickedFrom_self
  · split at h
    · cases h
      exact ⟨t.newRows, fun _ hp => lt_of_mem_newRows hp, rfl⟩
    · cases h

theorem pickedFrom_afterBound (bound : Option Int) : t.PickedFrom (t.afterBound bound) := by
  cases bound with
  | none => exact ht.pickedFrom_self
  | some n => exact ⟨_, fun _ hp => mem_range.1 (mem_of_mem_drop hp), rfl⟩

theorem pickedFrom_beforeBound (bound : Option Int) : t.PickedFrom (t.beforeBound bound) := by
  cases bound with
  | none => exact ht.pickedFrom_self
  | some n => exact ⟨_, fun _ hp => mem_range.1 (mem_of_mem_take hp), rfl⟩

theorem pickedFrom_ordered {orderBy : Option (List Node)} (h : Query.ordered orderBy t = .ok u) :
    t.PickedFrom u := by
  unfold Query.ordered at h
  split at h
  · split at h
    · cases h
      exact ht.pickedFrom_self
    · obtain ⟨fields, _, h⟩ := bind_eq_ok h
      obtain ⟨keys, _, h⟩ := bind_eq_ok h
      cases h
      exact ⟨_, fun _ hp => mem_range.1 (mem_mergeSort.1 hp), rfl⟩
  · cases h
    exact ht.pickedFrom_self

end Rectangular

theorem groupByColumns_eq (t : Table) (cs : List (String × Data)) {groups : List (List Nat)}
    (h : Grouping.ofKeyedRows (Grouping.keyedRows t.height (cs.map (·.2))) = groups) :
    t.groupByColumns cs = ⟨t, cs.map fun c => (c.1, c.2.keyEntries groups), groups⟩ := by
  rw [← h]
  rfl

theorem bareNames_pickRows (t : Table) (ps : List Nat) :
    (t.pickRows ps).bareNames = t.bareNames.pickRows ps := by
  simp only [bareNames, pickRows, map_map]
  rfl

end Table

namespace Query

variable {q : Select} {keys : List Node} {i : Nat} {v v' : Workspace}

/-- DISTINCT, OFFSET, ORDER BY and LIMIT pick rows. -/
theorem pickedFrom_of_finishRows {t : Table} (ht : t.Rectangular) {w w' : Workspace}
    (h : run (finishRows q t) w = (.ok u, w')) : t.bareNames.PickedFrom u := by
  obtain ⟨t₁, w₁, hDistinct, h⟩ := run_bind_eq_ok h
  obtain ⟨first, w₂, _, h⟩ := run_bind_eq_ok h
  obtain ⟨t₂, w₃, hOrdered, h⟩ := run_bind_eq_ok h
  obtain ⟨last, w₄, _, h⟩ := run_bind_eq_ok h
  rw [run_lift] at hDistinct hOrdered
  cases h
  have hOnce : t.PickedFrom t₁ := by
    have hDistinct := congrArg Prod.fst hDistinct
    split at hDistinct
    · exact ht.pickedFrom_distinct hDistinct
    · cases hDistinct
      exact ht.pickedFrom_self
  have ht₁ := ht.of_pickedFrom hOnce
  have hLater := ht₁.pickedFrom_afterBound first
  have hSorted := (ht₁.of_pickedFrom hLater).pickedFrom_ordered (congrArg Prod.fst hOrdered)
  have hAll := (hOnce.trans ht hLater).trans ht hSorted
  obtain ⟨ps, hRange, hPicked⟩ :=
    hAll.trans ht ((ht.of_pickedFrom hAll).pickedFrom_beforeBound last)
  refine ⟨ps, hRange, ?_⟩
  rw [hPicked, bareNames_pickRows]

section Answer

variable {key : Node} {rest : List Node} (hKeys : q.groupBy = some (key :: rest)) {w : Workspace}
  {rows : Relation}
  (hRows : Work.run (do evalWhere (← evalFrom q.source) q.condition) w = (.ok rows, v))
  {g : Grouping} (hGroups : Work.run (evalGroups rows q.groupBy) v = (.ok (some (.grouping g)), v'))
include hKeys hRows hGroups

theorem rectangular_of_evalGroupRows {t : Table} {v₁ : Workspace}
    (h : run (evalGroupRows q) w = (.ok t, v₁)) : t.Rectangular := by
  have hTable :
      run (groupedTable rows q.targets (key :: rest) (some (.grouping g))) v' = (.ok t, v₁) :=
    (run_lift _ v').trans ((run_evalGroupRows hKeys hRows hGroups).symm.trans h)
  exact rectangular_of_groupedTable (whole_of_evalGroups hGroups) hTable

/-- Without HAVING the other clauses pick rows of the groups. -/
theorem pickedFrom_core (hHaving : q.having = none) (hAnswer : (run (evalSelect q) w).1 = .ok u) :
    ∃ all, (run (evalSelect q.core) w).1 = .ok all ∧ all.PickedFrom u := by
  obtain ⟨w', hAnswer⟩ : ∃ w', run (evalSelect q) w = (.ok u, w') := ⟨_, Prod.ext hAnswer rfl⟩
  rw [evalSelect_grouped hKeys, hHaving] at hAnswer
  obtain ⟨t, v₁, hRun, hAnswer⟩ := run_bind_eq_ok hAnswer
  have hTable := congrArg Prod.fst ((run_evalGroupRows hKeys hRows hGroups).symm.trans hRun)
  dsimp only at hTable
  refine ⟨t.bareNames, ?_,
    pickedFrom_of_finishRows (rectangular_of_evalGroupRows hKeys hRows hGroups hRun) hAnswer⟩
  rw [run_evalSelect_core_groups hKeys hRows hGroups, hTable]
  rfl

/-- The columns of a grouped answer are those of its targets, in their order, exactly if the targets
are in place: first keys in the order of the grouping, then aggregates. The other clauses leave the
columns. -/
theorem grouped_columns_in_order_iff {items : List TargetData}
    (hTargets : q.targets = items.map (·.1)) {texts : List String}
    (hKeyTexts : keyTexts (key :: rest) = .ok texts) (hTexts : (items.map (·.1.bareText)).Nodup)
    (hNames : (items.map (bareName ·.1.outputName)).Nodup)
    (hMeans : ∀ a ∈ items, a.Means v'.catalog.extensions g texts)
    (hSome : ∃ a ∈ items, a.1.bareText ∉ texts) :
    let inOrder := ∃ u, (run (evalSelect q.core) w).1 = .ok u ∧
      u.columns = items.map fun a => (bareName a.1.outputName, a.2)
    (inOrder ↔ ∃ front back, items = front ++ back ∧
      Placed v'.catalog.extensions texts g front back) ∧
    (texts = g.keys.map (·.1) → texts.Nodup →
      (∀ a ∈ items, a.1.bareText ∉ texts → ∃ column, a.1.CallsPlain column) →
      (inOrder ↔ ∃ front back, items = front ++ back ∧ (front.map (·.1.bareText)).Sublist texts ∧
        ∀ a ∈ back, a.1.bareText ∉ texts)) ∧
    ∀ u, q.having = none → (run (evalSelect q) w).1 = .ok u →
      ∃ all, (run (evalSelect q.core) w).1 = .ok all ∧ all.PickedFrom u := by
  intro inOrder
  have hOutput : (items.map (·.1.outputName)).Nodup := by
    refine List.Nodup.of_map bareName ?_
    rwa [map_map]
  have hPlaced : inOrder ↔
      ∃ front back, items = front ++ back ∧ Placed v'.catalog.extensions texts g front back := by
    have hGrouped : (GroupSource.grouping g).grouped = .ok g := rfl
    rw [← groupTargets_columns_iff hTexts hOutput hKeyTexts hGrouped, ← hTargets]
    unfold inOrder
    rw [run_evalSelect_core_groups hKeys hRows hGroups]
    constructor
    · rintro ⟨_, hRun, hColumns⟩
      obtain ⟨u, hu, hBare⟩ := bind_eq_ok hRun
      cases hBare
      exact ⟨u, hu, (columns_bareNames_iff hNames (hTargets ▸ found_of_groupTargets hu)).1 hColumns⟩
    · rintro ⟨u, hu, hColumns⟩
      rw [hu]
      exact ⟨_, rfl,
        (columns_bareNames_iff hNames (hTargets ▸ found_of_groupTargets hu)).2 hColumns⟩
  exact ⟨hPlaced,
    fun hCalled hOnce hPlain => hPlaced.trans (exists_placed_iff hMeans hSome hCalled hOnce hPlain),
    fun _ => pickedFrom_core hKeys hRows hGroups⟩

end Answer

def pairRows : Table :=
  ⟨Column.freshLabels 3, [("k", .ints .int64 [2, 1, 2]), ("v", .ints .int64 [10, 20, 30])]⟩

def pairGrouping : Grouping := ⟨pairRows, [("k", .ints .int64 [1, 2])], [[1], [0, 2]]⟩

/-- Some targets `FROM t GROUP BY k`. -/
def byPairs (targets : List Node) : Select :=
  { targets, source := some (.name ["t"] {}), groupBy := some [.name ["k"] {}] }

def pairWorkspace : Workspace :=
  (Work.run (evalFrom (byPairs []).source) (.ofTables [("t", pairRows)])).2

theorem run_pairRows (targets : List Node) :
    run (do evalWhere (← evalFrom (byPairs targets).source) (byPairs targets).condition)
      (.ofTables [("t", pairRows)]) = (.ok (.frame 0), pairWorkspace) := Prod.ext rfl rfl

theorem run_evalGroups_pairs (targets : List Node) :
    run (evalGroups (.frame 0) (byPairs targets).groupBy) pairWorkspace =
      (.ok (some (.grouping pairGrouping)), pairWorkspace) := by
  have hGroups : Grouping.ofKeyedRows (Grouping.keyedRows 3 [.ints .int64 [2, 1, 2]]) =
      [[1], [0, 2]] := by
    cbv
  have hGroupBy : pairRows.groupBy ["k"] = .ok pairGrouping :=
    congrArg Except.ok (groupByColumns_eq pairRows [("k", .ints .int64 [2, 1, 2])] hGroups)
  have hKeys : run (evalKeys (.frame 0) [.name ["k"] {}]) pairWorkspace =
      (.ok ["k"], pairWorkspace) := rfl
  exact run_evalGroups_of_keys rfl hKeys hGroupBy

/-- A key and an aggregate over the rows, under names that may be given to them. -/
theorem means_pairs {key count : Option Alias} :
    ∀ a ∈
        ([(.name ["k"] { alias? := key }, .ints .int64 [1, 2]),
          (.operation (.call false) "count" [.name ["v"] {}] { alias? := count },
            .ints .int64 [1, 2])] : List TargetData),
      a.Means [] pairGrouping ["k"] ∧
      (a.1.bareText ∉ ["k"] → ∃ column, a.1.CallsPlain column) := by
  intro a ha
  rcases mem_pair.1 ha with rfl | rfl
  · exact ⟨.key (j := 0) rfl rfl, fun hOther => absurd (mem_singleton_self _) hOther⟩
  · have hCount : "count(v)" ∉ ["k"] := by decide
    exact ⟨.aggregate {} _ hCount rfl rfl rfl, fun _ => ⟨"v", .call {} _ rfl⟩⟩

def keyThenCount : List TargetData :=
  [(.name ["k"] {}, .ints .int64 [1, 2]), (countOf "v", .ints .int64 [1, 2])]

/-- The columns of `SELECT k, count(v)` are in order, and those of `SELECT count(v), k` are not. -/
theorem grouped_columns_in_order_pairs :
    (∀ a ∈ keyThenCount, a.Means [] pairGrouping ["k"]) ∧
    (∃ u,
      (Work.run (evalSelect (byPairs (keyThenCount.map (·.1)))) (.ofTables [("t", pairRows)])).1 =
        .ok u ∧
      u.columns = [("k", .ints .int64 [1, 2]), ("count(v)", .ints .int64 [1, 2])]) ∧
    ¬∃ u,
    (Work.run (evalSelect (byPairs (keyThenCount.reverse.map (·.1))))
      (.ofTables [("t", pairRows)])).1 = .ok u ∧
    u.columns = [("count(v)", .ints .int64 [1, 2]), ("k", .ints .int64 [1, 2])] := by
  have hMeans : ∀ a ∈ keyThenCount, a.Means [] pairGrouping ["k"] :=
    fun a ha => (means_pairs a ha).1
  have hPlain : ∀ a ∈ keyThenCount, a.1.bareText ∉ ["k"] → ∃ column, a.1.CallsPlain column :=
    fun a ha => (means_pairs a ha).2
  have hCount : (countOf "v").bareText ∉ ["k"] := by decide
  have hKeyTexts : keyTexts [.name ["k"] {}] = .ok ["k"] := rfl
  have hTargets (items : List TargetData) : (byPairs (items.map (·.1))).targets = items.map (·.1) :=
    rfl
  obtain ⟨-, hForward, -⟩ := grouped_columns_in_order_iff rfl (run_pairRows _)
    (run_evalGroups_pairs _) (hTargets keyThenCount) hKeyTexts (by decide) (by decide) hMeans
    ⟨_, mem_cons_of_mem _ (mem_singleton_self _), hCount⟩
  obtain ⟨-, hBackward, -⟩ := grouped_columns_in_order_iff rfl (run_pairRows _)
    (run_evalGroups_pairs _) (hTargets keyThenCount.reverse) hKeyTexts (by decide) (by decide)
    (fun a ha => hMeans a (mem_reverse.1 ha)) ⟨_, mem_cons_self, hCount⟩
  refine ⟨hMeans, ?_, ?_⟩
  · exact (hForward rfl (nodup_singleton _) hPlain).2
      ⟨[(.name ["k"] {}, .ints .int64 [1, 2])], [(countOf "v", .ints .int64 [1, 2])], rfl,
        List.Sublist.refl _, forall_mem_singleton.2 hCount⟩
  · intro hAnswer
    obtain ⟨front, back, hItems, hFront, hBack⟩ :=
      (hBackward rfl (nodup_singleton _) fun a ha => hPlain a (mem_reverse.1 ha)).1
        hAnswer
    cases front with
    | nil =>
      obtain rfl : keyThenCount.reverse = back := hItems
      exact hBack _ (mem_cons_of_mem _ (mem_singleton_self _)) (mem_singleton_self _)
    | cons a rest =>
      obtain rfl : (countOf "v", _) = a := (cons.inj hItems).1
      exact hCount (hFront.subset mem_cons_self)

/-- `SELECT count(v), k FROM t GROUP BY k` answers with `k` first. -/
theorem key_precedes_count :
    (Work.run (evalSelect (byPairs [countOf "v", .name ["k"] {}]))
      (.ofTables [("t", pairRows)])).1 =
      .ok ⟨Column.freshLabels 2,
        [("k", .ints .int64 [1, 2]), ("count(v)", .ints .int64 [1, 2])]⟩ := by
  refine (run_evalSelect_core_groups (q := byPairs [countOf "v", .name ["k"] {}]) rfl
    (run_pairRows _) (run_evalGroups_pairs _)).trans ?_
  rfl

end Query

end TableQuery
