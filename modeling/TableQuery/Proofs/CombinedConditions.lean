import TableQuery.Proofs.Connectives
import TableQuery.Proofs.RowLabels

/-! The rows of two conditions and of their combinations. AND and OR choose the rows of both and of
either exactly if every entry of the two is a truth value. -/
namespace TableQuery

open List Data Connective Cell

namespace Data

variable {d : Data} {height i : Nat}

structure Settles (d : Data) (height : Nat) : Prop where
  length : d.length = height
  decided : none ∉ d.verdicts

theorem Settles.exists_truth (h : d.Settles height) (hi : i < height) :
    ∃ x, d.verdicts[i]? = some (some x) := by
  have hBound : i < d.verdicts.length := by
    rw [length_verdicts, h.length]
    exact hi
  cases hx : d.verdicts[i] with
  | none => exact absurd (hx ▸ getElem_mem hBound) h.decided
  | some x => exact ⟨x, (getElem?_eq_getElem hBound).trans (congrArg some hx)⟩

theorem settles_of_empty (h : d.length = 0) (hHeight : height = 0) : d.Settles height := by
  refine ⟨h.trans hHeight.symm, ?_⟩
  rw [eq_nil_of_length_eq_zero (d.length_verdicts.trans h)]
  exact not_mem_nil

/-- Data chooses rows by its truth values, or columns by its entries. -/
theorem choice_eq_ok {chosen : Choice} (h : d.choice = .ok chosen) :
    d.IsMask ∧ chosen = .rows (d.verdicts.map (·.getD false)) ∨ chosen = .names d.cells := by
  cases d with
  | bools bs =>
    refine .inl ⟨.inr ⟨bs, ofPlainTruths_bools bs⟩,
      (Except.ok.inj h).symm.trans (congrArg Choice.rows ?_)⟩
    rw [verdicts_bools, map_map]
    exact (map_id bs).symm
  | nullableBools bs =>
    rw [verdicts_nullableBools]
    exact .inl ⟨.inl rfl, (Except.ok.inj h).symm⟩
  | objects xs =>
    unfold choice at h
    dsimp only at h
    split_ifs at h with hEmpty hTruths hMissing
    · obtain rfl := isEmpty_iff.1 hEmpty
      exact .inr (Except.ok.inj h).symm
    · have hVerdicts : (objects xs).verdicts = (xs.map asBool).map some := by
        rw [map_map]
        refine map_congr_left fun x hx => (?_ : x.truth? = some x.asBool)
        have hTruth := all_eq_true.1 hTruths x hx
        unfold truth? asBool
        split at hTruth
        · rename_i b hNum
          rw [hNum]
          rfl
        · cases hTruth
      refine .inl ⟨.inr ⟨_, .inr rfl, hVerdicts⟩,
        (Except.ok.inj h).symm.trans (congrArg Choice.rows ?_)⟩
      rw [hVerdicts, map_map]
      exact (map_id _).symm
    · exact .inr (Except.ok.inj h).symm
  | _ => exact .inr (Except.ok.inj h).symm

theorem positionsWhere_verdicts (d : Data) :
    Table.positionsWhere (d.verdicts.map (·.getD false)) = d.positionsOf (some true) := by
  rw [positionsWhere_eq, length_map, length_verdicts]
  refine filter_congr fun i _ => ?_
  rw [getElem?_map]
  rcases d.verdicts[i]? with _ | _ | _ <;> simp

/-- A text is no truth value. -/
theorem OfTexts.length_eq_zero (h : d.OfTexts) (hDecided : none ∉ d.verdicts) : d.length = 0 := by
  rw [← length_cells, length_eq_zero_iff, eq_nil_iff_forall_not_mem]
  intro x hx
  obtain ⟨s, rfl⟩ := h x hx
  exact hDecided (mem_map.2 ⟨_, hx, rfl⟩)

/-- The positions at which a connective of truth values holds, where missing ones are taken for
true. -/
theorem positionsOf_zipWith (k : Connective) {us vs : List (Option Bool)} (hu : us.length = height)
    (hv : vs.length = height) : (bools (zipWith k.presumes us vs)).positionsOf (some true) =
      (range height).filter fun i => k.presumes us[i]?.join vs[i]?.join := by
  have hLength : (bools (zipWith k.presumes us vs)).length = height := by
    change (zipWith k.presumes us vs).length = height
    rw [length_zipWith, hu, hv, Nat.min_self]
  rw [positionsOf, hLength, verdicts_bools]
  refine filter_congr fun i hi => ?_
  rw [mem_range] at hi
  rw [getElem?_map, getElem?_zipWith, getElem?_eq_getElem (hu ▸ hi), getElem?_eq_getElem (hv ▸ hi)]
  simp

theorem mem_positionsOf_true_iff :
    i ∈ d.positionsOf (some true) ↔ d.verdicts[i]?.join = some true := by
  rw [mem_positionsOf_iff]
  rcases d.verdicts[i]? with _ | _ | _ <;> simp

end Data

namespace Table

/-- The rows that data leaves: those where it holds, and all of them where it names columns. -/
def rowsChosen (t : Table) (d : Data) : List Nat :=
  match d.choice with
  | .ok (.rows _) => d.positionsOf (some true)
  | _ => List.range t.height

variable {t u : Table} {d : Data}

theorem labels_chooseColumns {names : List Cell} (h : t.chooseColumns names = .ok u) :
    u.labels = t.labels ∧ ∀ x ∈ names, ∃ s, x = .text s := by
  obtain ⟨texts, hTexts, hChosen⟩ := bind_eq_ok h
  constructor
  · cases hNames : t.selectNames? texts with
    | none =>
      rw [hNames] at hChosen
      cases hChosen
    | some chosen =>
      rw [hNames] at hChosen
      obtain rfl := Except.ok.inj hChosen
      unfold selectNames? at hNames
      split at hNames
      · obtain rfl := Option.some.inj hNames
        rfl
      · cases hNames
  · intro x hx
    obtain ⟨s, -, hText⟩ := exists_mem_right (mapM_eq_ok_iff.1 hTexts) hx
    cases x with
    | text s => exact ⟨s, rfl⟩
    | _ => cases hText

/-- What data that chooses anything chooses. -/
theorem choose_eq_ok (h : t.choose d = .ok u) :
    d.IsMask ∧ d.length = t.height ∧ t.rowsChosen d = d.positionsOf (some true) ∧
    u = t.pickRows (d.positionsOf (some true)) ∨
    d.OfTexts ∧ t.rowsChosen d = range t.height ∧ u.labels = t.labels := by
  obtain ⟨chosen, hChoice, hChosen⟩ := bind_eq_ok h
  unfold rowsChosen
  rw [hChoice]
  rcases choice_eq_ok hChoice with ⟨hMask, rfl⟩ | rfl
  · dsimp only at hChosen
    split at hChosen
    · rename_i hLength
      refine .inl ⟨hMask, by simpa using hLength, rfl, ?_⟩
      rw [← positionsWhere_verdicts]
      exact (Except.ok.inj hChosen).symm
    · cases hChosen
  · obtain ⟨hLabels, hTexts⟩ := labels_chooseColumns hChosen
    exact .inr ⟨hTexts, rfl, hLabels⟩

theorem labels_of_choose (h : t.choose d = .ok u) :
    u.labels = (t.pickRows (t.rowsChosen d)).labels := by
  rcases choose_eq_ok h with ⟨-, -, hRows, rfl⟩ | ⟨-, hRows, hLabels⟩
  · rw [hRows]
  · rw [hRows, hLabels]
    exact (filterMap_getElem?_range t.labels).symm

def combinedRows (t : Table) (k : Connective) (d e : Data) : List Nat :=
  (List.range t.height).filter fun i => k.holds (i ∈ t.rowsChosen d) (i ∈ t.rowsChosen e)

variable {e : Data} {v : Table}

theorem combinedRows_both : t.combinedRows .both d e =
    (range t.height).filter fun i => i ∈ t.rowsChosen d ∧ i ∈ t.rowsChosen e := by
  simp [combinedRows, holds]

theorem combinedRows_either : t.combinedRows .either d e =
    (range t.height).filter fun i => i ∈ t.rowsChosen d ∨ i ∈ t.rowsChosen e := by
  simp [combinedRows, holds]

theorem rowsChosen_of_settles (h : t.choose d = .ok u) (hd : d.Settles t.height) :
    t.rowsChosen d = d.positionsOf (some true) := by
  rcases choose_eq_ok h with ⟨-, -, hRows, -⟩ | ⟨hTexts, hRows, -⟩
  · exact hRows
  · have hEmpty := hTexts.length_eq_zero hd.decided
    rw [hRows, ← hd.length, positionsOf, hEmpty]
    rfl

/-- Where every entry is a truth value a connective gives its truth values. -/
theorem truthsOf_of_settles (k : Connective) (hu : t.choose d = .ok u) (hv : t.choose e = .ok v)
    (hd : d.Settles t.height) (he : e.Settles t.height) :
    truthsOf k d e = .ok (zipWith k.presumes d.verdicts e.verdicts) := by
  have hLength : d.length = e.length := hd.length.trans he.length.symm
  have hEmpty (h : d.length = 0) :
      truthsOf k d e = .ok (zipWith k.presumes d.verdicts e.verdicts) := by
    have hNone : d.verdicts = [] := eq_nil_of_length_eq_zero (d.length_verdicts.trans h)
    rw [truthsOf_empty k h (hLength ▸ h), hNone]
    rfl
  rcases choose_eq_ok hu with ⟨hMask, -⟩ | ⟨hTexts, -⟩
  · rcases choose_eq_ok hv with ⟨hMask', -⟩ | ⟨hTexts, -⟩
    · rcases combines_truthsOf k hMask hMask' hLength with hOk | ⟨hNone, -⟩
      · exact hOk
      · exact (hNone.elim hd.decided he.decided).elim
    · exact hEmpty (hLength.trans (hTexts.length_eq_zero he.decided))
  · exact hEmpty (hTexts.length_eq_zero hd.decided)

/-- Both connectives choose what they should where every entry is a truth value. -/
theorem choose_of_settles (k : Connective) (hu : t.choose d = .ok u) (hv : t.choose e = .ok v)
    (hd : d.Settles t.height) (he : e.Settles t.height) :
    ∃ mask, truthsOf k d e = .ok mask ∧
      t.choose (.bools mask) = .ok (t.pickRows (t.combinedRows k d e)) := by
  have hdl := d.length_verdicts.trans hd.length
  have hel := e.length_verdicts.trans he.length
  refine ⟨_, truthsOf_of_settles k hu hv hd he, ?_⟩
  have hLength : (bools (zipWith k.presumes d.verdicts e.verdicts)).length = t.height := by
    change (zipWith k.presumes d.verdicts e.verdicts).length = t.height
    rw [length_zipWith, hdl, hel, Nat.min_self]
  rw [OfTruths.choose_eq (.inl rfl) hLength, positionsOf_zipWith k hdl hel, combinedRows,
    rowsChosen_of_settles hu hd, rowsChosen_of_settles hv he]
  refine congrArg (fun ps => Except.ok (t.pickRows ps)) (filter_congr fun i hi => ?_)
  obtain ⟨x, hx⟩ := hd.exists_truth (mem_range.1 hi)
  obtain ⟨y, hy⟩ := he.exists_truth (mem_range.1 hi)
  simp only [mem_positionsOf_true_iff, hx, hy, Option.join_some, k.presumes_some, Option.some.injEq,
    Bool.decide_eq_true]

/-- A table's rows at two lists of positions, one in the other, are the same only if the positions
are. -/
theorem positions_eq_of_pickRows {ps qs : List Nat} (hSub : qs.Sublist ps)
    (hRange : ∀ p ∈ ps, p < t.height) (h : t.pickRows ps = t.pickRows qs) : qs = ps := by
  apply hSub.eq_of_length
  rw [← height_pickRows (t := t) hRange,
    ← height_pickRows (t := t) fun q hq => hRange q (hSub.subset hq), h]

/-- A conjunction that leaves the rows of both met no missing truth value. -/
theorem decided_of_choose (hdl : d.length = t.height) (hel : e.length = t.height)
    (hps : t.rowsChosen d = d.positionsOf (some true))
    (hqs : t.rowsChosen e = e.positionsOf (some true))
    (h : t.choose (.bools (zipWith both.presumes d.verdicts e.verdicts)) =
      .ok (t.pickRows (t.combinedRows .both d e))) : none ∉ d.verdicts ∧ none ∉ e.verdicts := by
  rw [← length_verdicts] at hdl hel
  have hLength : (bools (zipWith both.presumes d.verdicts e.verdicts)).length = t.height := by
    change (zipWith both.presumes d.verdicts e.verdicts).length = t.height
    rw [length_zipWith, hdl, hel, Nat.min_self]
  rw [OfTruths.choose_eq (.inl rfl) hLength, positionsOf_zipWith .both hdl hel] at h
  have hBoth (i : Nat) : both.holds (i ∈ t.rowsChosen d) (i ∈ t.rowsChosen e) = true ↔
      d.verdicts[i]?.join = some true ∧ e.verdicts[i]?.join = some true := by
    simp [holds, hps, hqs, mem_positionsOf_true_iff]
  have hSub : (t.combinedRows .both d e).Sublist
      ((range t.height).filter fun i => both.presumes d.verdicts[i]?.join e.verdicts[i]?.join) := by
    refine monotone_filter_right _ fun i hi => ?_
    obtain ⟨hx, hy⟩ := (hBoth i).1 hi
    rw [hx, hy]
    rfl
  have hRows :=
    positions_eq_of_pickRows hSub (fun p hp => mem_range.1 (mem_filter.1 hp).1) (Except.ok.inj h)
  -- a row with a missing truth value is kept by the conjunction, but is none of the rows of both
  have hKept {i : Nat} (hi : i < t.height)
      (hTrue : both.presumes d.verdicts[i]?.join e.verdicts[i]?.join = true) :
      d.verdicts[i]?.join = some true ∧ e.verdicts[i]?.join = some true := by
    have hMem : i ∈ t.combinedRows .both d e := by
      rw [hRows, mem_filter, mem_range]
      exact ⟨hi, hTrue⟩
    exact (hBoth i).1 (mem_filter.1 hMem).2
  constructor
  · intro hMem
    obtain ⟨i, hi, hNone⟩ := getElem_of_mem hMem
    have hJoin : d.verdicts[i]?.join = none := by
      rw [getElem?_eq_getElem hi, hNone, Option.join_some]
    have hTrue := (hKept (hdl ▸ hi) (by rw [hJoin]; rfl)).1
    rw [hJoin] at hTrue
    cases hTrue
  · intro hMem
    obtain ⟨i, hi, hNone⟩ := getElem_of_mem hMem
    have hJoin : e.verdicts[i]?.join = none := by
      rw [getElem?_eq_getElem hi, hNone, Option.join_some]
    have hTrue := (hKept (hel ▸ hi) (by rw [hJoin, presumes_comm]; rfl)).2
    rw [hJoin] at hTrue
    cases hTrue

theorem length_of_choose_bools {mask : List Bool} (h : t.choose (.bools mask) = .ok u) :
    mask.length = t.height := by
  obtain ⟨chosen, hChoice, hChosen⟩ := bind_eq_ok h
  cases hChoice
  dsimp only at hChosen
  split at hChosen
  · exact beq_iff_eq.1 ‹_›
  · cases hChosen

/-- Conjunction and disjunction choose the rows of both and of either exactly if every entry is a
truth value. -/
theorem combined_iff (hu : t.choose d = .ok u) (hv : t.choose e = .ok v) :
    (∀ k, ∃ mask, truthsOf k d e = .ok mask ∧
        t.choose (.bools mask) = .ok (t.pickRows (t.combinedRows k d e))) ↔
      d.Settles t.height ∧ e.Settles t.height := by
  constructor
  · intro h
    obtain ⟨both, hBoth, hRows⟩ := h .both
    obtain ⟨either, hEither, -⟩ := h .either
    have hLength : d.length = e.length := by
      obtain ⟨r, hr, -⟩ := bind_eq_ok hBoth
      exact length_eq_of_arith hr
    have hNoRows (hEmpty : d.length = 0) : d.Settles t.height ∧ e.Settles t.height := by
      have hEmpty' : e.length = 0 := hLength ▸ hEmpty
      obtain rfl : both = [] :=
        Except.ok.inj (hBoth.symm.trans (truthsOf_empty .both hEmpty hEmpty'))
      have hHeight : t.height = 0 := (length_of_choose_bools hRows).symm
      exact ⟨settles_of_empty hEmpty hHeight, settles_of_empty hEmpty' hHeight⟩
    rcases choose_eq_ok hu with ⟨hMask, hHeight, hps, -⟩ | ⟨hTexts, -⟩
    · rcases choose_eq_ok hv with ⟨hMask', hHeight', hqs, -⟩ | ⟨hTexts, -⟩
      · rcases combines_truthsOf .both hMask hMask' hLength with hOk | ⟨-, f, hError⟩
        · obtain rfl := Except.ok.inj (hBoth.symm.trans hOk)
          obtain ⟨hd, he⟩ := decided_of_choose hHeight hHeight' hps hqs hRows
          exact ⟨⟨hHeight, hd⟩, ⟨hHeight', he⟩⟩
        · cases hBoth.symm.trans hError
      · by_cases hEmpty : e.length = 0
        · exact hNoRows (hLength.trans hEmpty)
        · exact absurd hEither (sum_of_mask_and_texts hMask hTexts hEmpty either)
    · by_cases hEmpty : d.length = 0
      · exact hNoRows hEmpty
      · rcases choose_eq_ok hv with ⟨hMask, -⟩ | ⟨hTexts', -⟩
        · exact absurd hEither (sum_of_texts_and_mask hTexts hMask hEmpty either)
        · exact absurd hBoth (product_of_texts hTexts hTexts' hEmpty both)
  · rintro ⟨hd, he⟩ k
    exact choose_of_settles k hu hv hd he

end Table

namespace Operator

variable {c d : Column}

theorem combine_columns (k : Connective) (hLabels : sameAll c.labels d.labels = true)
    (o o' : Option Origin) : combine k.arith (.column c o) (.column d o') =
      (truthsOf k c.data d.data).map fun mask =>
        .column ⟨c.labels, sharedName c.name d.name, .bools mask⟩ none := by
  have hAlign : c.align d = (c.labels, c.data, d.data) := if_pos hLabels
  unfold combine Value.arith Column.arith Column.map truthsOf
  dsimp only
  rw [hAlign]
  cases arith k.arith (.data c.data) (.data d.data) with
  | error f => rfl
  | ok r =>
    dsimp only [bind, Except.bind, pure, Except.pure, Value.ofColumn]
    cases r.toBools with
    | error f => rfl
    | ok mask => rfl

/-- A connective on two columns with the same labels. -/
theorem apply_connective (k : Connective) (hLabels : sameAll c.labels d.labels = true)
    (o o' : Option Origin) : k.operator.apply [.column c o, .column d o'] =
      (truthsOf k c.data d.data).map fun mask =>
        .column ⟨c.labels, sharedName c.name d.name, .bools mask⟩ none := by
  have hApply : k.operator.apply [.column c o, .column d o'] =
      combine k.arith (.column c o) (.column d o') >>= fun v => do
        Checks.assertOutput ⟨k.operator.name, k.operator.checks⟩ v
        return v := by
    cases k <;> rfl
  rw [hApply, combine_columns k hLabels]
  cases truthsOf k c.data d.data with
  | error f => rfl
  | ok mask => cases k <;> rfl

end Operator

namespace Query

open Sql Work

def ConditionIs (w : Workspace) (id : Nat) (p : Node) (c : Column) : Prop :=
  ∃ origin, Work.run (evalCondition (.frame id) p) w = (.ok (.column c origin), w)

section Conditions

variable {w : Workspace} {id : Nat} {p q : Node} {u v : Table} {c d : Column}

/-- A condition that leaves a table is a column that chooses it. -/
theorem exists_column_of_whereLeaves (hp : p.IsBare) (h : WhereLeaves w id p u) :
    ∃ c, ConditionIs w id p c ∧ (w.tableAt id).choose c.data = .ok u := by
  have hWhere := h
  obtain ⟨kept, w', hWhere, -⟩ := hWhere
  obtain ⟨value, v, hValue, hFilter⟩ := run_bind_eq_ok hWhere
  obtain rfl : v = w := by
    cases p with
    | operation =>
      exact congrArg Prod.snd (hValue.symm.trans (run_bareExpr id hp w))
    | _ => cases hValue
  cases value with
  | column c origin => exact ⟨c, ⟨origin, hValue⟩, (whereLeaves_iff hValue u).1 h⟩
  | scalar x => cases hFilter
  | table t => cases hFilter

theorem ConditionIs.run_evalExpr (h : ConditionIs w id p c) :
    ∃ origin, run (evalExpr (.frame id) p) w = (.ok (.column c origin), w) := by
  obtain ⟨origin, hRun⟩ := h
  cases p with
  | operation => exact ⟨origin, by rwa [evalCondition_operation] at hRun⟩
  | _ => cases hRun

/-- What a connective of two conditions leaves. -/
theorem whereLeaves_connective_iff (hw : w.KeepsOperators) (k : Connective)
    (hc : ConditionIs w id p c) (hd : ConditionIs w id q d)
    (hLabels : sameAll c.labels d.labels = true) {form : OpForm} {op : String} {tag : Tag}
    (hOp : Operator.ofName (Text.lower op) = .ok k.operator) (u : Table) :
    WhereLeaves w id (.operation form op [p, q] tag) u ↔
      ∃ mask, truthsOf k c.data d.data = .ok mask ∧
        (w.tableAt id).choose (.bools mask) = .ok u := by
  obtain ⟨o, hcRun⟩ := hc.run_evalExpr
  obtain ⟨o', hdRun⟩ := hd.run_evalExpr
  have hRun : run (evalCondition (.frame id) (.operation form op [p, q] tag)) w =
      ((truthsOf k c.data d.data).map fun mask =>
        .column ⟨c.labels, sharedName c.name d.name, .bools mask⟩ none, w) := by
    rw [evalCondition_operation, run_operation_two hcRun hdRun, run_call_operator hw hOp,
      Operator.apply_connective k hLabels]
  cases hTruths : truthsOf k c.data d.data with
  | error f =>
    rw [hTruths] at hRun
    constructor
    · rintro ⟨kept, w', hWhere, -⟩
      obtain ⟨value, v, hValue, -⟩ := run_bind_eq_ok hWhere
      cases hRun.symm.trans hValue
    · rintro ⟨mask, hMask, -⟩
      cases hMask
  | ok mask =>
    rw [hTruths] at hRun
    rw [whereLeaves_iff hRun]
    simp

end Conditions

/-- AND leaves the rows of both conditions and OR the rows of either, exactly if every entry of the
two columns is a truth value. -/
theorem connectives_combine_rows_iff {w : Workspace} (hw : w.KeepsOperators) {id : Nat} {p q : Node}
    (hp : p.IsBare) (hq : q.IsBare) {u v : Table} (hu : WhereLeaves w id p u)
    (hv : WhereLeaves w id q v) (form : OpForm) (conj disj : String) (tag : Tag)
    (hAnd : Operator.ofName (Text.lower conj) = .ok .and)
    (hOr : Operator.ofName (Text.lower disj) = .ok .or) :
    ∃ c d, ConditionIs w id p c ∧ ConditionIs w id q d ∧
      let t := w.tableAt id
      let ps := t.rowsChosen c.data
      let qs := t.rowsChosen d.data
      u.labels = (t.pickRows ps).labels ∧ v.labels = (t.pickRows qs).labels ∧
      (sameAll t.labels t.labels = true → p.IsRowwise → q.IsRowwise →
        c.labels = t.labels ∧ d.labels = t.labels) ∧
      (sameAll c.labels d.labels = true →
        (WhereLeaves w id (.operation form conj [p, q] tag)
              (t.pickRows ((range t.height).filter fun i => i ∈ ps ∧ i ∈ qs)) ∧
            WhereLeaves w id (.operation form disj [p, q] tag)
              (t.pickRows ((range t.height).filter fun i => i ∈ ps ∨ i ∈ qs)) ↔
          c.data.Settles t.height ∧ d.data.Settles t.height)) := by
  obtain ⟨c, hc, hcChosen⟩ := exists_column_of_whereLeaves hp hu
  obtain ⟨d, hd, hdChosen⟩ := exists_column_of_whereLeaves hq hv
  refine ⟨c, d, hc, hd, Table.labels_of_choose hcChosen, Table.labels_of_choose hdChosen, ?_, ?_⟩
  · intro hSelf hp hq
    obtain ⟨o, hcRun⟩ := hc.run_evalExpr
    obtain ⟨o', hdRun⟩ := hd.run_evalExpr
    exact ⟨onLabels_of_isRowwise hw hSelf hp hcRun, onLabels_of_isRowwise hw hSelf hq hdRun⟩
  · intro hLabels
    rw [whereLeaves_connective_iff hw .both hc hd hLabels hAnd,
      whereLeaves_connective_iff hw .either hc hd hLabels hOr,
      ← Table.combined_iff hcChosen hdChosen, ← Table.combinedRows_both,
      ← Table.combinedRows_either]
    constructor
    · rintro ⟨hBoth, hEither⟩ k
      cases k
      · exact hBoth
      · exact hEither
    · intro hAll
      exact ⟨hAll .both, hAll .either⟩

namespace Gapped

def pairs : Table :=
  ⟨Column.freshLabels 3, [("a", .ints .int64 [1, 2, 3]),
    ("b", .nullableInts .int64 [some 1, none, some 3])]⟩

def handed : Workspace :=
  { Workspace.ofTables [("t", pairs)] with frames := #[{ table := pairs }] }

def exceeds (name : String) (n : Int) : Node :=
  .operation .binary ">" [.name [name] {}, .constant (.int n) {}] {}

def isThere (name : String) : Node :=
  .operation .binary "IS NOT" [.name [name] {}, .null {}] {}

/-- The answer of `SELECT a FROM t` with a condition. -/
def selectedWhere (condition : Node) : Except Fault Table :=
  (Work.run (evalSelect (tableSelect ["t"] {} [.name ["a"] {}] (some condition) false))
    (Workspace.ofTables [("t", pairs)])).1

end Gapped

open Gapped in
/-- `a > 1` and `b IS NOT NULL` have a truth value in each row. -/
theorem connectives_combine_rows_gapped :
    WhereLeaves handed 0 (exceeds "a" 1) (pairs.pickRows [1, 2]) ∧
    WhereLeaves handed 0 (isThere "b") (pairs.pickRows [0, 2]) ∧
    WhereLeaves handed 0 (.operation .binary "AND" [exceeds "a" 1, isThere "b"] {})
      (pairs.pickRows [2]) ∧
    WhereLeaves handed 0 (.operation .binary "OR" [exceeds "a" 1, isThere "b"] {})
      (pairs.pickRows [0, 1, 2]) := by
  have hu : WhereLeaves handed 0 (exceeds "a" 1) (pairs.pickRows [1, 2]) := ⟨_, _, rfl, rfl⟩
  have hv : WhereLeaves handed 0 (isThere "b") (pairs.pickRows [0, 2]) := ⟨_, _, rfl, rfl⟩
  have hp : (exceeds "a" 1).IsRowwise :=
    .binary (o := .compare .gt) rfl rfl (.column "a" {}) (.constant rfl {})
  have hq : (isThere "b").IsRowwise := .binary (o := .isNot) rfl rfl (.column "b" {}) (.null {})
  obtain ⟨c, d, ⟨o, hc⟩, ⟨o', hd⟩, -, -, hLabels, hRows⟩ :=
    connectives_combine_rows_iff (fun _ _ _ => rfl) (isBare_of_isMadeBy hp) (isBare_of_isMadeBy hq)
      hu hv .binary "AND" "OR" {} rfl rfl
  obtain ⟨hcLabels, hdLabels⟩ := hLabels rfl hp hq
  have hBoth := hRows (by rw [hcLabels, hdLabels]; rfl)
  cases hc
  cases hd
  obtain ⟨hAnd, hOr⟩ := hBoth.2 ⟨⟨rfl, by decide⟩, ⟨rfl, by decide⟩⟩
  exact ⟨hu, hv, hAnd, hOr⟩

open Gapped in
/-- `a > 0` and `b > 0` answer alone and fail with AND or OR between them, since `b > 0` is missing
in the second row. Next to objects a missing truth value is taken for true. -/
theorem missing_truth_stops_connectives :
    (∃ answer, selectedWhere (exceeds "a" 0) = .ok answer ∧
      answer.rows = [[.int 1], [.int 2], [.int 3]]) ∧
    (∃ answer, selectedWhere (exceeds "b" 0) = .ok answer ∧ answer.rows = [[.int 1], [.int 3]]) ∧
    selectedWhere (.operation .binary "AND" [exceeds "a" 0, exceeds "b" 0] {}) = .error .badValue ∧
    selectedWhere (.operation .binary "OR" [exceeds "a" 0, exceeds "b" 0] {}) = .error .badValue ∧
    ∃ answer,
      selectedWhere (.operation .binary "AND"
        [.operation .binary "AND" [.constant (.bool true) {}, .cast "object" (exceeds "a" 0) {}] {},
          exceeds "b" 0] {}) = .ok answer ∧
      answer.rows = [[.int 1], [.int 2], [.int 3]] :=
  ⟨⟨_, rfl, rfl⟩, ⟨_, rfl, rfl⟩, rfl, rfl, _, rfl, rfl⟩

end Query

end TableQuery
