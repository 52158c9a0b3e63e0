import TableQuery.Proofs.GroupConditions

/-! The targets of a grouped select. Those that are no keys ask for aggregates, which stand behind
the keys under the names of the targets. -/
namespace TableQuery

open List

open Sql

variable {α β γ : Type}

/-- A target that is a call of a function on a column: the written name of the column and the
function. -/
inductive Sql.Node.AsksFor (extensions : List (String × Extension)) :
    Node → String → Aggregator → Prop where
  | call {distinct : Bool} {op : String} {parts : List String} {f : Aggregator} (argTag tag : Tag) :
      aggregatorOf extensions op distinct = .ok f →
        AsksFor extensions (.operation (.call distinct) op [.name parts argTag] tag)
          (writeParts parts) f

theorem map_eq_map_of_forall₂ {R : α → β → Prop} {xs : List α} {ys : List β} (h : Forall₂ R xs ys)
    {f : α → γ} {g : β → γ} (hR : ∀ x y, R x y → f x = g y) : xs.map f = ys.map g := by
  induction h with
  | nil => rfl
  | cons hFirst _ ih => rw [map_cons, map_cons, hR _ _ hFirst, ih]

section Asked

variable (extensions : List (String × Extension)) (keys : List String)
variable {targets : List Node}

def Asks (target : Node) (asked : String × String × Aggregator) : Prop :=
  asked.1 = target.bareText ∧ target.AsksFor extensions asked.2.1 asked.2.2

def askedTarget (target : Node) : Except Fault (String × String × Aggregator) :=
  match target with
  | .operation (.call distinct) op args _ =>
    match args with
    | [] => .error .outOfBounds
    | [.name parts _] =>
      do return (target.bareText, writeParts parts, ← aggregatorOf extensions op distinct)
    | [arg] => .error (.query (.aggregateArgument arg.text))
    | _ => .error (.query (.aggregateArity target.text))
  | _ => .error (.query (.notGrouped target.bareText))

theorem askedTarget_eq_ok_iff {target : Node} {a : String × String × Aggregator} :
    askedTarget extensions target = .ok a ↔ Asks extensions target a := by
  constructor
  · intro h
    unfold askedTarget at h
    split at h
    · split at h
      · cases h
      · obtain ⟨f, hf, h⟩ := bind_eq_ok h
        cases h
        exact ⟨rfl, .call _ _ hf⟩
      · cases h
      · cases h
    · cases h
  · obtain ⟨text, column, f⟩ := a
    rintro ⟨hText, hAsks⟩
    dsimp only at hText hAsks
    cases hAsks with
    | call argTag tag hf =>
      rw [askedTarget, hf, hText]
      rfl

/-- One target after the others: its text is new, and it is a key or asks for an aggregate. -/
theorem askedOf_cons (asked : Asked) (target : Node) (rest : List Node) :
    askedOf extensions keys asked (target :: rest) =
      if asked.any fun a => a.1 == target.bareText
        then .error (.query (.duplicateColumn target.bareText))
        else if keys.contains target.bareText then askedOf extensions keys asked rest
          else askedTarget extensions target >>=
            fun a => askedOf extensions keys (asked ++ [a]) rest := by
  cases hNew : asked.any fun a => a.1 == target.bareText with
  | true =>
    rw [askedOf.eq_def]
    dsimp only
    rw [hNew]
    rfl
  | false =>
    rw [askedOf.eq_def]
    dsimp only
    rw [hNew]
    cases hKey : keys.contains target.bareText with
    | true =>
      simp only [Bool.false_eq_true, if_false, if_true]
      split <;> rfl
    | false =>
      simp only [Bool.false_eq_true, if_false]
      cases target with
      | operation form op args tag =>
        cases form with
        | call distinct =>
          rcases args with _ | ⟨arg, _ | ⟨_, _⟩⟩
          · rfl
          · cases arg <;> first | rfl | simp only [askedTarget, bind_assoc, pure_bind]
          · cases arg <;> rfl
        | _ => rfl
      | _ => rfl

def otherTargets (targets : List Node) : List Node :=
  targets.filter fun target => !keys.contains target.bareText

/-- The targets that are no keys ask for aggregates, one by one and each under a text of its own. -/
theorem asks_of_askedOf {asked all : Asked} (hOnce : (asked.map (·.1)).Nodup)
    (h : askedOf extensions keys asked targets = .ok all) : ∃ asked', Forall₂ (Asks extensions)
    (otherTargets keys targets) asked' ∧ all = asked ++ asked' ∧
    (asked.map (·.1) ++ (otherTargets keys targets).map Node.bareText).Nodup := by
  induction targets generalizing asked with
  | nil =>
    cases h
    exact ⟨[], .nil, (append_nil _).symm, by rwa [otherTargets, filter_nil, map_nil, append_nil]⟩
  | cons target rest ih =>
    rw [askedOf_cons] at h
    unfold otherTargets
    split at h
    · cases h
    rename_i hNew
    split at h
    · rename_i hKey
      rw [filter_cons_of_neg (by simpa using hKey)]
      exact ih hOnce h
    · rename_i hKey
      rw [filter_cons_of_pos (by simpa using hKey)]
      obtain ⟨a, ha, h⟩ := bind_eq_ok h
      replace ha := (askedTarget_eq_ok_iff extensions).1 ha
      have hMore : ((asked ++ [a]).map (·.1)).Nodup := by
        rw [map_append, map_singleton, nodup_append_comm, singleton_append, nodup_cons, ha.1]
        exact ⟨by simpa using hNew, hOnce⟩
      obtain ⟨asked', hRest, rfl, hTexts⟩ := ih hMore h
      refine ⟨a :: asked', .cons ha hRest, by simp, ?_⟩
      rw [map_append, map_singleton, append_assoc, ha.1] at hTexts
      exact hTexts

theorem askedOf_eq_ok {asked asked' : Asked} (hNew : ∀ a ∈ asked, a.1 ∉ keys)
    (hTexts : (asked.map (·.1) ++ (otherTargets keys targets).map Node.bareText).Nodup)
    (h : Forall₂ (Asks extensions) (otherTargets keys targets) asked') :
    askedOf extensions keys asked targets = .ok (asked ++ asked') := by
  induction targets generalizing asked asked' with
  | nil =>
    cases h
    rw [append_nil]
    rfl
  | cons target rest ih =>
    rw [askedOf_cons]
    unfold otherTargets at h hTexts
    by_cases hKey : target.bareText ∈ keys
    · rw [filter_cons_of_neg (by simpa using hKey)] at h hTexts
      rw [if_neg, if_pos (contains_iff_mem.2 hKey)]
      · exact ih hNew hTexts h
      · rw [any_eq_true]
        rintro ⟨a, ha, hSame⟩
        exact hNew a ha (beq_iff_eq.1 hSame ▸ hKey)
    · rw [filter_cons_of_pos (by simpa using hKey)] at h hTexts
      obtain ⟨a, rest', ha, hRest, rfl⟩ := forall₂_cons_left_iff.1 h
      rw [if_neg, if_neg (by simpa using hKey), (askedTarget_eq_ok_iff extensions).2 ha]
      · have hDone : ((asked ++ [a]).map (·.1) ++
            (otherTargets keys rest).map Node.bareText).Nodup := by
          rw [map_append, append_assoc, map_singleton, ha.1]
          exact hTexts
        refine (ih (forall_mem_append.2 ⟨hNew, forall_mem_singleton.2 (ha.1 ▸ hKey)⟩) hDone
          hRest).trans ?_
        rw [append_assoc]
        rfl
      · rw [any_eq_true]
        rintro ⟨a, ha, hSame⟩
        exact (nodup_append.1 hTexts).2.2 _ (mem_map_of_mem ha) _ mem_cons_self (beq_iff_eq.1 hSame)

/-- Targets of which each asks for something are rejected for a text that comes again, and for
nothing else. -/
theorem askedOf_error (hAsks : ∀ target ∈ otherTargets keys targets, ∃ a, Asks extensions target a)
    {asked : Asked} {e : Fault} (h : askedOf extensions keys asked targets = .error e) :
    ∃ text, e = .query (.duplicateColumn text) := by
  induction targets generalizing asked with
  | nil => cases h
  | cons target rest ih =>
    rw [askedOf_cons] at h
    have hRest :=
      @ih fun target hTarget => hAsks target (((sublist_cons_self _ _).filter _).subset hTarget)
    split at h
    · cases h
      exact ⟨_, rfl⟩
    split at h
    · exact hRest h
    · rename_i hKey
      obtain ⟨a, ha⟩ := hAsks target (mem_filter.2 ⟨mem_cons_self, by simpa using hKey⟩)
      rw [(askedTarget_eq_ok_iff extensions).2 ha] at h
      exact hRest h

end Asked

namespace Grouping

variable {g : Grouping} {asked : Asked}
variable {name : String} {results : List (String × Data)}

def aggregateData (g : Grouping) (name : String) (d : Data) : Aggregator → Except Fault Data
  | .known f => d.aggregate f g.groups
  | .custom f => g.runCustom name d f

/-- An aggregate is computed of the one column of its name. -/
theorem aggregateColumn_eq_ok_iff {f : Aggregator} {e : Data} :
    g.aggregateColumn name f = .ok e ↔
      ∃ d, g.table.named name = [d] ∧ g.aggregateData name d f = .ok e := by
  unfold aggregateColumn
  rcases g.table.named name with _ | ⟨d, _ | ⟨_, _⟩⟩
  · exact iff_of_false (fun h => by cases h) fun ⟨_, h, _⟩ => by cases h
  · refine ⟨fun h => ⟨d, rfl, ?_⟩, ?_⟩
    · cases f <;> exact h
    · rintro ⟨_, hd, h⟩
      cases hd
      cases f <;> exact h
  · exact iff_of_false (fun h => by cases h) fun ⟨_, h, _⟩ => by cases h

/-- An aggregate depends on the columns of its name, the labels of the rows and the groups. -/
theorem aggregateColumn_congr {g' : Grouping} (hNamed : g.table.named name = g'.table.named name)
    (hLabels : g.table.labels = g'.table.labels) (hGroups : g.groups = g'.groups) (f : Aggregator) :
    g.aggregateColumn name f = g'.aggregateColumn name f := by
  simp only [aggregateColumn, runCustom, hNamed, hLabels, hGroups]

def Computes (g : Grouping) (asked : String × String × Aggregator) (result : String × Data) :
    Prop :=
  result.1 = asked.1 ∧ g.aggregateColumn asked.2.1 asked.2.2 = .ok result.2

theorem Computes.has {a : String × String × Aggregator} {r : String × Data} (h : g.Computes a r) :
    g.table.has a.2.1 = true := by
  obtain ⟨d, hd, -⟩ := aggregateColumn_eq_ok_iff.1 h.2
  rw [Table.has_eq_true_iff, hd]
  exact cons_ne_nil d []

theorem mapM_aggregates_iff :
    (asked.mapM fun a =>
      (do return (a.1, ← g.aggregateColumn a.2.1 a.2.2) : Except Fault (String × Data))) =
      .ok results ↔ Forall₂ g.Computes asked results := by
  rw [mapM_eq_ok_iff]
  refine Eq.to_iff (congrArg (Forall₂ · _ _) (funext fun a => funext fun r => propext ?_))
  constructor
  · intro h
    obtain ⟨d, hd, h⟩ := bind_eq_ok h
    cases h
    exact ⟨rfl, hd⟩
  · obtain ⟨name, d⟩ := r
    rintro ⟨rfl, hd⟩
    rw [hd]
    rfl

/-- The names of the keys are used once, among the keys and among the aggregates. -/
theorem usedOnce_iff {keys : List (String × Data)} :
    (keys.any fun k => (((keys ++ results).map (·.1)).filter (· == k.1)).length > 1) = false ↔
      (keys.map (·.1)).Nodup ∧ ∀ r ∈ results, r.1 ∉ keys.map (·.1) := by
  have hCount (k : String × Data) : (((keys ++ results).map (·.1)).filter (· == k.1)).length =
      (keys.map (·.1)).count k.1 + (results.map (·.1)).count k.1 := by
    rw [← countP_eq_length_filter, ← count_eq_countP, map_append, count_append]
  rw [any_eq_false]
  simp only [hCount, decide_eq_true_eq, gt_iff_lt, not_lt]
  constructor
  · intro h
    refine ⟨nodup_iff_count_le_one.2 fun name => ?_, fun r hr hName => ?_⟩
    · by_cases hName : name ∈ keys.map (·.1)
      · obtain ⟨k, hk, rfl⟩ := mem_map.1 hName
        exact (Nat.le_add_right _ _).trans (h k hk)
      · rw [count_eq_zero_of_not_mem hName]
        exact Nat.zero_le 1
    · obtain ⟨k, hk, hSame⟩ := mem_map.1 hName
      have hFirst : 0 < (keys.map (·.1)).count k.1 := count_pos_iff.2 (mem_map_of_mem hk)
      have hSecond : 0 < (results.map (·.1)).count k.1 :=
        count_pos_iff.2 (hSame ▸ mem_map_of_mem hr)
      have hOnce := h k hk
      omega
  · rintro ⟨hNodup, hOthers⟩ k hk
    have hFirst := nodup_iff_count_le_one.1 hNodup k.1
    have hSecond : (results.map (·.1)).count k.1 = 0 := by
      refine count_eq_zero_of_not_mem fun hName => ?_
      obtain ⟨r, hr, hSame⟩ := mem_map.1 hName
      exact hOthers r hr (hSame ▸ mem_map_of_mem hk)
    omega

/-- The aggregates are there if something is asked for, all of it has a column, and the names are
used once. -/
theorem aggregates_eq_ok_iff {all : Table} :
    g.aggregates asked = .ok all ↔
      asked ≠ [] ∧
      ∃ results, Forall₂ g.Computes asked results ∧ (g.keys.map (·.1)).Nodup ∧
        (∀ r ∈ results, r.1 ∉ g.keys.map (·.1)) ∧
        all = ⟨Column.freshLabels g.groups.length, g.keys ++ results⟩ := by
  unfold aggregates
  dsimp only
  constructor
  · intro h
    split at h
    · cases h
    rename_i hAsked
    split at h
    · cases h
    obtain ⟨results, hResults, h⟩ := bind_eq_ok h
    split at h
    · cases h
    rename_i hOnce
    cases h
    obtain ⟨hNodup, hOthers⟩ := usedOnce_iff.1 (Bool.not_eq_true _ ▸ hOnce)
    exact ⟨fun hNone => hAsked (hNone ▸ rfl), results, mapM_aggregates_iff.1 hResults, hNodup,
      hOthers, rfl⟩
  · rintro ⟨hAsked, results, hResults, hNodup, hOthers, rfl⟩
    have hHas : (asked.all fun a => g.table.has a.2.1) = true := by
      rw [all_eq_true]
      intro a ha
      obtain ⟨r, -, hComputes⟩ := exists_mem_right hResults ha
      exact hComputes.has
    rw [if_neg (by simpa using hAsked), hHas]
    refine (congrArg (· >>= _) (mapM_aggregates_iff.2 hResults)).trans ((if_neg ?_).trans rfl)
    rw [usedOnce_iff.2 ⟨hNodup, hOthers⟩]
    exact Bool.false_ne_true

end Grouping

section AnswerColumns

variable {targets : List Node}
variable {columns : List (String × Data)}

theorem setNamed_append {xs : List (String × α)} {name : String} (h : name ∉ xs.map (·.1))
    (ys : List (String × α)) (a : α) : setNamed (xs ++ ys) name a = xs ++ setNamed ys name a := by
  induction xs with
  | nil => rfl
  | cons x rest ih =>
    rw [map_cons, mem_cons, not_or] at h
    rw [cons_append, setNamed, if_neg (by simpa using Ne.symm h.1), ih h.2, cons_append]

/-- The column that a target of its own text names gets the name of the target. -/
theorem answerName?_of_mem (hTexts : (targets.map Node.bareText).Nodup) {target : Node}
    (h : target ∈ targets) : answerName? targets target.bareText = some target.outputName := by
  cases hName : answerName? targets target.bareText with
  | none => exact absurd rfl (bareText_ne_of_answerName? hName target h)
  | some shown =>
    obtain ⟨other, hOther, hText, rfl⟩ := exists_of_answerName? hName
    rw [inj_on_of_nodup_map hTexts hOther h hText]

/-- Different columns get different names if the names of the targets are different. -/
theorem nodup_answerNames (hNames : (targets.map Node.outputName).Nodup) {names : List String}
    (h : names.Nodup) : (names.filterMap (answerName? targets)).Nodup := by
  refine h.filterMap fun name name' shown hName hName' => ?_
  obtain ⟨target, hTarget, rfl, rfl⟩ := exists_of_answerName? hName
  obtain ⟨target', hTarget', rfl, hShown⟩ := exists_of_answerName? hName'
  rw [inj_on_of_nodup_map hNames hTarget hTarget' hShown.symm]

def answerColumn? (targets : List Node) (column : String × Data) : Option (String × Data) :=
  (answerName? targets column.1).map (·, column.2)

/-- The columns that a target names, in their order. -/
theorem answerColumns_eq_filterMap (hNames : (targets.map Node.outputName).Nodup)
    (h : (columns.map (·.1)).Nodup) :
    answerColumns targets columns = columns.filterMap (answerColumn? targets) := by
  have hFold (columns done : List (String × Data))
      (hShown : (done.map (·.1) ++ (columns.map (·.1)).filterMap (answerName? targets)).Nodup) :
      columns.foldl (noteColumn targets) done =
        done ++ columns.filterMap (answerColumn? targets) := by
    induction columns generalizing done with
    | nil => simp
    | cons column rest ih =>
      rw [foldl_cons, noteColumn]
      cases hName : answerName? targets column.1 with
      | none =>
        rw [map_cons, filterMap_cons_none hName] at hShown
        rw [filterMap_cons_none (by rw [answerColumn?, hName]; rfl)]
        exact ih done hShown
      | some shown =>
        rw [map_cons, filterMap_cons_some hName] at hShown
        have hNew : shown ∉ done.map (·.1) := fun hDone =>
          (nodup_append.1 hShown).2.2 _ hDone _ mem_cons_self rfl
        have hSet : setNamed done shown column.2 = done ++ [(shown, column.2)] := by
          have hAppend := setNamed_append hNew [] column.2
          rwa [append_nil] at hAppend
        rw [filterMap_cons_some (b := (shown, column.2)) (by rw [answerColumn?, hName]; rfl)]
        dsimp only
        rw [hSet, ih _ (by simpa using hShown), append_assoc]
        rfl
  rw [answerColumns_eq_foldl, hFold columns [] (nodup_answerNames hNames h), nil_append]

theorem eq_or_mem_of_mem_setNamed {pairs : List (String × α)} {name : String} {a : α}
    {c : String × α} (h : c ∈ setNamed pairs name a) : c = (name, a) ∨ c ∈ pairs := by
  induction pairs with
  | nil => exact Or.inl (mem_singleton.1 h)
  | cons p rest ih =>
    rw [setNamed] at h
    split at h
    · rename_i hName
      rw [beq_iff_eq.1 hName] at h
      exact (mem_cons.1 h).imp_right (mem_cons_of_mem p)
    · rcases mem_cons.1 h with rfl | hRest
      · exact Or.inr mem_cons_self
      · exact (ih hRest).imp_right (mem_cons_of_mem p)

/-- A column of the answer is one that a target names. -/
theorem exists_column_of_mem :
    ∀ c ∈ answerColumns targets columns, ∃ column ∈ columns,
        answerName? targets column.1 = some c.1 ∧ c.2 = column.2 := by
  rw [answerColumns_eq_foldl]
  refine foldlRecOn (motive :=
    fun answer : List (String × Data) => ∀ c ∈ answer, ∃ column ∈ columns,
          answerName? targets column.1 = some c.1 ∧ c.2 = column.2) columns _ (by simp)
    fun answer hAnswer column hColumn => ?_
  unfold noteColumn
  split
  · exact hAnswer
  · rename_i shown hName
    intro c hc
    rcases eq_or_mem_of_mem_setNamed hc with rfl | hOld
    · exact ⟨column, hColumn, hName, rfl⟩
    · exact hAnswer c hOld

/-- A column that a target names is in the answer, under its name there. -/
theorem mem_answerColumns {c : String × Data} (hc : c ∈ columns) {shown : String}
    (hName : answerName? targets c.1 = some shown) :
    shown ∈ (answerColumns targets columns).map (·.1) := by
  rw [answerColumns_eq_foldl]
  have hKeeps (columns : List (String × Data)) {done : List (String × Data)}
      (hDone : shown ∈ done.map (·.1)) :
      shown ∈ (columns.foldl (noteColumn targets) done).map (·.1) := by
    refine foldlRecOn (motive := fun done : List (String × Data) => shown ∈ done.map (·.1)) columns
      _ hDone fun done hDone column _ => ?_
    unfold noteColumn
    split
    · exact hDone
    · rw [map_fst_setNamed]
      split
      · exact hDone
      · exact mem_append_left _ hDone
  obtain ⟨before, after, rfl⟩ := append_of_mem hc
  rw [foldl_append]
  refine hKeeps after ?_
  rw [noteColumn, hName]
  rw [map_fst_setNamed]
  split
  · assumption
  · exact mem_append_right _ (mem_singleton_self shown)

theorem answerNames_subset (targets : List Node) (columns : List (String × Data)) :
    (answerColumns targets columns).map (·.1) ⊆ targets.map Node.outputName := by
  intro name hName
  obtain ⟨c, hc, rfl⟩ := mem_map.1 hName
  obtain ⟨target, hTarget, hOutput⟩ := exists_outputName c hc
  exact hOutput ▸ mem_map_of_mem hTarget

/-- An answer with a column for each target has different names for all of them. -/
theorem nodup_outputNames (h : (answerColumns targets columns).length = targets.length) :
    (targets.map Node.outputName).Nodup := by
  have hSubperm :=
    (nodup_answerColumns targets columns).subperm (answerNames_subset targets columns)
  exact (hSubperm.perm_of_length_le (by simp [h])).nodup (nodup_answerColumns targets columns)

end AnswerColumns

abbrev TargetData := Node × Data

namespace TargetData

def byText (a : TargetData) : String × Data := (a.1.bareText, a.2)

def byName (a : TargetData) : String × Data := (a.1.outputName, a.2)

end TargetData

/-- What a partial function finds comes from places in the same order. -/
theorem sublist_of_filterMap_eq {f : α → Option β} {u : γ → α} {v : γ → β} {xs : List α}
    {items : List γ} (h : xs.filterMap f = items.map v)
    (hBack : ∀ x ∈ xs, ∀ a ∈ items, f x = some (v a) → x = u a) : (items.map u).Sublist xs := by
  induction xs generalizing items with
  | nil =>
    obtain rfl : items = [] := map_eq_nil_iff.1 h.symm
    exact Sublist.slnil
  | cons x rest ih =>
    cases hx : f x with
    | none =>
      rw [filterMap_cons_none hx] at h
      exact (ih h fun y hy => hBack y (mem_cons_of_mem x hy)).cons x
    | some b =>
      rw [filterMap_cons_some hx] at h
      obtain ⟨a, items, rfl, rfl, hRest⟩ := map_eq_cons_iff.1 h.symm
      rw [hBack x mem_cons_self a mem_cons_self hx]
      have hTail := ih hRest.symm fun y hy b hb =>
        hBack y (mem_cons_of_mem x hy) b (mem_cons_of_mem a hb)
      exact hTail.cons_cons _

section TargetColumns

variable {items : List TargetData} (hTexts : (items.map (·.1.bareText)).Nodup)
  (hNames : (items.map (·.1.outputName)).Nodup) {columns : List (String × Data)}
  (hColumns : (columns.map (·.1)).Nodup)
include hTexts hNames hColumns

/-- The answer has the columns of the targets in their order exactly if they are there in that
order. -/
theorem answerColumns_eq_map_iff :
    answerColumns (items.map (·.1)) columns = items.map TargetData.byName ↔
      (items.map TargetData.byText).Sublist columns := by
  have hTargetNames : ((items.map (·.1)).map Node.outputName).Nodup := by rwa [map_map]
  have hTargetTexts : ((items.map (·.1)).map Node.bareText).Nodup := by rwa [map_map]
  constructor
  · intro h
    rw [answerColumns_eq_filterMap hTargetNames hColumns] at h
    refine sublist_of_filterMap_eq h fun c _ a ha hc => ?_
    obtain ⟨shown, hShown, hName⟩ := Option.map_eq_some_iff.1 hc
    obtain ⟨target, hTarget, hText, rfl⟩ := exists_of_answerName? hShown
    obtain ⟨rfl⟩ : target = a.1 := inj_on_of_nodup_map hTargetNames hTarget (mem_map_of_mem ha)
      (congrArg Prod.fst hName)
    have hData : c.2 = a.2 := congrArg Prod.snd hName
    exact Prod.ext hText.symm hData
  · intro h
    have hShown : (items.map TargetData.byText).filterMap (answerColumn? (items.map (·.1))) =
        items.map TargetData.byName := by
      rw [filterMap_map, ← filterMap_eq_map (f := TargetData.byName)]
      refine filterMap_congr fun a ha => ?_
      rw [Function.comp_apply, answerColumn?, TargetData.byText,
        answerName?_of_mem hTargetTexts (mem_map_of_mem ha)]
      rfl
    have hFound := h.filterMap (answerColumn? (items.map (·.1)))
    rw [hShown, ← answerColumns_eq_filterMap hTargetNames hColumns] at hFound
    refine (hFound.eq_of_length_le ?_).symm
    -- no name of a target occurs twice
    have hSubperm :=
      (nodup_answerColumns (items.map (·.1)) columns).subperm (answerNames_subset _ _)
    simpa using hSubperm.length_le

end TargetColumns

/-- What the targets of a grouped select ask for and get, beside the keys. -/
structure GroupResults (extensions : List (String × Extension)) (targets : List Node)
    (texts : List String) (g : Grouping) (asked : Asked) (results : List (String × Data)) :
    Prop where
  asks : List.Forall₂ (Asks extensions) (otherTargets texts targets) asked
  textsOnce : ((otherTargets texts targets).map Node.bareText).Nodup
  nonempty : asked ≠ []
  computes : List.Forall₂ g.Computes asked results
  keysOnce : (g.keys.map (·.1)).Nodup
  others : ∀ r ∈ results, r.1 ∉ g.keys.map (·.1)

section GroupTargets

variable {extensions : List (String × Extension)} {targets keys : List Node} {source : GroupSource}
variable {texts : List String}

def groupAnswer (targets : List Node) (g : Grouping) (results : List (String × Data)) : Table :=
  ⟨Column.freshLabels g.groups.length, answerColumns targets (g.keys ++ results)⟩

namespace GroupResults

variable {g : Grouping} {asked : Asked} {results : List (String × Data)}
  (h : GroupResults extensions targets texts g asked results)
include h

/-- The aggregates have the texts of the targets that ask for them. -/
theorem names_eq : results.map (·.1) = (otherTargets texts targets).map Node.bareText := by
  have hAsked :=
    map_eq_map_of_forall₂ (f := Node.bareText) (g := Prod.fst) h.asks fun _ _ ha => ha.1.symm
  have hResults :=
    map_eq_map_of_forall₂ (f := Prod.fst) (g := Prod.fst) h.computes fun _ _ hr => hr.1.symm
  exact (hAsked.trans hResults).symm

/-- No two columns of the grouped table have the same name. -/
theorem nodup : ((g.keys ++ results).map (·.1)).Nodup := by
  rw [map_append, nodup_append]
  refine ⟨h.keysOnce, h.names_eq ▸ h.textsOnce, fun name hKey other hOther hSame => ?_⟩
  obtain ⟨r, hr, rfl⟩ := mem_map.1 hOther
  exact h.others r hr (hSame ▸ hKey)

/-- A result is an aggregate that a target asks for under its text. -/
theorem exists_target {r : String × Data} (hr : r ∈ results) :
    ∃ target ∈ otherTargets texts targets, target.bareText = r.1 ∧
      ∃ name f, target.AsksFor extensions name f ∧ g.aggregateColumn name f = .ok r.2 := by
  obtain ⟨a, ha, hComputes⟩ := exists_mem_left h.computes hr
  obtain ⟨target, hTarget, hAsks⟩ := exists_mem_left h.asks ha
  exact ⟨target, hTarget, (hComputes.1.trans hAsks.1).symm, _, _, hAsks.2, hComputes.2⟩

theorem answerColumns_ne_nil : answerColumns targets (g.keys ++ results) ≠ [] := by
  obtain ⟨r, hr⟩ : ∃ r, r ∈ results := by
    obtain ⟨a, ha⟩ := exists_mem_of_ne_nil _ h.nonempty
    obtain ⟨r, hr, -⟩ := exists_mem_right h.computes ha
    exact ⟨r, hr⟩
  have hNamed : r.1 ∈ (otherTargets texts targets).map Node.bareText := by
    rw [← h.names_eq]
    exact mem_map_of_mem hr
  obtain ⟨target, hTarget, hText⟩ := mem_map.1 hNamed
  cases hName : answerName? targets r.1 with
  | none => exact absurd hText (bareText_ne_of_answerName? hName target (mem_filter.1 hTarget).1)
  | some shown =>
    intro hNone
    have hShown := mem_answerColumns (mem_append_right g.keys hr) hName
    rw [hNone] at hShown
    cases hShown

theorem groupAnswer_eq :
    (⟨if (answerColumns targets (g.keys ++ results)).isEmpty then []
      else Column.freshLabels g.groups.length, answerColumns targets (g.keys ++ results)⟩ : Table) =
      groupAnswer targets g results := by
  rw [if_neg (by simpa using h.answerColumns_ne_nil)]
  rfl

end GroupResults

theorem groupResults_of_groupTargets {u : Table}
    (h : groupTargets extensions targets source keys = .ok u) :
    ∃ texts g asked results, keyTexts keys = .ok texts ∧ source.grouped = .ok g ∧
      GroupResults extensions targets texts g asked results ∧
      u = groupAnswer targets g results := by
  obtain ⟨texts, hTexts, h⟩ := bind_eq_ok h
  obtain ⟨asked, hAsked, h⟩ := bind_eq_ok h
  obtain ⟨g, hg, h⟩ := bind_eq_ok h
  obtain ⟨all, hAll, h⟩ := bind_eq_ok h
  obtain ⟨_, hAsks, rfl, hOnceTexts⟩ := asks_of_askedOf extensions texts (by simp) hAsked
  obtain ⟨hNonempty, results, hComputes, hOnce, hOthers, rfl⟩ :=
    Grouping.aggregates_eq_ok_iff.1 hAll
  have hResults : GroupResults extensions targets texts g asked results :=
    ⟨hAsks, hOnceTexts, hNonempty, hComputes, hOnce, hOthers⟩
  cases h
  exact ⟨texts, g, asked, results, hTexts, hg, hResults, hResults.groupAnswer_eq⟩

theorem groupTargets_of_groupResults {g : Grouping} {asked : Asked} {results : List (String × Data)}
    (hKeys : keyTexts keys = .ok texts) (hSource : source.grouped = .ok g)
    (h : GroupResults extensions targets texts g asked results) :
    groupTargets extensions targets source keys = .ok (groupAnswer targets g results) := by
  have hAsked : askedOf extensions texts [] targets = .ok ([] ++ asked) :=
    askedOf_eq_ok extensions texts (by simp) h.textsOnce h.asks
  rw [nil_append] at hAsked
  have hAll :=
    Grouping.aggregates_eq_ok_iff.2 ⟨h.nonempty, results, h.computes, h.keysOnce, h.others, rfl⟩
  rw [groupTargets, hKeys]
  simp only [hAsked, hSource, hAll, bind, Except.bind]
  exact congrArg Except.ok h.groupAnswer_eq

/-- Two aggregates of one text are rejected. -/
theorem groupTargets_of_repeated (hKeys : keyTexts keys = .ok texts)
    (hAsks : ∀ target ∈ otherTargets texts targets, ∃ a, Asks extensions target a)
    (h : ¬((otherTargets texts targets).map Node.bareText).Nodup) :
    ∃ text,
      groupTargets extensions targets source keys = .error (.query (.duplicateColumn text)) := by
  rw [groupTargets, hKeys]
  cases hAsked : askedOf extensions texts [] targets with
  | error e =>
    obtain ⟨text, rfl⟩ := askedOf_error extensions texts hAsks hAsked
    simp only [hAsked, bind, Except.bind]
    exact ⟨text, rfl⟩
  | ok asked =>
    obtain ⟨_, _, _, hOnce⟩ := asks_of_askedOf extensions texts (by simp) hAsked
    exact absurd hOnce h

end GroupTargets

namespace Query

open Work

variable {q : Select} {keys : List Node} {i : Nat} {v v' : Workspace}

theorem run_evalGroups_of_keys (hSome : (groupsWhole keys || keys.isEmpty) = false)
    {names : List String} (hKeys : run (evalKeys (.frame i) keys) v = (.ok names, v'))
    {g : Grouping} (hGroups : (v'.tableAt i).groupBy names = .ok g) :
    run (evalGroups (.frame i) (some keys)) v = (.ok (some (.grouping g)), v') := by
  have hSource : run (groupSource (.frame i) names) v' = (.ok (.grouping g), v') := by
    have hFrame : (v'.frames[i]?.getD default).table.groupBy names = .ok g := hGroups
    rw [groupSource, run_bind_ok (run_frame i v'), hFrame]
    rfl
  rw [evalGroups, hSome, if_neg Bool.false_ne_true, run_bind_ok hKeys, run_bind_ok hSource]
  rfl

/-- Groups come from the names that the keys get. -/
theorem exists_of_evalGroups (hSome : (groupsWhole keys || keys.isEmpty) = false)
    {groups : Option GroupSource}
    (h : run (evalGroups (.frame i) (some keys)) v = (.ok groups, v')) :
    ∃ names g, run (evalKeys (.frame i) keys) v = (.ok names, v') ∧
      (v'.tableAt i).groupBy names = .ok g ∧ groups = some (.grouping g) := by
  rw [evalGroups, hSome] at h
  obtain ⟨names, v₁, hNames, h⟩ := run_bind_eq_ok h
  obtain ⟨source, v₂, hSource, h⟩ := run_bind_eq_ok h
  cases h
  rw [groupSource, run_bind_ok (run_frame i v₁)] at hSource
  obtain ⟨g, v₃, hg, hSource⟩ := run_bind_eq_ok hSource
  cases hSource
  rw [run_lift] at hg
  obtain ⟨hMade, rfl⟩ := Prod.mk.inj hg
  exact ⟨names, g, hNames, hMade, rfl⟩

theorem evalGroupRows_eq {key : Node} {rest : List Node} (hKeys : q.groupBy = some (key :: rest)) :
    evalGroupRows q = (do
      let rows ← (do evalWhere (← evalFrom q.source) q.condition)
      let groups ← evalGroups rows q.groupBy
      groupedTable rows q.targets (key :: rest) groups) := by
  have hTaken : lift (groupKeys q.targets q.groupBy) = pure (key :: rest) := by
    rw [hKeys]
    rfl
  unfold evalGroupRows
  rw [hTaken]
  simp only [bind_assoc, pure_bind]

section Answer

variable {key : Node} {rest : List Node} (hKeys : q.groupBy = some (key :: rest)) {w : Workspace}
  {rows : Relation} (hRows : run (do evalWhere (← evalFrom q.source) q.condition) w = (.ok rows, v))
  {g : Grouping} (hGroups : run (evalGroups rows q.groupBy) v = (.ok (some (.grouping g)), v'))
include hKeys hRows hGroups

/-- The rows of the groups are made from the grouping. -/
theorem run_evalGroupRows :
    run (evalGroupRows q) w =
      (groupTargets v'.catalog.extensions q.targets (.grouping g) (key :: rest), v') := by
  rw [evalGroupRows_eq hKeys, run_bind_ok hRows, run_bind_ok hGroups]
  exact run_lift _ v'

theorem run_evalSelect_core_groups :
    (run (evalSelect q.core) w).1 =
      Table.bareNames <$>
        groupTargets v'.catalog.extensions q.targets (.grouping g) (key :: rest) := by
  have hRun := run_evalGroupRows (q := q.core) hKeys hRows hGroups
  have hTargets : q.core.targets = q.targets := rfl
  rw [hTargets] at hRun
  rw [evalSelect_grouped (q := q.core) hKeys]
  generalize groupTargets v'.catalog.extensions q.targets (.grouping g) (key :: rest) = answer
    at hRun
  cases answer with
  | error e =>
    rw [run_bind_error hRun]
    rfl
  | ok t =>
    rw [run_bind_ok hRun]
    exact congrArg Prod.fst (run_arrangeRows (q := q.core) rfl rfl t v')

end Answer

end Query

end TableQuery
